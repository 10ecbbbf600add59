import EdgeScan.Proofs.Traversal
import EdgeScan.Random.Uniform
import Mathlib.Algebra.Order.Group.Nat
import Mathlib.Tactic.SplitIfs

/-!
What holds of random draws, whatever the source gives: a draw below a bound is below it, and a
shuffled list is a permutation. On which sources the loops of a draw end, and that they then give what
the loops without a limit give. And what draws can give, from some source on which their loops end:
every number below the bound.
-/
namespace EdgeScan.Draw

open scoped List

variable {α β : Type} {P : α → Prop} {Q : β → Prop}

/-- Every result of a draw has a property, whichever source it draws from. -/
def Always (P : α → Prop) (d : Draw α) : Prop := ∀ source, P (d.run source).1

lemma always_pure {a : α} (h : P a) : Always P (pure a) := fun _ => h

lemma Always.bind {d : Draw α} {k : α → Draw β} (h : Always P d)
    (hk : ∀ a, P a → Always Q (k a)) : Always Q (d >>= k) := fun source =>
  hk _ (h source) (d.run source).2

lemma Always.imp {P' : α → Prop} {d : Draw α} (h : Always P d) (himp : ∀ a, P a → P' a) :
    Always P' d := fun source => himp _ (h source)

lemma always_true (d : Draw α) : Always (fun _ => True) d := fun _ => trivial

theorem always_mapM {R : α → β → Prop} {k : α → Draw β} :
    ∀ {l : List α}, (∀ a ∈ l, Always (R a) (k a)) → Always (List.Forall₂ R l) (l.mapM k)
  | [], _ => always_pure .nil
  | a :: l, h => by
    rw [List.mapM_cons]
    refine (h a List.mem_cons_self).bind fun b hb => ?_
    refine (always_mapM fun x hx => h x (List.mem_cons_of_mem _ hx)).bind fun bs hbs => ?_
    exact always_pure (.cons hb hbs)

lemma always_number (size : ℕ) : Always (· < 256 ^ size) (Source.number size) := by
  induction size with
  | zero => exact always_pure Nat.one_pos
  | succ size ih =>
    refine (always_true Source.byte).bind fun b _ => ?_
    refine ih.bind fun rest hrest => always_pure ?_
    have hb : b.toNat < 256 := b.toNat_lt
    rw [Nat.pow_succ]
    omega

theorem scale_lt {v total bound : ℕ} (hv : v < total) (hbound : 0 < bound) :
    v * bound / total < bound := by
  refine Nat.div_lt_of_lt_mul ?_
  exact Nat.mul_lt_mul_of_pos_right hv hbound

section

variable {accepts : α → Bool} {d : Draw α} {fallback : α}

/-- Draws are made until one is accepted, and if the loop is given up, so is the fallback. -/
theorem always_retry (h : Always P d) (drawable : P fallback) (accepted : accepts fallback = true)
    (limit : ℕ) : Always (fun a => ∃ tries : List α, (∀ t ∈ tries, P t) ∧ tries.find? accepts = some a)
      (retry accepts d fallback limit) := by
  induction limit with
  | zero =>
    refine (always_true Source.giveUp).bind fun _ _ => always_pure ⟨[fallback], ?_, ?_⟩
    · exact List.forall_mem_singleton.mpr drawable
    · exact List.find?_cons_of_pos accepted
  | succ limit ih =>
    refine h.bind fun a ha => ?_
    split
    · rename_i taken
      exact always_pure ⟨[a], List.forall_mem_singleton.mpr ha, List.find?_cons_of_pos taken⟩
    · rename_i refused
      refine ih.imp fun b drawn => ?_
      obtain ⟨tries, all, first⟩ := drawn
      refine ⟨a :: tries, List.forall_mem_cons.mpr ⟨ha, all⟩, ?_⟩
      rwa [List.find?_cons_of_neg refused]

end

lemma lt_acceptedRemainder {width bound n : ℕ} (h : n < bound) :
    n ≤ acceptedRemainder width bound := by
  have scaled : bound ≤ bound * Nat.pow 2 (width - (bound.log2 + 1)) :=
    Nat.le_mul_of_pos_right bound (Nat.two_pow_pos _)
  unfold acceptedRemainder
  omega

lemma accepts_of_lt {size bound v : ℕ} (h : v * bound % 256 ^ size < bound) :
    accepts size bound v = true :=
  decide_eq_true (lt_acceptedRemainder h)

lemma always_below (size : ℕ) {bound : ℕ} (h : 0 < bound) :
    Always (· < bound) (below size bound) := by
  have zero : accepts size bound 0 = true := accepts_of_lt (by rwa [Nat.zero_mul, Nat.zero_mod])
  have pos : 0 < 256 ^ size := Nat.pow_pos (by decide)
  refine (always_retry (always_number size) pos zero attempts).bind fun v drawn => ?_
  obtain ⟨tries, small, first⟩ := drawn
  exact always_pure (scale_lt (small v (List.mem_of_find?_eq_some first)) h)

lemma always_choose {l : List α} (some_ : l ≠ []) (fallback : α) :
    Always (· ∈ l) (choose l fallback) := by
  unfold choose
  rw [if_neg (by simpa using some_)]
  refine (always_below 4 (List.length_pos_iff.mpr some_)).bind fun i hi => always_pure ?_
  rw [List.getD_eq_getElem?_getD, List.getElem?_eq_getElem hi, Option.getD_some]
  exact List.getElem_mem hi

/-- The loop without a limit: it draws until what is drawn is accepted, in so many tries. -/
inductive Ends (accepts : α → Bool) (d : Draw α) : ℕ → Source → α → Source → Prop
  | accept {s : Source} (accepted : accepts (d.run s).1 = true) :
      Ends accepts d 1 s (d.run s).1 (d.run s).2
  | refuse {n : ℕ} {s s' : Source} {a : α} (refused : accepts (d.run s).1 = false)
      (later : Ends accepts d n (d.run s).2 a s') : Ends accepts d (n + 1) s a s'

/-- No loop was given up, neither in a draw nor before it. -/
def Settles (d : Draw α) (s : Source) : Prop := (d.run s).2.gaveUp = false

/-- A source that records that a loop was given up keeps the record through a draw. -/
def Persists (d : Draw α) : Prop := ∀ s, Settles d s → s.gaveUp = false

lemma persists_pure (a : α) : Persists (pure a) := fun _ h => h

lemma Persists.bind {d : Draw α} {k : α → Draw β} (h : Persists d) (hk : ∀ a, Persists (k a)) :
    Persists (d >>= k) := fun s settled => h s (hk _ _ settled)

lemma persists_mapM {k : α → Draw β} (h : ∀ a, Persists (k a)) :
    ∀ l : List α, Persists (l.mapM k)
  | [] => persists_pure []
  | a :: l => by
    rw [List.mapM_cons]
    exact (h a).bind fun b => (persists_mapM h l).bind fun bs => persists_pure _

/-- Two draws in a row settle if each does where it is made. -/
theorem settles_bind_iff {d : Draw α} {k : α → Draw β} {s : Source} (h : ∀ a, Persists (k a)) :
    Settles (d >>= k) s ↔ Settles d s ∧ Settles (k (d.run s).1) (d.run s).2 :=
  ⟨fun settled => ⟨h _ _ settled, settled⟩, And.right⟩

section

variable {accepts : α → Bool} {d : Draw α} {fallback a : α} {s s' : Source} {n limit : ℕ}

lemma run_retry_succ : (retry accepts d fallback (limit + 1)).run s =
    if accepts (d.run s).1 = true then d.run s
    else (retry accepts d fallback limit).run (d.run s).2 := by
  rw [retry, StateT.run_bind]
  show (ite _ _ _ : Draw α).run _ = _
  split <;> rfl

lemma persists_retry (h : Persists d) : Persists (retry accepts d fallback limit) := by
  induction limit with
  | zero => exact fun s settled => absurd settled (by decide : ¬true = false)
  | succ limit ih =>
    refine h.bind fun a => ?_
    split
    · exact persists_pure a
    · exact ih

/-- If the loop without a limit ends within the limit, the loop gives the same. -/
theorem Ends.run_retry (h : Ends accepts d n s a s') (within : n ≤ limit) :
    (retry accepts d fallback limit).run s = (a, s') := by
  induction h generalizing limit with
  | accept accepted =>
    obtain ⟨rest, rfl⟩ := Nat.exists_eq_add_of_le' within
    exact run_retry_succ.trans (if_pos accepted)
  | refuse refused _ ih =>
    obtain ⟨rest, rfl⟩ := Nat.exists_eq_add_of_le' (Nat.le_of_add_left_le within)
    rw [run_retry_succ, if_neg (Bool.not_eq_true _ ▸ refused)]
    exact ih (Nat.le_of_succ_le_succ within)

/-- A loop that is not given up gives what the loop without a limit gives. -/
theorem exists_ends (settled : Settles (retry accepts d fallback limit) s) : ∃ n ≤ limit,
    Ends accepts d n s ((retry accepts d fallback limit).run s).1
      ((retry accepts d fallback limit).run s).2 := by
  induction limit generalizing s with
  | zero => exact absurd settled (by decide : ¬true = false)
  | succ limit ih =>
    rw [Settles, run_retry_succ] at settled
    rw [run_retry_succ]
    split at settled
    · rename_i accepted
      rw [if_pos accepted]
      exact ⟨1, Nat.le_add_left 1 limit, .accept accepted⟩
    · rename_i refused
      rw [if_neg refused]
      obtain ⟨n, within, later⟩ := ih settled
      exact ⟨n + 1, Nat.succ_le_succ within, .refuse (Bool.not_eq_true _ ▸ refused) later⟩

/-- A loop settles on the sources on which the loop without a limit ends within the limit. -/
theorem settles_retry_iff : Settles (retry accepts d fallback limit) s ↔
    ∃ n ≤ limit, ∃ a s', Ends accepts d n s a s' ∧ s'.gaveUp = false := by
  constructor
  · intro settled
    obtain ⟨n, within, ends⟩ := exists_ends settled
    exact ⟨n, within, _, _, ends, settled⟩
  · rintro ⟨n, within, a, s', ends, fresh⟩
    rw [Settles, ends.run_retry within]
    exact fresh

lemma Ends.gaveUp_eq (h : Ends accepts d n s a s')
    (same : ∀ s, (d.run s).2.gaveUp = s.gaveUp) : s'.gaveUp = s.gaveUp := by
  induction h with
  | accept => exact same _
  | refuse _ _ ih => exact ih.trans (same _)

end

lemma gaveUp_byte (s : Source) : (Source.byte.run s).2.gaveUp = s.gaveUp := by
  obtain ⟨pending, state, gaveUp⟩ := s
  cases pending <;> rfl

lemma gaveUp_number (size : ℕ) (s : Source) : ((Source.number size).run s).2.gaveUp = s.gaveUp := by
  induction size generalizing s with
  | zero => rfl
  | succ size ih => exact (ih _).trans (gaveUp_byte s)

section

variable {size bound n v : ℕ} {s s' : Source}

lemma run_below : (below size bound).run s =
    (((acceptedNumber size bound).run s).1 * bound / 256 ^ size,
      ((acceptedNumber size bound).run s).2) := rfl

/-- A draw below a bound gives the first accepted one of the numbers of the source, scaled to the
bound. -/
theorem run_below_of_ends (h : Ends (accepts size bound) (Source.number size) n s v s')
    (within : n ≤ attempts) : (below size bound).run s = (v * bound / 256 ^ size, s') := by
  rw [run_below, acceptedNumber, h.run_retry within]

/-- A draw below a bound settles if one of the first numbers that the source gives is accepted. -/
theorem settles_below_iff (fresh : s.gaveUp = false) : Settles (below size bound) s ↔
    ∃ n ≤ attempts, ∃ v s', Ends (accepts size bound) (Source.number size) n s v s' := by
  constructor
  · intro settled
    rw [Settles, run_below] at settled
    obtain ⟨n, within, ends⟩ := exists_ends (d := Source.number size) settled
    exact ⟨n, within, _, _, ends⟩
  · rintro ⟨n, within, v, s', ends⟩
    rw [Settles, run_below_of_ends ends within]
    exact (ends.gaveUp_eq (gaveUp_number size)).trans fresh

end

lemma persists_below (size bound : ℕ) : Persists (below size bound) :=
  (persists_retry fun s settled => (gaveUp_number size s).symm.trans settled).bind fun _ =>
    persists_pure _

lemma persists_shuffle (l : List α) : Persists (shuffle l) := by
  have each (i : ℕ) : ∀ a : Array α, Persists (shuffleTo a i) := by
    induction i with
    | zero => exact fun a => persists_pure a
    | succ i ih => exact fun a => (persists_below 4 _).bind fun j => ih _
  exact (each _ _).bind fun _ => persists_pure _

/-! What draws can give -/

/-- Some bytes make a draw give `a`, end its loops, and leave the bytes after them to the next draw. -/
def CanGive (d : Draw α) (a : α) : Prop :=
  ∃ bytes, ∀ rest state, d.run ⟨bytes ++ rest, state, false⟩ = (a, ⟨rest, state, false⟩)

lemma CanGive.exists_source {d : Draw α} {a : α} (h : CanGive d a) :
    ∃ source, Settles d source ∧ (d.run source).1 = a := by
  obtain ⟨bytes, hbytes⟩ := h
  refine ⟨⟨bytes ++ [], 0, false⟩, ?_, ?_⟩
  · rw [Settles, hbytes]
  · rw [hbytes]

lemma canGive_pure (a : α) : CanGive (pure a) a := ⟨[], fun _ _ => rfl⟩

lemma CanGive.bind {d : Draw α} {k : α → Draw β} {a : α} {b : β} (h : CanGive d a)
    (hk : CanGive (k a) b) : CanGive (d >>= k) b := by
  obtain ⟨bytes, hbytes⟩ := h
  obtain ⟨more, hmore⟩ := hk
  refine ⟨bytes ++ more, fun rest state => ?_⟩
  rw [StateT.run_bind, List.append_assoc, hbytes]
  exact hmore rest state

lemma canGive_byte (b : UInt8) : CanGive Source.byte b := ⟨[b], fun _ _ => rfl⟩

lemma canGive_number {size n : ℕ} (h : n < 256 ^ size) : CanGive (Source.number size) n := by
  induction size generalizing n with
  | zero =>
    rw [Nat.lt_one_iff.mp h]
    exact canGive_pure 0
  | succ size ih =>
    have rest : n / 256 < 256 ^ size := Nat.div_lt_of_lt_mul (by rwa [Nat.pow_succ'] at h)
    have whole : (n % 256).toUInt8.toNat + 256 * (n / 256) = n := by
      have low : (n % 256).toUInt8.toNat = n % 256 :=
        Nat.mod_eq_of_lt (Nat.mod_lt n (by decide))
      rw [low, Nat.mod_add_div]
    refine (canGive_byte (n % 256).toUInt8).bind ((ih rest).bind ?_)
    rw [whole]
    exact canGive_pure n

/-- Every number below a bound is the scaled image of a number that is not drawn again. -/
theorem exists_scaled {v bound total : ℕ} (hv : v < bound) (hbound : bound ≤ total) :
    ∃ x < total, x * bound / total = v ∧ x * bound % total < bound := by
  have pos : 0 < bound := by omega
  -- the least number whose image is not below `v`
  let x := (v * total + (bound - 1)) / bound
  have upper : x * bound ≤ v * total + (bound - 1) := Nat.div_mul_le_self _ _
  have lower : v * total + (bound - 1) < x * bound + bound := Nat.lt_div_mul_add pos
  obtain ⟨r, hr⟩ : ∃ r, x * bound = total * v + r :=
    ⟨x * bound - total * v, by rw [Nat.mul_comm total]; omega⟩
  have small : r < bound := by
    rw [Nat.mul_comm total] at hr
    omega
  refine ⟨x, ?_, ?_, ?_⟩
  · refine Nat.lt_of_mul_lt_mul_right (a := bound) ?_
    have room : total * v + total ≤ total * bound := Nat.mul_le_mul_left total hv
    omega
  · rw [hr, Nat.mul_add_div (by omega), Nat.div_eq_of_lt (by omega), Nat.add_zero]
  · rw [hr, Nat.mul_add_mod, Nat.mod_eq_of_lt (by omega)]
    exact small

lemma canGive_retry {accepts : α → Bool} {d : Draw α} {a : α} {limit : ℕ} (h : CanGive d a)
    (accepted : accepts a = true) (fallback : α) (pos : 0 < limit) :
    CanGive (retry accepts d fallback limit) a := by
  obtain ⟨limit, rfl⟩ := Nat.exists_eq_add_one.mpr pos
  refine h.bind ?_
  rw [if_pos accepted]
  exact canGive_pure a

/-- A draw below a bound can give every number below it. -/
theorem canGive_below {size bound v : ℕ} (hv : v < bound) (hbound : bound ≤ 256 ^ size) :
    CanGive (below size bound) v := by
  obtain ⟨x, hx, rfl, remainder⟩ := exists_scaled hv hbound
  have drawn : CanGive (acceptedNumber size bound) x :=
    canGive_retry (canGive_number hx) (accepts_of_lt remainder) 0 (by decide)
  exact drawn.bind (canGive_pure _)

lemma CanGive.mapM_cons {k : α → Draw β} {a : α} {b : β} {l : List α} {bs : List β}
    (h : CanGive (k a) b) (hl : CanGive (l.mapM k) bs) : CanGive ((a :: l).mapM k) (b :: bs) := by
  rw [List.mapM_cons]
  exact h.bind (hl.bind (canGive_pure _))

lemma exists_canGive_mapM {k : α → Draw β} {l : List α} (each : ∀ x ∈ l, ∃ y, CanGive (k x) y) :
    ∃ bs, CanGive (l.mapM k) bs := by
  induction l with
  | nil => exact ⟨[], canGive_pure []⟩
  | cons x l ih =>
    obtain ⟨⟨y, hy⟩, rest⟩ := List.forall_mem_cons.mp each
    obtain ⟨bs, hbs⟩ := ih rest
    exact ⟨y :: bs, hy.mapM_cons hbs⟩

/-- If each of several draws can give something, all together can give what one of them can. -/
theorem exists_mem_canGive_mapM {k : α → Draw β} {a : α} {b : β} {l : List α}
    (each : ∀ x ∈ l, ∃ y, CanGive (k x) y) (ha : a ∈ l) (hb : CanGive (k a) b) :
    ∃ bs, b ∈ bs ∧ CanGive (l.mapM k) bs := by
  induction l with
  | nil => exact absurd ha List.not_mem_nil
  | cons x l ih =>
    obtain ⟨⟨y, hy⟩, rest⟩ := List.forall_mem_cons.mp each
    rcases List.mem_cons.mp ha with rfl | later
    · obtain ⟨bs, hbs⟩ := exists_canGive_mapM rest
      exact ⟨b :: bs, List.mem_cons_self, hb.mapM_cons hbs⟩
    · obtain ⟨bs, mem, hbs⟩ := ih rest later
      exact ⟨y :: bs, List.mem_cons_of_mem y mem, hy.mapM_cons hbs⟩

end EdgeScan.Draw
