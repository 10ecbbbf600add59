import EdgeScan.Proofs.FullCycle.Period
import EdgeScan.Proofs.Random

/-!
The cycles that are drawn. A cycle is made of numbers that are each drawn from their range; the
increment is the first one drawn that shares no factor with the modulus. Whatever is drawn, the cycle
is a full one, and any numbers of the ranges can be drawn together.
-/
namespace EdgeScan.FullCycle

/-- Numbers drawn for a cycle modulo `m`, each from its range: how many steps the multiplier lies
above 1, increments to be tried one after the other, and a number to start at. -/
structure Draws (m : UInt64) where
  steps : ℕ
  tries : List ℕ
  start : ℕ
  steps_le : steps ≤ (m / step m).toNat
  lt_of_mem_tries : ∀ c ∈ tries, c < m.toNat
  start_lt : start < m.toNat

namespace Draws

variable {m : UInt64}

def multiplier (d : Draws m) : ℕ := (1 + d.steps * (step m).toNat) % m.toNat

/-- The first of some increments that shares no factor with `m`. -/
def firstCoprime? (m : UInt64) (tries : List ℕ) : Option ℕ :=
  tries.find? fun c => Nat.gcd c m.toNat = 1

lemma firstCoprime?_cons {c : ℕ} (coprime : c.Coprime m.toNat) (tries : List ℕ) :
    firstCoprime? m (c :: tries) = some c :=
  List.find?_cons_of_pos (by simpa using coprime)

lemma firstCoprime?_map (tries : List UInt64) : firstCoprime? m (tries.map UInt64.toNat) =
    (tries.find? fun c => gcd c m == 1).map UInt64.toNat := by
  have same : (fun c => gcd c m == 1) = (fun c => decide (Nat.gcd c m.toNat = 1)) ∘ UInt64.toNat := by
    funext c
    exact decide_eq_decide.mpr gcd_eq_one_iff
  rw [firstCoprime?, List.find?_map, same]

/-- The cycle that the numbers make, if one of the increments can be taken. -/
def cycle? (d : Draws m) : Option FullCycle :=
  (firstCoprime? m d.tries).map fun c =>
    ⟨m, d.multiplier.toUInt64, c.toUInt64, d.start.toUInt64⟩

lemma modulus_pos (d : Draws m) : 0 < m.toNat := Nat.zero_lt_of_lt d.start_lt

lemma modulus_ne_zero (d : Draws m) : m ≠ 0 := fun zero => by
  have pos := d.modulus_pos
  rw [zero] at pos
  exact absurd pos (by decide)

theorem exists_of_cycle? {d : Draws m} {x : FullCycle} (h : d.cycle? = some x) :
    ∃ c, firstCoprime? m d.tries = some c ∧ c.Coprime m.toNat ∧ c < m.toNat ∧
      x.modulus = m ∧ x.multiplier.toNat = d.multiplier ∧ x.increment.toNat = c ∧
      x.state.toNat = d.start := by
  obtain ⟨c, first, rfl⟩ := Option.map_eq_some_iff.mp h
  have below := d.lt_of_mem_tries c (List.mem_of_find?_eq_some first)
  have coprime : c.Coprime m.toNat := by simpa using List.find?_some first
  exact ⟨c, first, coprime, below, rfl, toNat_toUInt64 (Nat.mod_lt _ d.modulus_pos),
    toNat_toUInt64 below, toNat_toUInt64 d.start_lt⟩

end Draws

/-- A multiplier that is one more than a multiple of the step meets the conditions. -/
theorem hullDobell_of_step {m : UInt64} (hm : m ≠ 0) (k : ℕ) {c : ℕ} (coprime : c.Coprime m.toNat) :
    HullDobell m.toNat ((1 + k * (step m).toNat) % m.toNat) c := by
  obtain ⟨-, prime, four⟩ := step_spec hm
  have near {q : ℕ} (hq : q ∣ m.toNat) (hstep : q ∣ (step m).toNat) :
      (1 + k * (step m).toNat) % m.toNat ≡ 1 [MOD q] := by
    refine (Nat.ModEq.of_dvd hq (Nat.mod_modEq _ _)).trans ?_
    simpa using (Nat.modEq_zero_iff_dvd.mpr (hstep.mul_left k)).add_left 1
  exact ⟨coprime, fun q hq hqm => near hqm (prime q hq hqm), fun h => near h (four h)⟩

theorem Draws.sound {m : UInt64} {d : Draws m} {x : FullCycle} (h : d.cycle? = some x) :
    x.Sound := by
  obtain ⟨c, -, coprime, -, modulus, multiplier, increment, -⟩ := d.exists_of_cycle? h
  refine ⟨modulus ▸ d.modulus_ne_zero, ?_⟩
  rw [modulus, multiplier, increment]
  exact hullDobell_of_step d.modulus_ne_zero d.steps coprime

/-! What is drawn -/

lemma max_one_ne_zero (m : UInt64) : max m 1 ≠ 0 := by
  by_cases small : m ≤ 1
  · rw [show max m 1 = 1 from if_pos small]
    decide
  · rw [show max m 1 = m from if_neg small]
    rintro rfl
    exact small (by decide)

lemma max_one {m : UInt64} (hm : m ≠ 0) : max m 1 = m := by
  by_cases small : m ≤ 1
  · have one : m.toNat = 1 :=
      le_antisymm (UInt64.le_iff_toNat_le.mp small) (toNat_pos hm)
    exact (if_pos small).trans (UInt64.toNat_inj.mp one).symm
  · exact if_neg small

lemma draw_max_one (m : UInt64) : draw (max m 1) = draw m := by
  unfold draw
  rw [max_one (max_one_ne_zero m)]

lemma one_mod_coprime (m : UInt64) : (1 % m).toNat.Coprime m.toNat := by
  rw [UInt64.toNat_mod]
  exact (Nat.ModEq.gcd_eq (Nat.mod_modEq 1 m.toNat)).trans (Nat.gcd_one_left _)

section

variable {m : UInt64} (hm : m ≠ 0)
include hm

lemma one_mod_lt : (1 % m).toNat < m.toNat := by
  rw [UInt64.toNat_mod]
  exact Nat.mod_lt _ (toNat_pos hm)

lemma always_drawBelow : Draw.Always (fun c : UInt64 => c.toNat < m.toNat) (drawBelow m) :=
  (Draw.always_below 8 (toNat_pos hm)).bind fun c hc =>
    Draw.always_pure (by rwa [toNat_toUInt64 hc])

theorem always_drawIncrement :
    Draw.Always (fun c => ∃ tries, (∀ t ∈ tries, t < m.toNat) ∧
      (Draws.firstCoprime? m tries).map Nat.toUInt64 = some c) (drawIncrement m) := by
  have last : (gcd (1 % m) m == 1) = true := by
    rw [beq_iff_eq, gcd_eq_one_iff]
    exact one_mod_coprime m
  refine (Draw.always_retry (always_drawBelow hm) (one_mod_lt hm) last Draw.attempts).imp
    fun c drawn => ?_
  obtain ⟨tries, small, first⟩ := drawn
  refine ⟨tries.map UInt64.toNat, List.forall_mem_map.mpr small, ?_⟩
  rw [Draws.firstCoprime?_map, first]
  exact congrArg some UInt64.ofNat_toNat

/-- Every cycle that is drawn is made of numbers drawn from their ranges. -/
theorem always_exists_draws :
    Draw.Always (fun x => ∃ d : Draws m, d.cycle? = some x) (draw m) := by
  unfold draw
  rw [max_one hm]
  refine (Draw.always_below 8 (Nat.succ_pos _)).bind fun k hk => ?_
  refine (always_drawIncrement hm).bind fun increment drawn => ?_
  obtain ⟨tries, below, first⟩ := drawn
  obtain ⟨c, hc, rfl⟩ := Option.map_eq_some_iff.mp first
  refine (always_drawBelow hm).bind fun x hx => ?_
  refine Draw.always_pure ⟨⟨k, tries, x.toNat, Nat.le_of_lt_succ hk, below, hx⟩, ?_⟩
  rw [Draws.cycle?, hc, Option.map_some, show x.toNat.toUInt64 = x from UInt64.ofNat_toNat]
  rfl

theorem always_draw : Draw.Always (fun c : FullCycle => c.modulus = m ∧ c.Sound) (draw m) := by
  refine (always_exists_draws hm).imp fun x drawn => ?_
  obtain ⟨d, made⟩ := drawn
  obtain ⟨c, -, -, -, modulus, -⟩ := d.exists_of_cycle? made
  exact ⟨modulus, d.sound made⟩

end

/-- An increment is found on the sources that give one that shares no factor with the modulus, within
the limit. -/
theorem settles_drawIncrement_iff {m : UInt64} {s : Source} :
    Draw.Settles (drawIncrement m) s ↔ ∃ n ≤ Draw.attempts, ∃ c s',
      Draw.Ends (fun c => gcd c m == 1) (drawBelow m) n s c s' ∧
        s'.gaveUp = false := by
  unfold drawIncrement
  exact Draw.settles_retry_iff

lemma persists_drawBelow (m : UInt64) : Draw.Persists (drawBelow m) :=
  (Draw.persists_below 8 _).bind fun _ => Draw.persists_pure _

lemma persists_draw (m : UInt64) : Draw.Persists (draw m) := by
  refine (Draw.persists_below 8 _).bind fun k => ?_
  refine (Draw.persists_retry (persists_drawBelow _)).bind fun increment => ?_
  exact (persists_drawBelow _).bind fun start => Draw.persists_pure _

/-! What can be drawn -/

lemma canGive_drawBelow {m : UInt64} {n : ℕ} (h : n < m.toNat) :
    Draw.CanGive (drawBelow m) n.toUInt64 :=
  (Draw.canGive_below h m.toNat_lt.le).bind (Draw.canGive_pure _)

lemma canGive_drawIncrement {m : UInt64} {c : ℕ} (coprime : c.Coprime m.toNat)
    (below : c < m.toNat) : Draw.CanGive (drawIncrement m) c.toUInt64 := by
  have accepted : (gcd c.toUInt64 m == 1) = true := by
    rwa [beq_iff_eq, gcd_eq_one_iff, toNat_toUInt64 below]
  exact Draw.canGive_retry (canGive_drawBelow below) accepted (1 % m)
    (by decide : 0 < Draw.attempts)

/-- Whatever numbers are in their ranges, the cycle they make can be drawn. -/
theorem Draws.canGive {m : UInt64} {d : Draws m} {x : FullCycle} (h : d.cycle? = some x) :
    Draw.CanGive (draw m) x := by
  obtain ⟨c, first, rfl⟩ := Option.map_eq_some_iff.mp h
  obtain ⟨_, first', coprime, below, -⟩ := d.exists_of_cycle? h
  obtain rfl := Option.some.inj (first.symm.trans first')
  unfold draw
  rw [max_one d.modulus_ne_zero]
  have bound : (m / step m).toNat + 1 ≤ 256 ^ 8 := (m / step m).toNat_lt
  refine (Draw.canGive_below (Nat.lt_succ_of_le d.steps_le) bound).bind ?_
  refine (canGive_drawIncrement coprime below).bind ?_
  exact (canGive_drawBelow d.start_lt).bind (Draw.canGive_pure _)

/-- A cycle can be drawn whose first number is any number below the modulus. -/
theorem exists_canGive_draw {m : UInt64} {y : ℕ} (hy : y < m.toNat) :
    ∃ c : FullCycle, Draw.CanGive (draw m) c ∧ c.next.toNat = y := by
  have pos : 0 < m.toNat := Nat.zero_lt_of_lt hy
  have hm : m ≠ 0 := fun zero => Nat.not_lt_zero _ (zero ▸ hy)
  -- with 1 for the multiplier and the increment, `y` comes after the number one below it
  let d : Draws m := ⟨0, [(1 % m).toNat], (y + (m.toNat - 1)) % m.toNat, Nat.zero_le _,
    List.forall_mem_singleton.mpr (one_mod_lt hm), Nat.mod_lt _ pos⟩
  have first : Draws.firstCoprime? m d.tries = some (1 % m).toNat :=
    Draws.firstCoprime?_cons (one_mod_coprime m) []
  have made : d.cycle? = some ⟨m, d.multiplier.toUInt64, (1 % m).toNat.toUInt64,
      d.start.toUInt64⟩ := by
    rw [Draws.cycle?, first, Option.map_some]
  refine ⟨_, Draws.canGive made, ?_⟩
  obtain ⟨c, first', -, -, modulus, multiplier, increment, state⟩ := d.exists_of_cycle? made
  obtain rfl := Option.some.inj (first.symm.trans first')
  rw [(d.sound made).toNat_next, modulus, multiplier, increment, state]
  have near := Nat.mod_modEq 1 m.toNat
  have after : d.multiplier * d.start + (1 % m).toNat ≡ y [MOD m.toNat] := by
    rw [UInt64.toNat_mod]
    calc d.multiplier * d.start + 1 % m.toNat
      _ ≡ 1 * (y + (m.toNat - 1)) + 1 [MOD m.toNat] := by
        refine (Nat.ModEq.mul ?_ (Nat.mod_modEq _ _)).add near
        rw [Draws.multiplier, Nat.zero_mul]
        exact near
      _ = y + m.toNat := by omega
      _ ≡ y [MOD m.toNat] := Nat.add_modEq_right
  exact Nat.mod_eq_of_modEq after hy

end EdgeScan.FullCycle
