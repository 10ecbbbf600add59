import EdgeScan.Address.Printer
import EdgeScan.Proofs.Address.Block
import EdgeScan.Proofs.Text.Number

/-!
What addresses look like. An IPv4 address is four numbers with dots between them. An IPv6 address is
eight groups with colons between them, or two runs of groups around two colons that stand for zeros, or
an IPv4 address behind `::ffff:`.
-/
namespace EdgeScan

open Text

variable {radix n : ℕ} {sep c : Char} {ns : List ℕ}

/-! Numbers with a separator between them -/

/-- Numbers in a radix, with a separator between them. -/
def listed (radix : ℕ) (sep : Char) (ns : List ℕ) : List Char :=
  [sep].intercalate (ns.map (Nat.toDigits radix))

/-- Numbers in a radix, each behind a separator. -/
def trailed (radix : ℕ) (sep : Char) (ns : List ℕ) : List Char :=
  ns.flatMap fun n => sep :: Nat.toDigits radix n

@[simp] lemma listed_nil : listed radix sep [] = [] := rfl

@[simp] lemma trailed_nil : trailed radix sep [] = [] := rfl

@[simp] lemma trailed_cons : trailed radix sep (n :: ns) =
    sep :: (Nat.toDigits radix n ++ trailed radix sep ns) := rfl

@[simp] lemma listed_cons :
    listed radix sep (n :: ns) = Nat.toDigits radix n ++ trailed radix sep ns := by
  induction ns generalizing n with
  | nil => simp [listed]
  | cons m ns ih =>
    rw [trailed_cons, ← ih]
    simp [listed, List.intercalate_cons_cons]

lemma of_mem_trailed (many : 1 < radix) (base : radix ≤ 16) (h : c ∈ trailed radix sep ns) :
    c = sep ∨ (digit? radix c).isSome = true := by
  obtain ⟨n, -, mem⟩ := List.mem_flatMap.mp h
  exact (List.mem_cons.mp mem).imp_right (isSome_digit?_of_mem many base)

lemma of_mem_listed (many : 1 < radix) (base : radix ≤ 16) (h : c ∈ listed radix sep ns) :
    c = sep ∨ (digit? radix c).isSome = true := by
  cases ns with
  | nil => simp at h
  | cons n ns =>
    rw [listed_cons] at h
    rcases List.mem_append.mp h with digit | later
    · exact .inr (isSome_digit?_of_mem many base digit)
    · exact of_mem_trailed many base later

/-! IPv4 addresses -/

namespace IPv4

lemma map_toNat_octets (ip : IPv4) : ip.octets.map UInt8.toNat =
    [ip.toNat / 2 ^ 24, ip.toNat / 2 ^ 16 % 256, ip.toNat / 2 ^ 8 % 256, ip.toNat % 256] := by
  have := ip.toNat_lt
  simp only [octets, toNat, List.map_cons, List.map_nil, UInt32.toNat_toUInt8,
    UInt32.toNat_shiftRight, Nat.shiftRight_eq_div_pow, UInt32.reduceToNat, Nat.reduceMod]
  simp only [toNat] at this
  congr 1
  omega

theorem ofNat_octets (ip : IPv4) :
    ofNat ((ip.octets.map UInt8.toNat).foldl (fun n o => n * 256 + o) 0) = ip := by
  have value : (ip.octets.map UInt8.toNat).foldl (fun n o => n * 256 + o) 0 = ip.toNat := by
    rw [map_toNat_octets]
    simp only [List.foldl_cons, List.foldl_nil]
    omega
  rw [value, ofNat_toNat]

theorem toList_text (ip : IPv4) : ip.text.toList = listed 10 '.' (ip.octets.map UInt8.toNat) := by
  simp only [text, String.toList_intercalate, List.map_map, listed]
  congr 1
  exact List.map_congr_left fun o _ => toList_toString o.toNat

end IPv4

/-! IPv6 addresses -/

namespace IPv6

variable {ip : IPv6} {i : ℕ} {gs rest : List ℕ} {run current best : ZeroRun}

lemma groups_eq (ip : IPv6) : ip.groups =
    [ip.toNat / 2 ^ 112 % 0x10000, ip.toNat / 2 ^ 96 % 0x10000, ip.toNat / 2 ^ 80 % 0x10000,
      ip.toNat / 2 ^ 64 % 0x10000, ip.toNat / 2 ^ 48 % 0x10000, ip.toNat / 2 ^ 32 % 0x10000,
      ip.toNat / 2 ^ 16 % 0x10000, ip.toNat / 2 ^ 0 % 0x10000] := by
  simp only [← Nat.shiftRight_eq_div_pow]
  rfl

lemma groups_mapped {inner : IPv4} (value : ip.toNat = 0xffff * 2 ^ 32 + inner.toNat) :
    ip.groups =
      List.replicate 5 0 ++ [0xffff, inner.toNat / 0x10000, inner.toNat % 0x10000] := by
  have := inner.toNat_lt
  rw [groups_eq, value]
  simp only [List.replicate, List.cons_append, List.nil_append, List.cons.injEq, and_true]
  omega

lemma length_groups (ip : IPv6) : ip.groups.length = 8 := by simp [groups]

lemma lt_of_mem_groups {g : ℕ} (h : g ∈ ip.groups) : g < 0x10000 := by
  obtain ⟨i, -, rfl⟩ := List.mem_map.mp h
  exact Nat.mod_lt _ (by decide)

/-- The first groups make up the number without its later groups. -/
lemma foldl_groups {n k : ℕ} (bound : n < 2 ^ 128) (few : k ≤ 8) :
    ((List.range k).map fun i => n >>> (16 * (7 - i)) % 0x10000).foldl
      (fun n g => n * 0x10000 + g) 0 = n >>> (16 * (8 - k)) := by
  induction k with
  | zero =>
    rw [Nat.shiftRight_eq_div_pow, Nat.div_eq_of_lt bound]
    rfl
  | succ k ih =>
    have shift : n >>> (16 * (8 - k)) = n >>> (16 * (7 - k)) / 0x10000 := by
      rw [show 16 * (8 - k) = 16 * (7 - k) + 16 by omega, Nat.shiftRight_add,
        Nat.shiftRight_eq_div_pow]
    rw [List.range_succ, List.map_append, List.foldl_append, ih (by omega), shift,
      show 8 - (k + 1) = 7 - k by omega]
    exact Nat.div_add_mod' _ 0x10000

theorem ofGroups_groups (ip : IPv6) : ofGroups ip.groups = ip := by
  rw [← toNat_inj, ofGroups, groups, foldl_groups ip.toNat_lt le_rfl, Nat.sub_self, Nat.mul_zero,
    Nat.shiftRight_zero, toNat_ofNat ip.toNat_lt]

/-- Whether groups are zero along a run. -/
def ZeroRun.IsIn (run : ZeroRun) (gs : List ℕ) : Prop :=
  ∀ j < run.length, gs[run.start + j]? = some 0

lemma ZeroRun.isIn_nil (gs : List ℕ) : ZeroRun.IsIn ⟨0, 0⟩ gs := fun _ below => by simp at below

lemma ZeroRun.IsIn.either (h : run.IsIn gs) (h' : best.IsIn gs) {p : Prop} [Decidable p] :
    (if p then run else best).IsIn gs := by
  split
  · exact h
  · exact h'

lemma ZeroRun.IsIn.extend (h : current.IsIn gs) (here : gs[i]? = some 0)
    (ends : current.length = 0 ∨ current.start + current.length = i) :
    ZeroRun.IsIn ⟨if current.length = 0 then i else current.start, current.length + 1⟩ gs := by
  intro j below
  dsimp only at below ⊢
  split
  · rename_i fresh
    obtain rfl : j = 0 := by omega
    exact here
  · by_cases last : j = current.length
    · have place : current.start + j = i := by omega
      rw [place, here]
    · exact h j (by omega)

theorem isIn_longestZeroRun (left : gs.drop i = rest) (hcurrent : current.IsIn gs)
    (ends : current.length = 0 ∨ current.start + current.length = i) (hbest : best.IsIn gs) :
    (longestZeroRun i current best rest).IsIn gs := by
  induction rest generalizing i current best with
  | nil => exact hbest
  | cons g rest ih =>
    have here : gs[i]? = some g := by
      rw [← List.head?_drop, left, List.head?_cons]
    have later : gs.drop (i + 1) = rest := by
      rw [← List.tail_drop, left, List.tail_cons]
    unfold longestZeroRun
    by_cases zero : g = 0
    · subst zero
      rw [if_pos rfl]
      have longer := hcurrent.extend here ends
      have ends' : (if current.length = 0 then i else current.start) + (current.length + 1) =
          i + 1 := by
        split <;> omega
      exact ih later longer (.inr ends') (longer.either hbest)
    · rw [if_neg zero]
      exact ih later (ZeroRun.isIn_nil gs) (.inl rfl) hbest

/-- Groups are those in front of a run of zeros, the zeros, and those behind it. -/
lemma ZeroRun.IsIn.split (h : run.IsIn gs) :
    gs = gs.take run.start ++ List.replicate run.length 0 ++ gs.drop (run.start + run.length) := by
  have zeros : (gs.drop run.start).take run.length = List.replicate run.length 0 := by
    refine List.ext_getElem? fun j => ?_
    rw [List.getElem?_take, List.getElem?_drop, List.getElem?_replicate]
    split
    · exact h j ‹_›
    · rfl
  rw [← zeros, List.append_assoc, ← List.drop_drop, List.take_append_drop, List.take_append_drop]

/-- The ways in which an address is written. -/
inductive Written (ip : IPv6) : List Char → Prop
  | mapped {inner : IPv4} (value : ip.toNat = 0xffff * 2 ^ 32 + inner.toNat) :
      Written ip (':' :: ':' :: (Nat.toDigits 16 0xffff ++ ':' :: inner.text.toList))
  | gap {front back : List ℕ} {zeros : ℕ} (many : 1 < zeros)
      (groups : ip.groups = front ++ List.replicate zeros 0 ++ back) :
      Written ip (listed 16 ':' front ++ ':' :: ':' :: listed 16 ':' back)
  | full : Written ip (listed 16 ':' ip.groups)

lemma toList_groupsText (gs : List ℕ) : (groupsText gs).toList = listed 16 ':' gs := by
  simp only [groupsText, String.toList_intercalate, List.map_map, listed]
  congr 1
  exact List.map_congr_left fun g _ => String.toList_ofList

theorem written_text (ip : IPv6) : ip.Written ip.text.toList := by
  unfold text
  cases mapped : ip.mappedIPv4? with
  | some inner =>
    unfold mappedIPv4? at mapped
    split at mapped
    · rename_i high
      have low : inner.toNat = ip.toNat % 0x100000000 := by
        rw [← Option.some.inj mapped, IPv4.toNat_ofNat (by omega)]
      rw [String.toList_append]
      exact .mapped (by omega)
    · cases mapped
  | none =>
    dsimp only
    split
    · rename_i many
      have run := isIn_longestZeroRun (List.drop_zero (l := ip.groups)) (ZeroRun.isIn_nil _)
        (.inl rfl) (ZeroRun.isIn_nil _)
      rw [String.toList_append, String.toList_append, toList_groupsText, toList_groupsText,
        List.append_assoc]
      exact .gap many run.split
    · rw [toList_groupsText]
      exact .full

end IPv6

/-! Characters -/

/-- Whether addresses are written with a character. -/
def isAddressChar (c : Char) : Bool := (digit? 16 c).isSome || c == '.' || c == ':'

lemma IPv4.isAddressChar_of_mem {ip : IPv4} (h : c ∈ ip.text.toList) : isAddressChar c = true := by
  rw [toList_text] at h
  rcases of_mem_listed (by decide) (by decide) h with rfl | digit
  · rfl
  · simp [isAddressChar, isSome_digit?_sixteen digit]

lemma isAddressChar_of_mem_listed (h : c ∈ listed 16 ':' ns) : isAddressChar c = true := by
  rcases of_mem_listed (by decide) le_rfl h with rfl | digit
  · rfl
  · simp [isAddressChar, digit]

lemma IPv6.Written.isAddressChar_of_mem {ip : IPv6} {s : List Char} (h : ip.Written s) (mem : c ∈ s) :
    isAddressChar c = true := by
  cases h with
  | mapped value =>
    simp only [List.mem_cons, List.mem_append] at mem
    rcases mem with rfl | rfl | digit | rfl | inner
    · rfl
    · rfl
    · simp [isAddressChar, isSome_digit?_of_mem (by decide) le_rfl digit]
    · rfl
    · exact IPv4.isAddressChar_of_mem inner
  | gap many groups =>
    simp only [List.mem_append, List.mem_cons] at mem
    rcases mem with front | rfl | rfl | back
    · exact isAddressChar_of_mem_listed front
    · rfl
    · rfl
    · exact isAddressChar_of_mem_listed back
  | full => exact isAddressChar_of_mem_listed mem

lemma IPv6.isAddressChar_of_mem {ip : IPv6} (h : c ∈ ip.text.toList) : isAddressChar c = true :=
  ip.written_text.isAddressChar_of_mem h

theorem Address.isAddressChar_of_mem {a : Address} (h : c ∈ a.text.toList) :
    isAddressChar c = true := by
  cases a with
  | v4 ip => exact IPv4.isAddressChar_of_mem h
  | v6 ip => exact IPv6.isAddressChar_of_mem h

end EdgeScan
