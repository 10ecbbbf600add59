import EdgeScan.Address.Parser
import EdgeScan.Proofs.Address.Printer

/-!
Addresses and endpoints are read as they are written. What has been read is told from what follows by
the first character behind it: no digit and no dot behind an IPv4 address, and behind the groups of an
IPv6 address nothing, a bracket, a percent sign or two colons.
-/
namespace EdgeScan

open Text

variable {n g : ℕ} {c sep : Char} {s tail rest : List Char} {gs : List ℕ} {isFirst : Bool}

lemma expect?_cons_self (c : Char) (s : List Char) : expect? c (c :: s) = some s := if_pos rfl

lemma expect?_eq_none (h : s.head? ≠ some c) : expect? c s = none := by
  cases s with
  | nil => rfl
  | cons d s => exact if_neg fun same => h (congrArg some same)

lemma endsNumber_trailed {radix : ℕ} {ns : List ℕ} (mark : digit? radix sep = none)
    (stop : EndsNumber radix rest) : EndsNumber radix (trailed radix sep ns ++ rest) := by
  cases ns with
  | nil => exact stop
  | cons n ns => exact .cons mark

namespace AddressNotation

variable (style : AddressNotation)

/-! IPv4 addresses -/

lemma readOctet?_toDigits {o : ℕ} (small : o < 256) (stop : EndsNumber 10 rest) :
    NumberRule.read? ⟨10, some 3, style.octetZeros, 256⟩ (Nat.toDigits 10 o ++ rest) =
      some (o, rest) := by
  refine NumberRule.read?_toDigits (by simp) (by simp) ?_ small stop
  simp only [Option.mem_some_iff, forall_eq']
  exact (Nat.length_toDigits_le_iff (by decide) (by decide)).mpr (small.trans (by decide))

lemma readOctets?_trailed {octets : List ℕ} (small : ∀ o ∈ octets, o < 256)
    (stop : EndsNumber 10 rest) :
    style.readOctets? octets.length false (trailed 10 '.' octets ++ rest) = some (octets, rest) := by
  induction octets with
  | nil => rfl
  | cons o octets ih =>
    obtain ⟨first, others⟩ := List.forall_mem_cons.mp small
    have behind : EndsNumber 10 (trailed 10 '.' octets ++ rest) := endsNumber_trailed rfl stop
    simp [readOctets?, expect?_cons_self, style.readOctet?_toDigits first behind, ih others]

theorem readIPv4?_text (ip : IPv4) (stop : EndsNumber 10 rest) :
    style.readIPv4? (ip.text.toList ++ rest) = some (ip, rest) := by
  have value := ip.ofNat_octets
  have small : ∀ o ∈ ip.octets.map UInt8.toNat, o < 256 := by
    simp only [List.forall_mem_map]
    exact fun o _ => o.toNat_lt
  have length : (ip.octets.map UInt8.toNat).length = 4 := rfl
  rw [IPv4.toList_text]
  cases all : ip.octets.map UInt8.toNat with
  | nil => simp [all] at length
  | cons o others =>
    rw [all] at value small length
    obtain ⟨first, small⟩ := List.forall_mem_cons.mp small
    have three : others.length = 3 := Nat.succ.inj length
    have behind : EndsNumber 10 (trailed 10 '.' others ++ rest) := endsNumber_trailed rfl stop
    have later := style.readOctets?_trailed small stop
    rw [three] at later
    rw [listed_cons, List.append_assoc, readIPv4?, readOctets?]
    simpa [style.readOctet?_toDigits first behind, later] using value

lemma readIPv4?_eq_none (h : (s.dropWhile fun c => (digit? 10 c).isSome).head? ≠ some '.') :
    style.readIPv4? s = none := by
  simp only [readIPv4?, readOctets?, if_true, Option.bind_eq_bind, Option.bind_some]
  cases read : NumberRule.read? ⟨10, some 3, style.octetZeros, 256⟩ s with
  | none => rfl
  | some first =>
    rw [← NumberRule.rest_of_read? read] at h
    simp [expect?_eq_none h]

/-! Groups of IPv6 addresses -/

/-- Whether the groups of an IPv6 address can end in front of a text. -/
inductive EndsGroups : List Char → Prop
  | nil : EndsGroups []
  | bracket {s : List Char} : EndsGroups (']' :: s)
  | percent {s : List Char} : EndsGroups ('%' :: s)
  | gap {s : List Char} : EndsGroups (':' :: ':' :: s)

/-- Whether a group can end in front of a text. -/
structure EndsGroup (rest : List Char) : Prop where
  number : EndsNumber 16 rest
  octet : EndsNumber 10 rest
  dot : rest.head? ≠ some '.'

lemma endsGroup_cons (hex : digit? 16 c = none) (decimal : digit? 10 c = none) (dot : c ≠ '.') :
    EndsGroup (c :: s) where
  number := .cons hex
  octet := .cons decimal
  dot same := dot (Option.some.inj same)

lemma endsGroup_colon : EndsGroup (':' :: s) := endsGroup_cons rfl rfl (by decide)

lemma EndsGroups.endsGroup (h : EndsGroups rest) : EndsGroup rest := by
  cases h with
  | nil => exact ⟨.nil, .nil, nofun⟩
  | bracket => exact endsGroup_cons rfl rfl (by decide)
  | percent => exact endsGroup_cons rfl rfl (by decide)
  | gap => exact endsGroup_colon

lemma endsGroup_trailed (h : EndsGroup rest) : EndsGroup (trailed 16 ':' gs ++ rest) := by
  cases gs with
  | nil => exact h
  | cons g gs => exact endsGroup_colon

lemma head?_dropWhile_group (h : EndsGroup tail) (dot : '.' ∉ s) :
    ((s ++ tail).dropWhile fun c => (digit? 10 c).isSome).head? ≠ some '.' := by
  induction s with
  | nil =>
    obtain ⟨-, dropped⟩ := takeWhile_dropWhile_digits (s := []) nofun h.octet.isSome_eq_false
    rw [dropped]
    exact h.dot
  | cons c s ih =>
    obtain ⟨other, later⟩ := not_or.mp (List.mem_cons.not.mp dot)
    rw [List.cons_append, List.dropWhile_cons]
    split
    · exact ih later
    · simpa using Ne.symm other

lemma dot_not_mem_toDigits (g : ℕ) : '.' ∉ Nat.toDigits 16 g := fun mem => by
  have digit := isSome_digit?_of_mem (by decide) le_rfl mem
  simp [digit?] at digit

variable {style}

lemma readGroups_of_endsGroup (enter : (if isFirst then some s else expect? ':' s) = some tail)
    (h : EndsGroup tail) : style.readGroups n isFirst s = ⟨[], false, s⟩ := by
  cases n with
  | zero => rfl
  | succ n =>
    have inner : style.readIPv4? tail = none :=
      style.readIPv4?_eq_none (by simpa using head?_dropWhile_group (s := []) h nofun)
    have number : NumberRule.read? ⟨16, some 4, true, 0x10000⟩ tail = none :=
      NumberRule.read?_of_endsNumber h.number
    simp only [readGroups, enter, inner, number, ite_self]

lemma readGroups_of_endsGroups (h : EndsGroups rest) (n : ℕ) (isFirst : Bool) :
    style.readGroups n isFirst rest = ⟨[], false, rest⟩ := by
  cases isFirst with
  | true => exact readGroups_of_endsGroup rfl h.endsGroup
  | false =>
    cases n with
    | zero => rfl
    | succ n =>
      cases h with
      | gap => exact readGroups_of_endsGroup rfl endsGroup_colon
      | nil => rfl
      | bracket => rfl
      | percent => rfl

lemma readGroups_toDigits
    (enter : (if isFirst then some s else expect? ':' s) = some (Nat.toDigits 16 g ++ tail))
    (small : g < 0x10000) (h : EndsGroup tail) :
    style.readGroups (n + 1) isFirst s = ⟨g :: (style.readGroups n false tail).groups,
      (style.readGroups n false tail).endsInIPv4, (style.readGroups n false tail).rest⟩ := by
  have inner : style.readIPv4? (Nat.toDigits 16 g ++ tail) = none :=
    style.readIPv4?_eq_none (head?_dropWhile_group h (dot_not_mem_toDigits g))
  have number : NumberRule.read? ⟨16, some 4, true, 0x10000⟩ (Nat.toDigits 16 g ++ tail) =
      some (g, tail) := by
    refine NumberRule.read?_toDigits (by decide) le_rfl ?_ small h.number
    simp only [Option.mem_some_iff, forall_eq']
    exact (Nat.length_toDigits_le_iff (by decide) (by decide)).mpr small
  simp only [readGroups, enter, inner, number, ite_self]

lemma readGroups_colon (small : g < 0x10000) (h : EndsGroup tail) :
    style.readGroups (n + 1) false (':' :: (Nat.toDigits 16 g ++ tail)) =
      ⟨g :: (style.readGroups n false tail).groups,
        (style.readGroups n false tail).endsInIPv4, (style.readGroups n false tail).rest⟩ :=
  readGroups_toDigits rfl small h

lemma readGroups_trailed (few : gs.length ≤ n) (small : ∀ g ∈ gs, g < 0x10000)
    (h : EndsGroups rest) :
    style.readGroups n false (trailed 16 ':' gs ++ rest) = ⟨gs, false, rest⟩ := by
  induction gs generalizing n with
  | nil => exact readGroups_of_endsGroups h n false
  | cons g gs ih =>
    obtain ⟨first, others⟩ := List.forall_mem_cons.mp small
    obtain ⟨n, rfl⟩ := Nat.exists_eq_add_of_le' (Nat.one_le_of_lt few)
    have later := ih (Nat.le_of_succ_le_succ few) others
    rw [trailed_cons, List.cons_append, List.append_assoc,
      readGroups_colon first (endsGroup_trailed h.endsGroup), later]

theorem readGroups_listed (few : gs.length ≤ n) (small : ∀ g ∈ gs, g < 0x10000)
    (h : EndsGroups rest) :
    style.readGroups n true (listed 16 ':' gs ++ rest) = ⟨gs, false, rest⟩ := by
  cases gs with
  | nil => exact readGroups_of_endsGroups h n true
  | cons g gs =>
    obtain ⟨first, others⟩ := List.forall_mem_cons.mp small
    obtain ⟨n, rfl⟩ := Nat.exists_eq_add_of_le' (Nat.one_le_of_lt few)
    have later : style.readGroups n false (trailed 16 ':' gs ++ rest) = ⟨gs, false, rest⟩ :=
      readGroups_trailed (Nat.le_of_succ_le_succ few) others h
    rw [listed_cons, List.append_assoc,
      readGroups_toDigits rfl first (endsGroup_trailed h.endsGroup), later]

lemma readGroups_ipv4 {inner : IPv4} (stop : EndsNumber 10 rest) :
    style.readGroups (n + 2) false (':' :: (inner.text.toList ++ rest)) =
      ⟨[inner.toNat / 0x10000, inner.toNat % 0x10000], true, rest⟩ := by
  simp [readGroups, expect?_cons_self, style.readIPv4?_text inner stop]

/-! IPv6 addresses -/

variable (style)

lemma readIPv6?_gap {front : List ℕ} (back : GroupRun)
    (head : style.readGroups 8 true s = ⟨front, false, ':' :: ':' :: tail⟩)
    (few : front.length + back.groups.length ≤ 6)
    (after : ∀ room, back.groups.length ≤ room → style.readGroups room true tail = back) :
    style.readIPv6? s = some (IPv6.ofGroups (front ++
      List.replicate (8 - front.length - back.groups.length) 0 ++ back.groups), back.rest) := by
  have room : style.readGroups
      (if style.emptyGap then 8 - front.length else 7 - front.length) true tail = back := by
    apply after
    split <;> omega
  have short : front.length ≠ 8 := by omega
  simp [readIPv6?, head, short, expect?_cons_self, room]

/-- Where an IPv4 address is written inside, it stands for the last two groups. -/
lemma readIPv6?_mapped (inner : IPv4) (h : EndsGroups rest) :
    style.readIPv6?
        (':' :: ':' :: (Nat.toDigits 16 0xffff ++ ':' :: inner.text.toList) ++ rest) =
      some (IPv6.ofGroups (List.replicate 5 0 ++
        [0xffff, inner.toNat / 0x10000, inner.toNat % 0x10000]), rest) := by
  let back : GroupRun := ⟨[0xffff, inner.toNat / 0x10000, inner.toNat % 0x10000], true, rest⟩
  let behind := Nat.toDigits 16 0xffff ++ ':' :: (inner.text.toList ++ rest)
  have head : style.readGroups 8 true (':' :: ':' :: behind) =
      ⟨[], false, ':' :: ':' :: behind⟩ := readGroups_of_endsGroups .gap 8 true
  have after (room : ℕ) (enough : 3 ≤ room) : style.readGroups room true behind = back := by
    obtain ⟨n, rfl⟩ := Nat.exists_eq_add_of_le' enough
    rw [readGroups_toDigits rfl (by decide) endsGroup_colon, readGroups_ipv4 h.endsGroup.octet]
  have read := style.readIPv6?_gap back head (by simp [back]) after
  simpa [back, behind] using read

/-- Two runs of groups around two colons are read with zeros between them. -/
lemma readIPv6?_between {front back : List ℕ} (few : front.length + back.length ≤ 6)
    (hfront : ∀ g ∈ front, g < 0x10000) (hback : ∀ g ∈ back, g < 0x10000) (h : EndsGroups rest) :
    style.readIPv6? (listed 16 ':' front ++ ':' :: ':' :: listed 16 ':' back ++ rest) =
      some (IPv6.ofGroups
        (front ++ List.replicate (8 - front.length - back.length) 0 ++ back), rest) := by
  have head : style.readGroups 8 true
      (listed 16 ':' front ++ ':' :: ':' :: (listed 16 ':' back ++ rest)) =
        ⟨front, false, ':' :: ':' :: (listed 16 ':' back ++ rest)⟩ :=
    readGroups_listed (by omega) hfront .gap
  have read := style.readIPv6?_gap ⟨back, false, rest⟩ head few
    fun room enough => readGroups_listed enough hback h
  simpa using read

lemma readIPv6?_full (count : gs.length = 8) (small : ∀ g ∈ gs, g < 0x10000)
    (h : EndsGroups rest) :
    style.readIPv6? (listed 16 ':' gs ++ rest) = some (IPv6.ofGroups gs, rest) := by
  have head : style.readGroups 8 true (listed 16 ':' gs ++ rest) = ⟨gs, false, rest⟩ :=
    readGroups_listed count.le small h
  simp [readIPv6?, head, count]

/-- An IPv6 address is read in each of the ways in which it is written. -/
theorem readIPv6?_of_written {ip : IPv6} (written : ip.Written s) (h : EndsGroups rest) :
    style.readIPv6? (s ++ rest) = some (ip, rest) := by
  have count := ip.length_groups
  have small : ∀ g ∈ ip.groups, g < 0x10000 := fun g => IPv6.lt_of_mem_groups
  cases written with
  | @mapped inner value =>
    rw [style.readIPv6?_mapped inner h, ← IPv6.groups_mapped value, ip.ofGroups_groups]
  | @gap front back zeros many groups =>
    have total : front.length + zeros + back.length = 8 := by
      rw [← count, groups, List.length_append, List.length_append, List.length_replicate]
    have left : 8 - front.length - back.length = zeros := by omega
    rw [style.readIPv6?_between (by omega) (fun g mem => small g (by simp [groups, mem]))
      (fun g mem => small g (by simp [groups, mem])) h, left, ← groups, ip.ofGroups_groups]
  | full => rw [style.readIPv6?_full count small h, ip.ofGroups_groups]

theorem readIPv6?_text (ip : IPv6) (h : EndsGroups rest) :
    style.readIPv6? (ip.text.toList ++ rest) = some (ip, rest) :=
  style.readIPv6?_of_written ip.written_text h

end AddressNotation

end EdgeScan
