import EdgeScan.Proofs.Address.Parser

/-!
Whole texts. Addresses and endpoints are read back from what they are written as, and an address that
stands alone, with or without brackets, is no endpoint.
-/
namespace EdgeScan

open Text

variable {s : List Char}

/-! Addresses -/

lemma dot_not_mem_listed (gs : List ℕ) : '.' ∉ listed 16 ':' gs := fun mem => by
  rcases of_mem_listed (by decide) le_rfl mem with colon | digit
  · cases colon
  · simp [digit?] at digit

/-- No IPv6 address starts like an IPv4 address. -/
theorem IPv6.Written.readIPv4?_eq_none {ip : IPv6} (h : ip.Written s) (style : AddressNotation) :
    style.readIPv4? s = none := by
  apply style.readIPv4?_eq_none
  have nothing := AddressNotation.EndsGroups.nil.endsGroup
  cases h with
  | mapped value =>
    exact AddressNotation.head?_dropWhile_group AddressNotation.endsGroup_colon List.not_mem_nil
  | gap many groups =>
    rw [← List.append_nil (_ ++ _)]
    refine AddressNotation.head?_dropWhile_group nothing ?_
    simp [dot_not_mem_listed]
  | full =>
    rw [← List.append_nil (listed _ _ _)]
    exact AddressNotation.head?_dropWhile_group nothing (dot_not_mem_listed _)

lemma IPv4.readIPv4?_text (ip : IPv4) (style : AddressNotation) :
    style.readIPv4? ip.text.toList = some (ip, []) := by
  simpa using style.readIPv4?_text ip .nil

theorem Address.parse?_text (a : Address) : parse? a.text.toList = some a := by
  cases a with
  | v4 ip =>
    rw [parse?, text, ip.readIPv4?_text]
    rfl
  | v6 ip =>
    have read : AddressNotation.strict.readIPv6? ip.text.toList = some (ip, []) := by
      simpa using AddressNotation.strict.readIPv6?_text ip .nil
    rw [parse?, text, ip.written_text.readIPv4?_eq_none, IPv6.parse?, read]
    rfl

/-! Endpoints -/

namespace Endpoint

lemma toList_text_v4 (ip : IPv4) (port : UInt16) :
    (v4 ip port).text.toList = ip.text.toList ++ ':' :: Nat.toDigits 10 port.toNat := by
  simp [text, toString]

/-- What an endpoint says about its scope. -/
def scopeText (scope : UInt32) : List Char :=
  if scope = 0 then [] else '%' :: Nat.toDigits 10 scope.toNat

lemma toList_text_v6 (ip : IPv6) (port : UInt16) (scope : UInt32) :
    (v6 ip port scope).text.toList = '[' :: (ip.text.toList ++
      (scopeText scope ++ ']' :: ':' :: Nat.toDigits 10 port.toNat)) := by
  simp only [text, scopeText]
  split <;> simp [toString]

lemma readPort?_toDigits (port : UInt16) :
    readPort? (':' :: Nat.toDigits 10 port.toNat) = some (port, []) := by
  have number : NumberRule.read? ⟨10, none, true, 0x10000⟩ (Nat.toDigits 10 port.toNat ++ []) =
      some (port.toNat, []) :=
    NumberRule.read?_toDigits (by decide) (by decide) nofun port.toNat_lt .nil
  rw [List.append_nil] at number
  simp [readPort?, expect?_cons_self, number]

lemma readScope_text (scope : UInt32) (s : List Char) :
    readScope (scopeText scope ++ ']' :: s) = (scope, ']' :: s) := by
  unfold scopeText
  split
  · rename_i none
    subst none
    rfl
  · have stop : EndsNumber 10 (']' :: s) := .cons rfl
    have number : NumberRule.read? ⟨10, none, true, 0x100000000⟩
        (Nat.toDigits 10 scope.toNat ++ ']' :: s) = some (scope.toNat, ']' :: s) :=
      NumberRule.read?_toDigits (by decide) (by decide) nofun scope.toNat_lt stop
    simp [readScope, expect?_cons_self, number]

lemma readV4?_bracket (s : List Char) : readV4? ('[' :: s) = none := by
  have none : AddressNotation.strict.readIPv4? ('[' :: s) = none :=
    AddressNotation.strict.readIPv4?_eq_none (by simp [digit?])
  simp [readV4?, none]

/-- An endpoint is read as it is written. -/
theorem parse?_text (e : Endpoint) : parse? e.text.toList = some e := by
  cases e with
  | v4 ip port =>
    have stop : EndsNumber 10 (':' :: Nat.toDigits 10 port.toNat) := .cons rfl
    have read := AddressNotation.strict.readIPv4?_text ip stop
    simp [parse?, readV4?, toList_text_v4, read, readPort?_toDigits]
  | v6 ip port scope =>
    have stop : AddressNotation.EndsGroups
        (scopeText scope ++ ']' :: ':' :: Nat.toDigits 10 port.toNat) := by
      unfold scopeText
      split
      · exact .bracket
      · exact .percent
    have read := AddressNotation.strict.readIPv6?_text ip stop
    simp [parse?, readV4?_bracket, readV6?, wholeText, toList_text_v6, expect?_cons_self, read,
      readScope_text, readPort?_toDigits]

lemma expect?_bracket_eq_none (h : ∀ c ∈ s, isAddressChar c = true) : expect? '[' s = none := by
  apply expect?_eq_none
  intro first
  have char := h '[' (List.mem_of_mem_head? first)
  cases char

/-- An address alone is no endpoint. -/
theorem parse?_address (a : Address) : parse? a.text.toList = none := by
  have chars : ∀ c ∈ a.text.toList, isAddressChar c = true := fun _ => a.isAddressChar_of_mem
  have bare := expect?_bracket_eq_none chars
  have first : readV4? a.text.toList = none := by
    cases a with
    | v4 ip => simp [Address.text, readV4?, ip.readIPv4?_text, readPort?, expect?]
    | v6 ip => simp [Address.text, readV4?, ip.written_text.readIPv4?_eq_none]
  simp [parse?, first, readV6?, bare, wholeText]

theorem parse?_bracketed (ip : IPv6) : parse? ('[' :: (ip.text.toList ++ [']'])) = none := by
  have read := AddressNotation.strict.readIPv6?_text ip (.bracket (s := []))
  have scope : readScope [']'] = (0, [']']) := rfl
  simp [parse?, readV4?_bracket, readV6?, wholeText, read, scope, readPort?, expect?]

end Endpoint

end EdgeScan
