import EdgeScan.Proofs.Address.RoundTrip
import EdgeScan.Proofs.Text.Split
import EdgeScan.Target.Endpoints

/-!
Lists of endpoints. What stands between two commas is read by itself, so lists are read apart wherever
there is a comma. A list that is written from endpoints and addresses gives one endpoint for each of
them, in their order, whatever blanks stand around them and however many places are left blank.
-/
namespace EdgeScan

open Text

namespace Endpoint

/-- What can be written in a list and read without a resolver. -/
inductive Entry
  | endpoint (e : Endpoint)
  | address (a : Address)
  | bracketed (ip : IPv6)

namespace Entry

def text : Entry → List Char
  | endpoint e => e.text.toList
  | address a => a.text.toList
  | bracketed ip => '[' :: (ip.text.toList ++ [']'])

/-- The endpoint that is meant: an address stands for the one at the default port, or at 2408 if the
default port is 0. -/
def meant (defaultPort : UInt16) : Entry → Endpoint
  | endpoint e => e
  | address a => new a (if defaultPort = 0 then 2408 else defaultPort)
  | bracketed ip => new (.v6 ip) (if defaultPort = 0 then 2408 else defaultPort)

end Entry

/-- The ways to write a list of entries: a place is blank, or has an entry with blanks around it, and
there are commas between the places. -/
inductive Listing : List Char → List Entry → Prop
  | blank {s : List Char} (blank : AllBlank s) : Listing s []
  | entry {l r : List Char} (left : AllBlank l) (entry : Entry) (right : AllBlank r) :
      Listing (l ++ entry.text ++ r) [entry]
  | comma {s t : List Char} {es fs : List Entry} (first : Listing s es) (later : Listing t fs) :
      Listing (s ++ ',' :: t) (es ++ fs)

variable {c : Char} {s : List Char} {entry : Entry} {es : List Entry}

/-! Characters of entries -/

/-- Whether entries are written with a character. -/
def isEntryChar (c : Char) : Bool := isAddressChar c || isBracket c || c == '%'

lemma isEntryChar_of_isAddressChar (h : isAddressChar c = true) : isEntryChar c = true := by
  simp [isEntryChar, h]

lemma isEntryChar_of_mem_digits {n : ℕ} (h : c ∈ Nat.toDigits 10 n) : isEntryChar c = true := by
  have digit := isSome_digit?_of_mem (by decide) (by decide) h
  simp [isEntryChar, isAddressChar, isSome_digit?_sixteen digit]

lemma isBlank_of_isEntryChar (h : isEntryChar c = true) : isBlank c = false := by
  by_contra blank
  rw [Bool.not_eq_false] at blank
  simp only [isEntryChar, isAddressChar, isBracket, digit?_of_isBlank blank, Option.isSome_none,
    Bool.false_or, Bool.or_eq_true, beq_iff_eq] at h
  rcases h with ((rfl | rfl) | rfl | rfl) | rfl <;> cases blank

lemma isEntryChar_of_mem_scopeText {scope : UInt32} (h : c ∈ scopeText scope) :
    isEntryChar c = true := by
  unfold scopeText at h
  split at h
  · cases h
  · rcases List.mem_cons.mp h with rfl | digit
    · rfl
    · exact isEntryChar_of_mem_digits digit

lemma isEntryChar_of_mem {e : Endpoint} (h : c ∈ e.text.toList) : isEntryChar c = true := by
  cases e with
  | v4 ip port =>
    rw [toList_text_v4, List.mem_append, List.mem_cons] at h
    rcases h with inner | rfl | digit
    · exact isEntryChar_of_isAddressChar (IPv4.isAddressChar_of_mem inner)
    · rfl
    · exact isEntryChar_of_mem_digits digit
  | v6 ip port scope =>
    rw [toList_text_v6] at h
    simp only [List.mem_cons, List.mem_append] at h
    rcases h with rfl | inner | scope | rfl | rfl | digit
    · rfl
    · exact isEntryChar_of_isAddressChar (IPv6.isAddressChar_of_mem inner)
    · exact isEntryChar_of_mem_scopeText scope
    · rfl
    · rfl
    · exact isEntryChar_of_mem_digits digit

lemma Entry.isEntryChar_of_mem (h : c ∈ entry.text) : isEntryChar c = true := by
  cases entry with
  | endpoint e => exact Endpoint.isEntryChar_of_mem h
  | address a => exact isEntryChar_of_isAddressChar (Address.isAddressChar_of_mem h)
  | bracketed ip =>
    simp only [text, List.mem_cons, List.mem_append, List.not_mem_nil, or_false] at h
    rcases h with rfl | inner | rfl
    · rfl
    · exact isEntryChar_of_isAddressChar (IPv6.isAddressChar_of_mem inner)
    · rfl

lemma Entry.comma_not_mem (entry : Entry) : ',' ∉ entry.text := fun mem => by
  have char := isEntryChar_of_mem mem
  cases char

lemma Entry.text_ne_nil (entry : Entry) : entry.text ≠ [] := fun none => by
  cases entry with
  | endpoint e =>
    have read := parse?_text e
    change e.text.toList = [] at none
    rw [none] at read
    cases read
  | address a =>
    have read := Address.parse?_text a
    change a.text.toList = [] at none
    rw [none] at read
    cases read
  | bracketed ip => cases none

/-! Reading an entry -/

lemma isBracket_of_mem {a : Address} (h : c ∈ a.text.toList) : isBracket c = false := by
  have char := a.isAddressChar_of_mem h
  by_contra bracket
  simp only [Bool.not_eq_false, isBracket, Bool.or_eq_true, beq_iff_eq] at bracket
  rcases bracket with rfl | rfl <;> cases char

lemma strip_brackets (a : Address) {l r : List Char} (hl : ∀ c ∈ l, isBracket c = true)
    (hr : ∀ c ∈ r, isBracket c = true) :
    Address.parse? (strip isBracket (l ++ a.text.toList ++ r)) = some a := by
  rw [strip_between hl hr fun _ => isBracket_of_mem, a.parse?_text]

/-- An entry is read as the endpoint that is meant, whatever names the resolver knows. -/
theorem ofEntry_text (resolver : Resolver) (port : UInt16) (families : Families) (entry : Entry) :
    ofEntry resolver port families entry.text = .ok [entry.meant port] := by
  cases entry with
  | endpoint e => simp only [ofEntry, Entry.text, parse?_text, Entry.meant]
  | address a =>
    have bare : Address.parse? (strip isBracket a.text.toList) = some a := by
      simpa using strip_brackets a (l := []) (r := []) nofun nofun
    simp only [ofEntry, Entry.text, parse?_address, bare, Entry.meant, defaultHandshakePort]
  | bracketed ip =>
    have inner : Address.parse? (strip isBracket ('[' :: (ip.text.toList ++ [']']))) =
        some (.v6 ip) :=
      strip_brackets (.v6 ip) (l := ['[']) (r := [']']) (by simp [isBracket]) (by simp [isBracket])
    simp only [ofEntry, Entry.text, parse?_bracketed, inner, Entry.meant, defaultHandshakePort]

/-! Reading a list -/

/-- The entries of a list are those in front of a comma and those behind it. -/
theorem entries_comma (s t : List Char) : entries (s ++ ',' :: t) = entries s ++ entries t := by
  simp only [entries, pieces_append, List.map_append, List.filter_append]

lemma entries_of_not_mem (single : ',' ∉ s) :
    entries s = [trim s].filter fun entry => !entry.isEmpty := by
  rw [entries, pieces_of_not_mem single, List.map_singleton]

lemma entries_blank (h : AllBlank s) : entries s = [] := by
  have single : ',' ∉ s := h.not_mem rfl
  rw [entries_of_not_mem single, trim_of_allBlank h]
  rfl

lemma entries_entry {l r : List Char} (left : AllBlank l) (right : AllBlank r) :
    entries (l ++ entry.text ++ r) = [entry.text] := by
  have single : ',' ∉ l ++ entry.text ++ r := by
    simp only [List.mem_append, not_or]
    exact ⟨⟨left.not_mem rfl, entry.comma_not_mem⟩, right.not_mem rfl⟩
  have trimmed : trim (l ++ entry.text ++ r) = entry.text :=
    strip_between left right fun _ mem => isBlank_of_isEntryChar (Entry.isEntryChar_of_mem mem)
  rw [entries_of_not_mem single, trimmed]
  simp [entry.text_ne_nil]

/-- The entries that a list was written from are found in it. -/
theorem Listing.entries_eq (h : Listing s es) : entries s = es.map Entry.text := by
  induction h with
  | blank blank => exact entries_blank blank
  | entry left entry right => exact entries_entry left right
  | comma _ _ first later => rw [entries_comma, first, later, List.map_append]

/-- A list of endpoints and addresses is read as it was written: in their order, each gives the endpoint
that is meant, and nothing else is found. Any two lists are read apart when there is a comma between
them. -/
theorem ofList_of_listing (resolver : Resolver) (port : UInt16) (families : Families) :
    (∀ s es, Listing s.toList es → ofList resolver port families s =
      (es.map (Entry.meant port),
        es.map fun entry => .endpointAdded (String.ofList entry.text) 1)) ∧
    ∀ s t, ofList resolver port families (s ++ "," ++ t) =
      ((ofList resolver port families s).1 ++ (ofList resolver port families t).1,
        (ofList resolver port families s).2 ++ (ofList resolver port families t).2) := by
  constructor
  · intro s es listing
    have each (entry : Entry) : ofEntryOrSkip resolver port families entry.text =
        ([entry.meant port], .endpointAdded (String.ofList entry.text) 1) := by
      rw [ofEntryOrSkip, ofEntry_text]
      rfl
    have flat : (es.map fun entry => [entry.meant port]).flatten = es.map (Entry.meant port) := by
      rw [← List.flatMap_def, ← List.map_eq_flatMap]
    simp only [ofList, listing.entries_eq, List.map_map, Function.comp_def, each, flat]
  · intro s t
    simp [ofList, entries_comma]

/-- Endpoints with and without a scope, an address in brackets and one that has an IPv4 address inside,
at the default port 0. -/
theorem ofList_of_listing_four_entries :
    let linkLocal : Endpoint := .v6 ⟨0xfe800000000000000000000000000001⟩ 500 7
    let es : List Entry := [.endpoint (.v4 ⟨0x01020304⟩ 0), .endpoint linkLocal,
      .bracketed ⟨0x2606470000d000000000000000000001⟩, .address (.v6 ⟨0xffff01020304⟩)]
    let s := " 1.2.3.4:0 ,, [fe80::1%7]:500,\t[2606:4700:d0::1] ,::ffff:1.2.3.4, "
    Listing s.toList es ∧
      (ofList .numeric 0 ⟨true, false⟩ s).1 = [.v4 ⟨0x01020304⟩ 0, linkLocal,
        .v6 ⟨0x2606470000d000000000000000000001⟩ 2408 0, .v6 ⟨0xffff01020304⟩ 2408 0] := by
  intro linkLocal es s
  have empty : AllBlank [] := .nil
  have space : AllBlank [' '] := by simp [AllBlank, isBlank]
  have tab : AllBlank ['\t'] := by simp [AllBlank, isBlank]
  have listing : Listing _ es :=
    .comma (.entry space (.endpoint (.v4 ⟨0x01020304⟩ 0)) space) <| .comma (.blank empty) <|
      .comma (.entry space (.endpoint linkLocal) empty) <|
        .comma (.entry tab (.bracketed ⟨0x2606470000d000000000000000000001⟩) space) <|
          .comma (.entry empty (.address (.v6 ⟨0xffff01020304⟩)) empty) (.blank space)
  have written : Listing s.toList es := by
    convert listing using 1
    decide +kernel
  refine ⟨written, ?_⟩
  rw [(ofList_of_listing .numeric 0 ⟨true, false⟩).1 s es written]
  rfl

end Endpoint

end EdgeScan
