import EdgeScan.Proofs.Distinct
import EdgeScan.Target.Endpoints

/-!
What the default port does to the endpoints of a list: nothing to those that name a port, and
nothing but their port to the others.
-/
namespace EdgeScan.Endpoint

open Text

/-- The endpoint with another port. -/
def withPort (port : UInt16) : Endpoint → Endpoint
  | v4 ip _ => v4 ip port
  | v6 ip _ scope => v6 ip port scope

/-- Whether an entry says itself which port it means. -/
def namesPort (entry : List Char) : Bool :=
  (Endpoint.parse? entry).isSome ||
    (Address.parse? (strip isBracket entry)).isNone &&
      match cutLast? ':' entry with
      | none => false
      | some (host, _) => !host.contains ':'

variable {resolver : Resolver} {families : Families} {entry : List Char} {p q : UInt16}

@[simp] lemma withPort_new (a : Address) : (new a p).withPort q = new a q := by
  cases a <;> rfl

@[simp] lemma withPort_endpoint (h : HostAddress) : (h.endpoint p).withPort q = h.endpoint q := by
  rcases h with ⟨_ | _, _⟩ <;> rfl

lemma port_endpoint (h : HostAddress) : (h.endpoint p).port = p := by
  rcases h with ⟨_ | _, _⟩ <;> rfl

lemma eq_of_withPort_eq {e₁ e₂ : Endpoint} (h : e₁.withPort q = e₂.withPort q)
    (same : e₁.port = e₂.port) : e₁ = e₂ := by
  cases e₁ <;> cases e₂ <;> simp_all [withPort, port]

lemma distinct_endpoint (hosts : List HostAddress) :
    (distinct (hosts.map (·.endpoint p))).map (withPort q) =
      distinct (hosts.map (·.endpoint q)) := by
  rw [← distinct_map, List.map_map]
  · simp [Function.comp_def]
  · simp only [List.forall_mem_map]
    intro h₁ _ h₂ _ same
    exact eq_of_withPort_eq same (by rw [port_endpoint, port_endpoint])

lemma resolveEntry_withPort (name : String) (host : List Char) :
    (resolveEntry resolver families name host p).map (List.map (withPort q)) =
      resolveEntry resolver families name host q := by
  unfold resolveEntry
  cases resolver.addresses (String.ofList host) with
  | error reason => rfl
  | ok found =>
    dsimp only
    cases found.filter fun h => families.allows h.address with
    | nil => rfl
    | cons h hosts => exact congrArg Except.ok (distinct_endpoint (h :: hosts))

theorem ofEntry_withPort (x : UInt16) :
    (ofEntry resolver p families entry).map (List.map (withPort x)) =
      (ofEntry resolver q families entry).map (List.map (withPort x)) := by
  unfold ofEntry
  cases Endpoint.parse? entry with
  | some e => rfl
  | none =>
    cases Address.parse? (strip isBracket entry) with
    | some a => simp [Except.map]
    | none =>
      cases cutLast? ':' entry with
      | none => simp only [resolveEntry_withPort]
      | some cut =>
        obtain ⟨host, digits⟩ := cut
        by_cases colon : host.contains ':'
        · simp only [colon, if_true, resolveEntry_withPort]
        · simp only [colon, if_false, Bool.false_eq_true]

/-- The default port does not matter for an entry that names a port. -/
theorem ofEntry_of_namesPort (h : namesPort entry) :
    ofEntry resolver p families entry = ofEntry resolver q families entry := by
  unfold namesPort at h
  unfold ofEntry
  cases parsed : Endpoint.parse? entry with
  | some e => rfl
  | none =>
    simp only [parsed, Option.isSome_none, Bool.false_or, Bool.and_eq_true,
      Option.isNone_iff_eq_none] at h
    obtain ⟨noAddress, named⟩ := h
    rw [noAddress]
    cases cut : cutLast? ':' entry with
    | none => simp [cut] at named
    | some parts =>
      obtain ⟨host, digits⟩ := parts
      simp only [cut, Bool.not_eq_true'] at named
      simp only [named, if_false, Bool.false_eq_true]

lemma isOk_ofEntry (resolver : Resolver) (families : Families) (entry : List Char) (p q : UInt16) :
    (ofEntry resolver p families entry).isOk = (ofEntry resolver q families entry).isOk := by
  have isOk_map (read : Except ScanError (List Endpoint)) :
      (read.map (List.map (withPort 0))).isOk = read.isOk := by cases read <;> rfl
  rw [← isOk_map, ofEntry_withPort, isOk_map]

lemma resolveEntry_ne_nil {name : String} {host : List Char} {found : List Endpoint}
    (h : resolveEntry resolver families name host p = .ok found) : found ≠ [] := by
  unfold resolveEntry at h
  split at h
  · exact absurd h (by simp)
  · split at h
    · exact absurd h (by simp)
    · rename_i some_
      rw [← Except.ok.inj h, Ne, distinct_eq_nil_iff]
      exact some_

theorem ofEntry_ne_nil {found : List Endpoint} (h : ofEntry resolver p families entry = .ok found) :
    found ≠ [] := by
  unfold ofEntry at h
  dsimp only at h
  split at h
  · exact Except.ok.inj h ▸ List.cons_ne_nil _ _
  · split at h
    · exact Except.ok.inj h ▸ List.cons_ne_nil _ _
    · split at h
      · exact resolveEntry_ne_nil h
      · split at h
        · exact resolveEntry_ne_nil h
        · split at h
          · exact absurd h (by simp)
          · exact resolveEntry_ne_nil h

/-! Lists -/

/-- The endpoints of several lists with commas. -/
def ofLists (resolver : Resolver) (port : UInt16) (families : Families) (lists : List String) :
    List Endpoint :=
  lists.flatMap fun s => (ofList resolver port families s).1

variable {lists : List String}

lemma map_ofEntryOrSkip (f : Endpoint → Endpoint) :
    (ofEntryOrSkip resolver p families entry).1.map f =
      ((ofEntry resolver p families entry).map (List.map f)).toOption.getD [] := by
  unfold ofEntryOrSkip
  cases ofEntry resolver p families entry <;> rfl

/-- Endpoints read with one default port and with another differ in nothing but their ports. -/
theorem ofLists_withPort (x : UInt16) :
    (ofLists resolver p families lists).map (withPort x) =
      (ofLists resolver q families lists).map (withPort x) := by
  simp only [ofLists, ofList, List.map_flatMap, List.map_flatten, List.map_map]
  refine congrArg (lists.flatMap ·) (funext fun s => ?_)
  refine congrArg List.flatten (List.map_congr_left fun entry _ => ?_)
  simp only [Function.comp_apply, map_ofEntryOrSkip, ofEntry_withPort (p := p) (q := q)]

/-- Lists give no endpoint exactly if none of their entries can be read. -/
theorem ofLists_eq_nil_iff : ofLists resolver p families lists = [] ↔
    ∀ s ∈ lists, ∀ entry ∈ entries s.toList, (ofEntry resolver q families entry).isOk = false := by
  have each (entry : List Char) : (ofEntryOrSkip resolver p families entry).1 = [] ↔
      (ofEntry resolver q families entry).isOk = false := by
    rw [isOk_ofEntry resolver families entry q p, ofEntryOrSkip]
    cases read : ofEntry resolver p families entry with
    | error e => exact iff_of_true rfl rfl
    | ok found => exact iff_of_false (ofEntry_ne_nil read) (by simp [Except.isOk, Except.toBool])
  simp [ofLists, ofList, each]

theorem ofLists_of_namesPort
    (named : ∀ s ∈ lists, ∀ entry ∈ entries s.toList, namesPort entry) :
    ofLists resolver p families lists = ofLists resolver q families lists := by
  refine congrArg List.flatten (List.map_congr_left fun s hs => ?_)
  simp only [ofList, List.map_map]
  refine congrArg List.flatten (List.map_congr_left fun entry hentry => ?_)
  rw [Function.comp_apply, Function.comp_apply, ofEntryOrSkip, ofEntryOrSkip,
    ofEntry_of_namesPort (named s hs entry hentry)]

end EdgeScan.Endpoint
