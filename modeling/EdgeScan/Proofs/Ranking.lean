import EdgeScan.Ranking
import Mathlib.Data.List.Induction
import Mathlib.Data.List.Sort

/-!
The ranking as a stable sort that is cut off. Whatever results were entered, the entries are the
first `capacity` ones of all results in the stable order by round trip, and what was evicted is the
rest of that order. An evicted result is therefore never missed later.
-/
namespace EdgeScan.Ranking

open scoped List

/-- Whether a measurement may stand in front of another. -/
def notSlower (a b : Measurement) : Bool := decide (a.rtt ≤ b.rtt)

/-- Results in ascending order of round trip, equal ones in the order in which they arrived. -/
def stableSort (history : List Measurement) : List Measurement := history.mergeSort notSlower

/-- The first `capacity` elements of a list; the capacity 0 is no bound. -/
def truncate {α : Type} (capacity : ℕ) (l : List α) : List α :=
  if capacity = 0 then l else l.take capacity

/-- Adds results one after the other, and collects those that are evicted on the way. -/
def enqueueAll (r : Ranking) : List Measurement → Ranking × List Measurement
  | [] => (r, [])
  | m :: later =>
    let rest := (r.enqueue m).1.enqueueAll later
    (rest.1, (r.enqueue m).2.toList ++ rest.2)

lemma notSlower_iff {a b : Measurement} : notSlower a b = true ↔ a.rtt.nanos ≤ b.rtt.nanos :=
  decide_eq_true_iff

lemma notSlower_trans (a b c : Measurement) (hab : notSlower a b) (hbc : notSlower b c) :
    notSlower a c := by
  rw [notSlower_iff] at *
  omega

lemma notSlower_total (a b : Measurement) : notSlower a b || notSlower b a := by
  rw [Bool.or_eq_true, notSlower_iff, notSlower_iff]
  omega

lemma stableSort_perm (history : List Measurement) : (stableSort history).Perm history :=
  List.mergeSort_perm history notSlower

lemma stableSort_pairwise (history : List Measurement) :
    (stableSort history).Pairwise (notSlower · ·) :=
  List.pairwise_mergeSort notSlower_trans notSlower_total history

/-- Whether a measurement took a given time. -/
def took (nanos : ℕ) (m : Measurement) : Bool := m.rtt.nanos == nanos

theorem filter_took_stableSort (nanos : ℕ) (history : List Measurement) :
    (stableSort history).filter (took nanos) = history.filter (took nanos) := by
  have same : (history.filter (took nanos)).Pairwise (notSlower · ·) := by
    refine List.pairwise_of_forall_mem_list fun a ha b hb => ?_
    have hta := (List.mem_filter.mp ha).2
    have htb := (List.mem_filter.mp hb).2
    simp only [took, beq_iff_eq] at hta htb
    rw [notSlower_iff]
    omega
  have kept : (history.filter (took nanos)).Sublist (stableSort history) :=
    List.sublist_mergeSort notSlower_trans notSlower_total same List.filter_sublist
  have filtered := kept.filter (took nanos)
  simp only [List.filter_filter, Bool.and_self] at filtered
  exact (filtered.eq_of_length ((stableSort_perm history).filter _).length_eq.symm).symm

/-- Two sorted lists are equal if they agree on the results of every round trip. -/
theorem eq_of_filter_took {l₁ l₂ : List Measurement} (h₁ : l₁.Pairwise (notSlower · ·))
    (h₂ : l₂.Pairwise (notSlower · ·))
    (agree : ∀ nanos, l₁.filter (took nanos) = l₂.filter (took nanos)) : l₁ = l₂ := by
  induction l₁ generalizing l₂ with
  | nil =>
    cases l₂ with
    | nil => rfl
    | cons b t₂ => simpa [took] using agree b.rtt.nanos
  | cons a t₁ ih =>
    cases l₂ with
    | nil => simpa [took] using agree a.rtt.nanos
    | cons b t₂ =>
      -- each head occurs in the other list, so neither is slower than the other
      have hab : a.rtt.nanos ≤ b.rtt.nanos := by
        have hb : b ∈ (a :: t₁).filter (took b.rtt.nanos) := by
          rw [agree]
          simp [took]
        rcases List.mem_cons.mp (List.mem_filter.mp hb).1 with rfl | hb
        · exact le_rfl
        · exact notSlower_iff.mp (List.rel_of_pairwise_cons h₁ hb)
      have hba : b.rtt.nanos ≤ a.rtt.nanos := by
        have ha : a ∈ (b :: t₂).filter (took a.rtt.nanos) := by
          rw [← agree]
          simp [took]
        rcases List.mem_cons.mp (List.mem_filter.mp ha).1 with rfl | ha
        · exact le_rfl
        · exact notSlower_iff.mp (List.rel_of_pairwise_cons h₂ ha)
      have hab' : a.rtt.nanos = b.rtt.nanos := le_antisymm hab hba
      have heads : a = b := by
        have := agree a.rtt.nanos
        simp only [took, List.filter_cons, beq_self_eq_true, if_true, hab'] at this
        exact (List.cons.inj this).1
      subst heads
      rw [ih h₁.of_cons h₂.of_cons fun nanos => ?_]
      have := agree nanos
      rw [List.filter_cons, List.filter_cons] at this
      split at this
      · exact (List.cons.inj this).2
      · exact this

lemma place_perm (m : Measurement) (l : List Measurement) : (place m l).Perm (m :: l) := by
  induction l with
  | nil => rfl
  | cons e rest ih =>
    unfold place
    split
    · exact (ih.cons e).trans (.swap m e rest)
    · rfl

lemma place_pairwise (m : Measurement) {l : List Measurement}
    (h : l.Pairwise (notSlower · ·)) : (place m l).Pairwise (notSlower · ·) := by
  induction l with
  | nil => simp [place]
  | cons e rest ih =>
    unfold place
    split
    · rename_i hle
      refine List.pairwise_cons.mpr ⟨fun x hx => ?_, ih h.of_cons⟩
      rcases List.mem_cons.mp ((place_perm m rest).subset hx) with rfl | hx
      · exact notSlower_iff.mpr hle
      · exact List.rel_of_pairwise_cons h hx
    · rename_i hle
      have hme : notSlower m e := notSlower_iff.mpr (Nat.le_of_not_le hle)
      refine List.pairwise_cons.mpr ⟨fun x hx => ?_, h⟩
      rcases List.mem_cons.mp hx with rfl | hx
      · exact hme
      · exact notSlower_trans m e x hme (List.rel_of_pairwise_cons h hx)

theorem filter_took_place (nanos : ℕ) (m : Measurement) {l : List Measurement}
    (h : l.Pairwise (notSlower · ·)) :
    (place m l).filter (took nanos) = l.filter (took nanos) ++ [m].filter (took nanos) := by
  induction l with
  | nil => rfl
  | cons e rest ih =>
    unfold place
    split
    · rw [List.filter_cons, List.filter_cons, ih h.of_cons]
      split <;> rfl
    · rename_i hle
      have hme : m.rtt.nanos < e.rtt.nanos := Nat.lt_of_not_le hle
      cases hm : took nanos m with
      | false => simp [hm]
      | true =>
        have none : (e :: rest).filter (took nanos) = [] := by
          refine List.filter_eq_nil_iff.mpr fun x hx => ?_
          have hex : e.rtt.nanos ≤ x.rtt.nanos := by
            rcases List.mem_cons.mp hx with rfl | hx
            · exact le_rfl
            · exact notSlower_iff.mp (List.rel_of_pairwise_cons h hx)
          simp only [took, beq_iff_eq] at hm ⊢
          omega
        rw [none, List.filter_cons, if_pos hm, none]
        simp [hm]

theorem stableSort_append_singleton (history : List Measurement) (m : Measurement) :
    stableSort (history ++ [m]) = place m (stableSort history) := by
  refine eq_of_filter_took (stableSort_pairwise _) (place_pairwise m (stableSort_pairwise _)) ?_
  intro nanos
  rw [filter_took_stableSort, filter_took_place nanos m (stableSort_pairwise _),
    filter_took_stableSort, List.filter_append]

lemma stableSort_of_pairwise {l : List Measurement} (h : l.Pairwise (notSlower · ·)) :
    stableSort l = l :=
  List.mergeSort_of_pairwise h

lemma truncate_zero {α : Type} (l : List α) : truncate 0 l = l := rfl

lemma truncate_of_pos {α : Type} {capacity : ℕ} (h : 0 < capacity) (l : List α) :
    truncate capacity l = l.take capacity := if_neg h.ne'

lemma truncate_sublist {α : Type} (capacity : ℕ) (l : List α) :
    (truncate capacity l).Sublist l := by
  unfold truncate
  split
  · rfl
  · exact List.take_sublist _ _

lemma map_truncate {α β : Type} (g : α → β) (capacity : ℕ) (l : List α) :
    (truncate capacity l).map g = truncate capacity (l.map g) := by
  unfold truncate
  split
  · rfl
  · exact List.map_take

/-- Placing a result moves at most one element across a cut. -/
theorem take_place_take (capacity : ℕ) (m : Measurement) (l : List Measurement) :
    (place m (l.take capacity)).take capacity = (place m l).take capacity := by
  induction l generalizing capacity with
  | nil => simp
  | cons e rest ih =>
    cases capacity with
    | zero => simp
    | succ capacity =>
      by_cases hle : e.rtt ≤ m.rtt
      · simp [place, hle, ih]
      · cases capacity <;> simp [place, hle, List.take_take]

lemma enqueue_capacity (r : Ranking) (m : Measurement) :
    (r.enqueue m).1.capacity = r.capacity := by
  simp only [enqueue]
  split <;> rfl

theorem enqueue_of_le (r : Ranking) (m : Measurement)
    (h : 0 < r.capacity → r.entries.length ≤ r.capacity) :
    (r.enqueue m).1.entries = truncate r.capacity (place m r.entries) ∧
    (r.enqueue m).1.entries ++ (r.enqueue m).2.toList = place m r.entries ∧
    ((r.enqueue m).2.isSome ↔ 0 < r.capacity ∧ r.entries.length = r.capacity) := by
  by_cases hpos : 0 < r.capacity
  · by_cases hfull : r.entries.length = r.capacity
    · have hcond : 0 < r.capacity ∧ r.capacity < (place m r.entries).length := by
        rw [length_place]
        omega
      have hne : place m r.entries ≠ [] := List.ne_nil_of_length_pos (by rw [length_place]; omega)
      have heq : r.enqueue m =
          ({ r with entries := (place m r.entries).dropLast }, (place m r.entries).getLast?) :=
        if_pos hcond
      rw [heq]
      refine ⟨?_, ?_, ?_⟩
      · rw [truncate_of_pos hpos, List.dropLast_eq_take, length_place]
        simp [hfull]
      · simp only [List.getLast?_eq_some_getLast hne, Option.toList_some]
        exact List.dropLast_append_getLast hne
      · simp [List.getLast?_eq_some_getLast hne, hpos, hfull]
    · have hlt := h hpos
      have hcond : ¬(0 < r.capacity ∧ r.capacity < (place m r.entries).length) := by
        rw [length_place]
        omega
      have heq : r.enqueue m = ({ r with entries := place m r.entries }, none) := if_neg hcond
      rw [heq]
      refine ⟨?_, by simp, by simp [hfull]⟩
      rw [truncate_of_pos hpos, List.take_of_length_le]
      rw [length_place]
      omega
  · have hcond : ¬(0 < r.capacity ∧ r.capacity < (place m r.entries).length) := fun hc => hpos hc.1
    have heq : r.enqueue m = ({ r with entries := place m r.entries }, none) := if_neg hcond
    have hzero : r.capacity = 0 := Nat.eq_zero_of_not_pos hpos
    rw [heq]
    exact ⟨by simp [hzero, truncate_zero], by simp, by simp [hpos]⟩

lemma enqueueAll_append (r : Ranking) (history later : List Measurement) :
    r.enqueueAll (history ++ later) =
      (((r.enqueueAll history).1.enqueueAll later).1,
        (r.enqueueAll history).2 ++ ((r.enqueueAll history).1.enqueueAll later).2) := by
  induction history generalizing r with
  | nil => rfl
  | cons m history ih => simp [enqueueAll, ih]

lemma enqueueAll_append_singleton (r : Ranking) (history : List Measurement) (m : Measurement) :
    r.enqueueAll (history ++ [m]) =
      (((r.enqueueAll history).1.enqueue m).1,
        (r.enqueueAll history).2 ++ ((r.enqueueAll history).1.enqueue m).2.toList) := by
  simp [enqueueAll_append, enqueueAll]

lemma enqueueAll_capacity (r : Ranking) (history : List Measurement) :
    (r.enqueueAll history).1.capacity = r.capacity := by
  induction history generalizing r with
  | nil => rfl
  | cons m history ih => exact (ih _).trans (enqueue_capacity r m)

/-- The entries are the fastest results so far, in the stable order. -/
theorem entries_enqueueAll (capacity : ℕ) (history : List Measurement) :
    ((empty capacity).enqueueAll history).1.entries =
      truncate capacity (stableSort history) := by
  induction history using List.reverseRecOn with
  | nil => simp [enqueueAll, empty, truncate, stableSort]
  | append_singleton history m ih =>
    have hcap := enqueueAll_capacity (empty capacity) history
    have hle : 0 < capacity →
        ((empty capacity).enqueueAll history).1.entries.length ≤ capacity := by
      intro hpos
      rw [ih, truncate_of_pos hpos]
      exact List.length_take_le _ _
    rw [enqueueAll_append_singleton, (enqueue_of_le _ m (hcap ▸ hle)).1, hcap, ih,
      stableSort_append_singleton]
    show truncate capacity _ = _
    by_cases hpos : 0 < capacity
    · simp only [truncate_of_pos hpos]
      exact take_place_take capacity m _
    · rw [Nat.eq_zero_of_not_pos hpos]
      rfl

lemma length_enqueueAll_le (capacity : ℕ) (history : List Measurement) (h : 0 < capacity) :
    ((empty capacity).enqueueAll history).1.entries.length ≤ capacity := by
  rw [entries_enqueueAll, truncate_of_pos h]
  exact List.length_take_le _ _

theorem enqueueAll_perm (capacity : ℕ) (history : List Measurement) :
    (((empty capacity).enqueueAll history).1.entries ++
      ((empty capacity).enqueueAll history).2).Perm history := by
  induction history using List.reverseRecOn with
  | nil => rfl
  | append_singleton history m ih =>
    have hcap := enqueueAll_capacity (empty capacity) history
    have hstep := (enqueue_of_le ((empty capacity).enqueueAll history).1 m
      (hcap ▸ length_enqueueAll_le capacity history)).2.1
    rw [enqueueAll_append_singleton]
    generalize (empty capacity).enqueueAll history = before at ih hstep
    calc (before.1.enqueue m).1.entries ++ (before.2 ++ (before.1.enqueue m).2.toList)
      _ ~ (before.1.enqueue m).1.entries ++ ((before.1.enqueue m).2.toList ++ before.2) :=
        List.perm_append_comm.append_left _
      _ = place m before.1.entries ++ before.2 := by rw [← List.append_assoc, hstep]
      _ ~ m :: (before.1.entries ++ before.2) := (place_perm m _).append_right _
      _ ~ m :: history := ih.cons m
      _ ~ history ++ [m] := (List.perm_append_singleton m history).symm

theorem evicted_perm (capacity : ℕ) (history : List Measurement) (h : 0 < capacity) :
    ((empty capacity).enqueueAll history).2 ~ (stableSort history).drop capacity := by
  have all := enqueueAll_perm capacity history
  rw [entries_enqueueAll, truncate_of_pos h] at all
  have sorted := stableSort_perm history
  rw [← List.take_append_drop capacity (stableSort history)] at sorted
  exact (List.perm_append_left_iff _).mp (all.trans sorted.symm)

lemma evicted_eq_nil (history : List Measurement) :
    ((empty 0).enqueueAll history).2 = [] := by
  have all := (enqueueAll_perm 0 history).length_eq
  rw [List.length_append, entries_enqueueAll, truncate_zero,
    (stableSort_perm history).length_eq] at all
  exact List.length_eq_zero_iff.mp (by omega)

/-- No evicted result was faster than one that is retained at that time. -/
theorem rtt_le_of_evicted {capacity : ℕ} {history : List Measurement} {e x : Measurement}
    (he : e ∈ ((empty capacity).enqueueAll history).2)
    (hx : x ∈ ((empty capacity).enqueueAll history).1.entries) : x.rtt ≤ e.rtt := by
  rcases Nat.eq_zero_or_pos capacity with rfl | hpos
  · rw [evicted_eq_nil] at he
    exact absurd he List.not_mem_nil
  · rw [entries_enqueueAll, truncate_of_pos hpos] at hx
    have he' := (evicted_perm capacity history hpos).subset he
    have ordered := stableSort_pairwise history
    rw [← List.take_append_drop capacity (stableSort history)] at ordered
    exact notSlower_iff.mp ((List.pairwise_append.mp ordered).2.2 x hx e he')

/-- The ranking after any sequence of results is their stable sort, cut off at the capacity. A call
evicts exactly if the ranking is full, and then what the cut drops. Entries and evicted results
together are all results, and whatever was evicted is no faster than any entry, then or later. -/
theorem enqueue_refines_stableSort (capacity : ℕ) (history : List Measurement) (m : Measurement) :
    let before := (empty capacity).enqueueAll history
    let call := before.1.enqueue m
    (empty capacity).enqueueAll (history ++ [m]) = (call.1, before.2 ++ call.2.toList) ∧
    before.1.list false = truncate capacity (stableSort history) ∧
    call.1.list false = truncate capacity (stableSort (history ++ [m])) ∧
    (call.2.isSome ↔ 0 < capacity ∧ before.1.size = capacity) ∧
    (∀ e, call.2 = some e → stableSort (before.1.list false ++ [m]) = call.1.list false ++ [e]) ∧
    before.1.list false ++ before.2 ~ history ∧
    ∀ later, ∀ e ∈ before.2,
      ∀ x ∈ ((empty capacity).enqueueAll (history ++ later)).1.list false, x.rtt ≤ e.rtt := by
  intro before call
  have hcap : before.1.capacity = capacity := enqueueAll_capacity (empty capacity) history
  have hafter : (empty capacity).enqueueAll (history ++ [m]) = (call.1, before.2 ++ call.2.toList) :=
    enqueueAll_append_singleton _ _ _
  have hcall := enqueue_of_le before.1 m (hcap ▸ length_enqueueAll_le capacity history)
  have hsorted : before.1.entries.Pairwise (notSlower · ·) := by
    rw [entries_enqueueAll]
    exact (stableSort_pairwise history).sublist (truncate_sublist _ _)
  refine ⟨hafter, entries_enqueueAll capacity history, ?_, ?_, ?_, enqueueAll_perm _ _, ?_⟩
  · have := entries_enqueueAll capacity (history ++ [m])
    rwa [hafter] at this
  · have := hcall.2.2
    rwa [hcap] at this
  · intro e he
    have hdrop := hcall.2.1
    rw [he, Option.toList_some] at hdrop
    show stableSort (before.1.entries ++ [m]) = call.1.entries ++ [e]
    rw [stableSort_append_singleton, stableSort_of_pairwise hsorted, hdrop]
  · intro later e he x hx
    have he' : e ∈ ((empty capacity).enqueueAll (history ++ later)).2 := by
      rw [enqueueAll_append]
      exact List.mem_append_left _ he
    exact rtt_le_of_evicted he' hx

end EdgeScan.Ranking
