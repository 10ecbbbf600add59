import EdgeScan.Distinct
import Mathlib.Tactic.Lemma

/-!
Removing repetitions: the elements of the list in the order in which they occur first, each once.
-/
namespace EdgeScan

variable {α : Type} [BEq α] [LawfulBEq α] [Hashable α]

/-- The set of the elements met so far has the same elements as their list. -/
def Seen.Agrees (seen : Seen α) : Prop := ∀ a, seen.set.contains a ↔ a ∈ seen.order.toList

lemma Seen.agrees_note {seen : Seen α} (h : seen.Agrees) (a : α) : (seen.note a).Agrees := by
  unfold note
  split
  · exact h
  · intro b
    rw [Std.HashSet.contains_insert, Bool.or_eq_true, h b, beq_iff_eq, Array.toList_push,
      List.mem_append, List.mem_singleton, or_comm, eq_comm]

theorem Seen.order_foldl_note {seen : Seen α} (h : seen.Agrees) (l : List α) :
    (l.foldl note seen).order.toList =
      seen.order.toList ++ (l.removeAll seen.order.toList).eraseDups := by
  induction l generalizing seen with
  | nil => simp
  | cons a l ih =>
    rw [List.foldl_cons, ih (agrees_note h a), List.cons_removeAll, note]
    by_cases met : seen.set.contains a
    · have old : a ∈ seen.order.toList := (h a).mp met
      rw [if_pos met, if_neg (by simpa using old)]
    · have new : a ∉ seen.order.toList := fun old => met ((h a).mpr old)
      rw [if_neg met, if_pos (by simpa using new), List.eraseDups_cons, Array.toList_push,
        List.append_assoc, List.singleton_append]
      have rest : l.removeAll (seen.order.toList ++ [a]) =
          (l.removeAll seen.order.toList).filter fun b => !b == a := by
        simp only [List.removeAll, List.filter_filter]
        refine List.filter_congr fun b _ => ?_
        rw [Bool.eq_iff_iff]
        simp [and_comm]
      rw [rest]

lemma distinct_eq_eraseDups (l : List α) : distinct l = l.eraseDups := by
  have h : (l.foldl Seen.note ⟨∅, #[]⟩).order.toList = [] ++ (l.removeAll []).eraseDups :=
    Seen.order_foldl_note (fun a => by simp) l
  rwa [List.removeAll_nil, List.nil_append] at h

lemma mem_distinct {a : α} {l : List α} : a ∈ distinct l ↔ a ∈ l := by
  rw [distinct_eq_eraseDups, List.mem_eraseDups]

lemma distinct_eq_nil_iff {l : List α} : distinct l = [] ↔ l = [] := by
  simp only [List.eq_nil_iff_forall_not_mem, mem_distinct]

lemma nodup_distinct (l : List α) : (distinct l).Nodup := by
  rw [distinct_eq_eraseDups]
  match l with
  | [] => exact .nil
  | a :: l =>
    rw [List.eraseDups_cons, List.nodup_cons]
    refine ⟨fun h => ?_, ?_⟩
    · simpa using (List.mem_filter.mp (List.mem_eraseDups.mp h)).2
    · have ih := nodup_distinct (l.filter fun b => !b == a)
      rwa [distinct_eq_eraseDups] at ih
termination_by l.length
decreasing_by exact Nat.lt_succ_of_le (List.length_filter_le _ _)

lemma distinct_of_nodup {l : List α} (h : l.Nodup) : distinct l = l := by
  induction l with
  | nil => rfl
  | cons a l ih =>
    rw [List.nodup_cons] at h
    have rest : l.filter (fun b => !b == a) = l := by
      rw [List.filter_eq_self]
      rintro b hb
      have other : b ≠ a := fun same => h.1 (same ▸ hb)
      simpa using other
    rw [distinct_eq_eraseDups] at ih ⊢
    rw [List.eraseDups_cons, rest, ih h.2]

/-- A function that keeps the elements of a list apart can be applied before or after. -/
theorem distinct_map {β : Type} [BEq β] [LawfulBEq β] [Hashable β] {f : α → β} (l : List α)
    (apart : ∀ a ∈ l, ∀ b ∈ l, f a = f b → a = b) : distinct (l.map f) = (distinct l).map f := by
  simp only [distinct_eq_eraseDups]
  match l with
  | [] => rfl
  | a :: l =>
    have rest : (l.map f).filter (fun b => !b == f a) = (l.filter fun b => !b == a).map f := by
      rw [List.filter_map]
      refine congrArg (List.map f) (List.filter_congr fun b hb => ?_)
      have same := apart b (List.mem_cons_of_mem a hb) a List.mem_cons_self
      rw [Function.comp_apply, Bool.eq_iff_iff]
      simpa using not_congr ⟨same, congrArg f⟩
    have part : ∀ b ∈ l.filter (fun b => !b == a), b ∈ a :: l := fun b hb =>
      List.mem_cons_of_mem a (List.mem_filter.mp hb).1
    have ih := distinct_map _ fun b hb c hc => apart b (part b hb) c (part c hc)
    rw [List.map_cons, List.eraseDups_cons, rest, List.eraseDups_cons, List.map_cons,
      ← distinct_eq_eraseDups, ih, distinct_eq_eraseDups]
termination_by l.length
decreasing_by exact Nat.lt_succ_of_le (List.length_filter_le _ _)

end EdgeScan
