import Std.Data.HashSet

/-!
Removing repetitions from a list: every element stays where it occurs first.
-/

namespace EdgeScan

variable {α : Type} [BEq α] [Hashable α]

/-- The elements met so far, in a form that is quick to search and in their order. -/
structure Seen (α : Type) [BEq α] [Hashable α] where
  set : Std.HashSet α
  order : Array α

def Seen.note (seen : Seen α) (a : α) : Seen α :=
  if seen.set.contains a then seen else ⟨seen.set.insert a, seen.order.push a⟩

/-- The list without repetitions, every element kept where it occurs first. -/
def distinct (l : List α) : List α :=
  (l.foldl Seen.note ⟨∅, #[]⟩).order.toList

end EdgeScan
