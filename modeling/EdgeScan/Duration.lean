/-!
Lengths of time, in whole nanoseconds.
-/

namespace EdgeScan

structure Duration where
  nanos : Nat
deriving DecidableEq, Repr, Inhabited

namespace Duration

def zero : Duration := ⟨0⟩

def ofMillis (ms : Nat) : Duration := ⟨ms * 1000000⟩

def toMillis (d : Duration) : Nat := d.nanos / 1000000

def seconds (d : Duration) : Nat := d.nanos / 1000000000

def subsecond (d : Duration) : Nat := d.nanos % 1000000000

instance : LE Duration := ⟨fun a b => a.nanos ≤ b.nanos⟩
instance : LT Duration := ⟨fun a b => a.nanos < b.nanos⟩

instance (a b : Duration) : Decidable (a ≤ b) := Nat.decLe a.nanos b.nanos
instance (a b : Duration) : Decidable (a < b) := Nat.decLt a.nanos b.nanos

def longer (a b : Duration) : Duration := if a ≤ b then b else a

theorem le_trans {a b c : Duration} (hab : a ≤ b) (hbc : b ≤ c) : a ≤ c := Nat.le_trans hab hbc

theorem le_total (a b : Duration) : a ≤ b ∨ b ≤ a := Nat.le_total a.nanos b.nanos

theorem le_antisymm {a b : Duration} (hab : a ≤ b) (hba : b ≤ a) : a = b := by
  have same : a.nanos = b.nanos := Nat.le_antisymm hab hba
  cases a
  cases b
  exact congrArg Duration.mk same

@[simp] theorem toMillis_ofMillis (ms : Nat) : (ofMillis ms).toMillis = ms := by
  simp [ofMillis, toMillis]

end Duration

end EdgeScan
