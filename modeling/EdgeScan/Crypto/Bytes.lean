/-!
Byte strings of a fixed length, and the byte order of numbers.
-/

namespace EdgeScan

structure Bytes (n : Nat) where
  toList : List UInt8
  length_toList : toList.length = n
deriving DecidableEq, Repr

namespace Bytes

attribute [simp] length_toList

/-- The first `n` bytes of a list, filled up with zeros if it is shorter. -/
def ofList (n : Nat) (l : List UInt8) : Bytes n :=
  ⟨l.take n ++ List.replicate (n - l.length) 0, by simp; omega⟩

def ofList? (n : Nat) (l : List UInt8) : Option (Bytes n) :=
  if h : l.length = n then some ⟨l, h⟩ else none

def zero (n : Nat) : Bytes n := ⟨List.replicate n 0, by simp⟩

@[ext] theorem ext {n : Nat} {a b : Bytes n} (h : a.toList = b.toList) : a = b := by
  cases a; cases b; simp_all

@[simp] theorem ofList_toList {n : Nat} (b : Bytes n) : ofList n b.toList = b := by
  ext1; simp [ofList, List.take_of_length_le]

/-- Of a list of the right length nothing is cut off or added. -/
theorem toList_ofList {n : Nat} {l : List UInt8} (h : l.length = n) : (ofList n l).toList = l := by
  simp [ofList, h, List.take_of_length_le]

end Bytes

def littleEndian : List UInt8 → Nat
  | [] => 0
  | b :: rest => b.toNat + 256 * littleEndian rest

def toLittleEndian : Nat → Nat → List UInt8
  | 0, _ => []
  | n + 1, v => v.toUInt8 :: toLittleEndian n (v / 256)

@[simp] theorem length_toLittleEndian (n v : Nat) : (toLittleEndian n v).length = n := by
  induction n generalizing v with
  | zero => rfl
  | succ n ih => simp [toLittleEndian, ih]

/-- Reading the lowest bytes of a number gives the number back, as far as they reach. -/
theorem littleEndian_toLittleEndian (n v : Nat) :
    littleEndian (toLittleEndian n v) = v % Nat.pow 256 n := by
  induction n generalizing v with
  | zero => simp [toLittleEndian, littleEndian, Nat.mod_one]
  | succ n ih =>
    have power : Nat.pow 256 (n + 1) = 256 * Nat.pow 256 n := Nat.mul_comm (Nat.pow 256 n) 256
    rw [toLittleEndian, littleEndian, ih, power, Nat.mod_mul]
    simp

/-- The bytes of a list in groups of `size`, the last of which may be shorter. -/
def chunks (size : Nat) (l : List UInt8) : List (List UInt8) :=
  if _h : l = [] ∨ size = 0 then []
  else l.take size :: chunks size (l.drop size)
termination_by l.length
decreasing_by
  have h : ¬(l = [] ∨ size = 0) := ‹_›
  simp only [not_or] at h
  have : 0 < l.length := List.length_pos_iff.mpr h.1
  simp only [List.length_drop]
  omega

def littleEndianWords (l : List UInt8) : Array UInt32 :=
  ((chunks 4 l).map fun c => (littleEndian c).toUInt32).toArray

def wordBytes (words : List UInt32) : List UInt8 :=
  words.flatMap fun w => toLittleEndian 4 w.toNat

def rotateLeft (x : UInt32) (n : UInt32) : UInt32 := (x <<< n) ||| (x >>> (32 - n))

def rotateRight (x : UInt32) (n : UInt32) : UInt32 := (x >>> n) ||| (x <<< (32 - n))

end EdgeScan
