import EdgeScan.Crypto.Bytes

/-!
The hash function BLAKE2s, with or without a key, and HMAC over it.
-/

namespace EdgeScan.Blake2s

def blockSize : Nat := 64

def initial : Array UInt32 :=
  #[0x6A09E667, 0xBB67AE85, 0x3C6EF372, 0xA54FF53A, 0x510E527F, 0x9B05688C, 0x1F83D9AB, 0x5BE0CD19]

/-- The order in which each round takes the words of the block. -/
def schedule : List (List Nat) :=
  [[0, 1, 2, 3, 4, 5, 6, 7, 8, 9, 10, 11, 12, 13, 14, 15],
   [14, 10, 4, 8, 9, 15, 13, 6, 1, 12, 0, 2, 11, 7, 5, 3],
   [11, 8, 12, 0, 5, 2, 15, 13, 10, 14, 3, 6, 7, 1, 9, 4],
   [7, 9, 3, 1, 13, 12, 11, 14, 2, 6, 5, 10, 4, 0, 15, 8],
   [9, 0, 5, 7, 2, 4, 10, 15, 14, 1, 11, 12, 6, 8, 3, 13],
   [2, 12, 6, 10, 0, 11, 8, 3, 4, 13, 7, 5, 15, 14, 1, 9],
   [12, 5, 1, 15, 14, 13, 4, 10, 0, 7, 6, 3, 9, 2, 8, 11],
   [13, 11, 7, 14, 12, 1, 3, 9, 5, 0, 15, 4, 8, 6, 2, 10],
   [6, 15, 14, 9, 11, 3, 0, 8, 12, 2, 13, 7, 1, 4, 10, 5],
   [10, 2, 8, 4, 7, 6, 1, 5, 15, 11, 9, 14, 3, 12, 13, 0]]

/-- The positions that the eight steps of a round mix: first columns, then diagonals. -/
def lanes : List (Nat × Nat × Nat × Nat) :=
  [(0, 4, 8, 12), (1, 5, 9, 13), (2, 6, 10, 14), (3, 7, 11, 15),
   (0, 5, 10, 15), (1, 6, 11, 12), (2, 7, 8, 13), (3, 4, 9, 14)]

def mix (v : Array UInt32) (lane : Nat × Nat × Nat × Nat) (x y : UInt32) : Array UInt32 :=
  let (i, j, k, l) := lane
  let a := v.getD i 0 + v.getD j 0 + x
  let d := rotateRight (v.getD l 0 ^^^ a) 16
  let c := v.getD k 0 + d
  let b := rotateRight (v.getD j 0 ^^^ c) 12
  let a := a + b + y
  let d := rotateRight (d ^^^ a) 8
  let c := c + d
  let b := rotateRight (b ^^^ c) 7
  (((v.setIfInBounds i a).setIfInBounds j b).setIfInBounds k c).setIfInBounds l d

def round (block : Array UInt32) (v : Array UInt32) (order : List Nat) : Array UInt32 :=
  lanes.zipIdx.foldl (fun v (lane, i) =>
    mix v lane (block.getD (order.getD (2 * i) 0) 0) (block.getD (order.getD (2 * i + 1) 0) 0)) v

/-- Compresses a block into the state. `count` is the number of bytes hashed so far. -/
def compress (state : Array UInt32) (block : List UInt8) (count : Nat) (isLast : Bool) :
    Array UInt32 :=
  let words := littleEndianWords (Bytes.ofList blockSize block).toList
  let lowCount := (initial.getD 4 0) ^^^ count.toUInt32
  let highCount := (initial.getD 5 0) ^^^ (count / 0x100000000).toUInt32
  let final := if isLast then ~~~(initial.getD 6 0) else initial.getD 6 0
  let work := state ++ #[initial.getD 0 0, initial.getD 1 0, initial.getD 2 0, initial.getD 3 0,
    lowCount, highCount, final, initial.getD 7 0]
  let mixed := schedule.foldl (round words) work
  Array.ofFn fun (i : Fin 8) =>
    state.getD i.val 0 ^^^ mixed.getD i.val 0 ^^^ mixed.getD (i.val + 8) 0

/-- Compresses the blocks of a message, the last of which may be short; `count` bytes were hashed
before. -/
def absorb (state : Array UInt32) (count : Nat) : List (List UInt8) → Array UInt32
  | [] => state
  | [last] => compress state last (count + last.length) true
  | block :: rest => absorb (compress state block (count + blockSize) false) (count + blockSize) rest

/-- The digest of `size` bytes of a message under a key of at most 32 bytes. -/
def digest (size : Nat) (key message : List UInt8) : Bytes size :=
  let parameters := 0x01010000 + key.length * 256 + size
  let state := initial.modify 0 (· ^^^ parameters.toUInt32)
  let keyBlock := if key.isEmpty then [] else (Bytes.ofList blockSize key).toList
  let blocks := chunks blockSize (keyBlock ++ message)
  let state := absorb state 0 (if blocks.isEmpty then [[]] else blocks)
  .ofList size (wordBytes state.toList)

def hash (message : List UInt8) : Bytes 32 := digest 32 [] message

def mac (key : Bytes 32) (message : List UInt8) : Bytes 16 := digest 16 key.toList message

def hmac (key : Bytes 32) (message : List UInt8) : Bytes 32 :=
  let padded := (Bytes.ofList blockSize key.toList).toList
  let inner := hash (padded.map (· ^^^ 0x36) ++ message)
  hash (padded.map (· ^^^ 0x5C) ++ inner.toList)

end EdgeScan.Blake2s
