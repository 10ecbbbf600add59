import EdgeScan.Crypto.ChaCha20
import Mathlib.Tactic.Lemma

/-!
Decryption inverts encryption. The key stream is added to a text piece by piece, so that adding it
again takes it away; and the tag of what was encrypted is the one that decryption asks for.
-/
namespace EdgeScan

lemma chunks_nil (size : Nat) : chunks size [] = [] := by
  rw [chunks, dif_pos (.inl rfl)]

lemma chunks_of_ne_nil {size : Nat} {l : List UInt8} (hl : l ≠ []) (hsize : size ≠ 0) :
    chunks size l = l.take size :: chunks size (l.drop size) := by
  rw [chunks, dif_neg (by simp [hl, hsize])]

lemma length_wordBytes (words : List UInt32) : (wordBytes words).length = 4 * words.length := by
  induction words with
  | nil => rfl
  | cons w words ih =>
    have split : wordBytes (w :: words) = toLittleEndian 4 w.toNat ++ wordBytes words := rfl
    rw [split, List.length_append, length_toLittleEndian, ih, List.length_cons]
    omega

lemma zipWith_xor_xor {a b : List UInt8} (h : a.length ≤ b.length) :
    List.zipWith (· ^^^ ·) (List.zipWith (· ^^^ ·) a b) b = a := by
  induction a generalizing b with
  | nil => simp
  | cons x a ih =>
    cases b with
    | nil => simp at h
    | cons y b =>
      have back : x ^^^ y ^^^ y = x := by
        rw [UInt8.xor_assoc, UInt8.xor_self, UInt8.xor_zero]
      simp only [List.zipWith_cons_cons, back, ih (Nat.le_of_succ_le_succ h)]

namespace ChaCha20

variable {key : Bytes 32} {n : Nat} {text : List UInt8}

lemma length_block (key : Bytes 32) (counter : UInt32) : (block key counter).length = 64 := by
  rw [block, length_wordBytes, List.length_map, List.length_range]

/-- The text with the key stream from block `n + 1` on added to it. -/
def cryptFrom (key : Bytes 32) (n : Nat) (text : List UInt8) : List UInt8 :=
  (((chunks 64 text).zipIdx n).map fun (part, i) =>
    List.zipWith (· ^^^ ·) part (block key (i + 1).toUInt32)).flatten

lemma cryptFrom_nil : cryptFrom key n [] = [] := by
  rw [cryptFrom, chunks_nil]
  rfl

lemma cryptFrom_of_ne_nil (h : text ≠ []) : cryptFrom key n text =
    List.zipWith (· ^^^ ·) (text.take 64) (block key (n + 1).toUInt32) ++
      cryptFrom key (n + 1) (text.drop 64) := by
  rw [cryptFrom, chunks_of_ne_nil h (by decide)]
  rfl

lemma length_drop_lt (h : text ≠ []) : (text.drop 64).length < text.length := by
  have := List.length_pos_iff.mpr h
  rw [List.length_drop]
  omega

lemma length_cryptFrom (key : Bytes 32) (n : Nat) (text : List UInt8) :
    (cryptFrom key n text).length = text.length := by
  by_cases h : text = []
  · rw [h, cryptFrom_nil]
  · have shorter := length_drop_lt h
    rw [cryptFrom_of_ne_nil h, List.length_append, length_cryptFrom key (n + 1),
      List.length_zipWith, length_block, List.length_take, List.length_drop]
    omega
termination_by text.length

/-- Adding the key stream twice changes nothing. -/
theorem cryptFrom_cryptFrom (key : Bytes 32) (n : Nat) (text : List UInt8) :
    cryptFrom key n (cryptFrom key n text) = text := by
  by_cases h : text = []
  · rw [h, cryptFrom_nil, cryptFrom_nil]
  · have shorter := length_drop_lt h
    let piece := List.zipWith (· ^^^ ·) (text.take 64) (block key (n + 1).toUInt32)
    let rest := cryptFrom key (n + 1) (text.drop 64)
    have length : piece.length = min 64 text.length := by
      rw [List.length_zipWith, length_block, List.length_take]
      omega
    have nonempty : piece ++ rest ≠ [] := by
      have := List.length_pos_iff.mpr h
      exact List.ne_nil_of_length_pos (by rw [List.length_append]; omega)
    -- only the last piece is shorter than a block, and nothing comes after it
    have last : piece.length = 64 ∨ rest = [] := by
      by_cases full : 64 ≤ text.length
      · exact .inl (by omega)
      · have empty : text.drop 64 = [] := List.drop_of_length_le (by omega)
        exact .inr (by simp only [rest, empty, cryptFrom_nil])
    have front : (piece ++ rest).take 64 = piece := by
      rcases last with full | none
      · rw [← full, List.take_left]
      · rw [none, List.append_nil, List.take_of_length_le (by omega)]
    have back : (piece ++ rest).drop 64 = rest := by
      rcases last with full | none
      · rw [← full, List.drop_left]
      · rw [none, List.append_nil, List.drop_of_length_le (by omega)]
    have fits : (text.take 64).length ≤ (block key (n + 1).toUInt32).length := by
      rw [length_block, List.length_take]
      omega
    rw [cryptFrom_of_ne_nil h, cryptFrom_of_ne_nil nonempty, front, back, zipWith_xor_xor fits,
      cryptFrom_cryptFrom key (n + 1), List.take_append_drop]
termination_by text.length

theorem length_crypt (key : Bytes 32) (text : List UInt8) : (crypt key text).length = text.length :=
  length_cryptFrom key 0 text

theorem crypt_crypt (key : Bytes 32) (text : List UInt8) : crypt key (crypt key text) = text :=
  cryptFrom_cryptFrom key 0 text

end ChaCha20

namespace ChaCha20Poly1305

variable (key : Bytes 32) (text associated : List UInt8)

theorem length_encrypt : (encrypt key text associated).length = text.length + 16 := by
  rw [encrypt, List.length_append, ChaCha20.length_crypt, Bytes.length_toList]

theorem decrypt?_encrypt : decrypt? key (encrypt key text associated) associated = some text := by
  have length := length_encrypt key text associated
  have same := ChaCha20.length_crypt key text
  have front : (encrypt key text associated).take text.length = ChaCha20.crypt key text := by
    rw [← same]
    exact List.take_left
  have back : (encrypt key text associated).drop text.length =
      (tag key (ChaCha20.crypt key text) associated).toList := by
    rw [← same]
    exact List.drop_left
  rw [decrypt?, if_neg (by omega), length, Nat.add_sub_cancel, front, back, if_pos rfl,
    ChaCha20.crypt_crypt]

/-- Only what was encrypted can be decrypted. -/
theorem eq_encrypt_of_decrypt? {key : Bytes 32} {text ciphertext associated : List UInt8}
    (h : decrypt? key ciphertext associated = some text) :
    ciphertext = encrypt key text associated := by
  simp only [decrypt?, Option.ite_none_left_eq_some, Option.ite_none_right_eq_some,
    Option.some.injEq] at h
  obtain ⟨-, same, rfl⟩ := h
  rw [encrypt, ChaCha20.crypt_crypt, same, List.take_append_drop]

end ChaCha20Poly1305

end EdgeScan
