import EdgeScan.Proofs.Handshake.Agreement
import EdgeScan.Proofs.Traversal
import Mathlib.Algebra.Order.Ring.Nat
import Mathlib.Tactic.Tauto

/-!
Which bytes of a response are authenticated. The key and the transcript in which an initiator opens a
response depend on the ephemeral key in it and on no other byte, and there is only one text that opens
to nothing with them. So of two accepted responses with the same ephemeral key, the type, the receiver's
index and the sealed text are the same; and the other bytes may be any, of which the initiator reads the
responder's index only.
-/
namespace EdgeScan.Handshake

variable {p : Primitives} {init : Initiation} {keys : Keys} {j : UInt32}
  {a b response other : List UInt8} {start stop : ℕ}

/-! Bytes of a packet -/

/-- Whether two packets have the same bytes from `start` up to `stop`. -/
def AgreeOn (a b : List UInt8) (start stop : ℕ) : Prop :=
  ∀ i, start ≤ i → i < stop → a[i]? = b[i]?

lemma AgreeOn.mono {start' stop' : ℕ} (h : AgreeOn a b start stop) (hstart : start ≤ start')
    (hstop : stop' ≤ stop) : AgreeOn a b start' stop' :=
  fun i lower upper => h i (hstart.trans lower) (upper.trans_le hstop)

lemma getElem?_slice (l : List UInt8) (start stop i : ℕ) :
    (slice l start stop)[i]? = if i < stop - start then l[start + i]? else none := by
  simp [slice, List.getElem?_take]

lemma length_slice (h : stop ≤ a.length) : (slice a start stop).length = stop - start := by
  simp only [slice, List.length_take, List.length_drop]
  omega

lemma slice_eq_slice_iff : slice a start stop = slice b start stop ↔ AgreeOn a b start stop := by
  constructor
  · intro same i lower upper
    have at_i := congrArg (·[i - start]?) same
    have inside : i - start < stop - start := by omega
    simpa [getElem?_slice, inside, Nat.add_sub_cancel' lower] using at_i
  · intro agree
    apply List.ext_getElem?
    intro i
    rw [getElem?_slice, getElem?_slice]
    split
    · exact agree _ (Nat.le_add_right _ _) (by omega)
    · rfl

lemma littleEndian_lt (l : List UInt8) : littleEndian l < 256 ^ l.length := by
  induction l with
  | nil => simp [littleEndian]
  | cons byte l ih =>
    have := byte.toNat_lt
    rw [littleEndian, List.length_cons, pow_succ']
    omega

lemma littleEndian_inj (length : a.length = b.length) (h : littleEndian a = littleEndian b) :
    a = b := by
  induction a generalizing b with
  | nil => exact (List.length_eq_zero_iff.mp length.symm).symm
  | cons x a ih =>
    obtain ⟨y, b, rfl⟩ := List.exists_cons_of_length_eq_add_one length.symm
    have := x.toNat_lt
    have := y.toNat_lt
    rw [littleEndian, littleEndian] at h
    have first : x = y := UInt8.toNat_inj.mp (by omega)
    rw [first, ih (Nat.succ.inj length) (by omega)]

lemma getElem?_zero_eq_some (h : 0 < a.length) : a[0]? = some (a.getD 0 0) := by
  simp [List.getD_eq_getElem?_getD, h]

lemma ofList?_of_length_eq {n : ℕ} (h : a.length = n) :
    Bytes.ofList? n a = some (.ofList n a) := by
  rw [Bytes.ofList?, dif_pos h, Option.some.injEq]
  ext1
  rw [Bytes.toList_ofList h]

/-! Reading within bounds -/

/-- The bytes of a packet from `start` up to `stop`, if it has all of them. -/
def slice? (packet : List UInt8) (start stop : ℕ) : Option (List UInt8) :=
  if stop ≤ packet.length then some (slice packet start stop) else none

namespace Initiation

/-- The transcript in which an initiator opens a response with the given ephemeral key, and the key
to do so. -/
def closing (p : Primitives) (init : Initiation) (keys : Keys) (ephemeral : Bytes 32) :
    Transcript × Bytes 32 :=
  p.closing init.transcript ephemeral (p.shared init.ephemeral ephemeral)
    (p.shared keys.secret ephemeral) keys.preshared

/-- The check of a response with every read in bounds: it has no outcome if it comes to a byte that
the response does not have, or to a key that is too short. -/
def consume? (p : Primitives) (init : Initiation) (keys : Keys) (response : List UInt8) :
    Option (Except ProbeError UInt32) :=
  if response.length < responseNeeded then
    some (.error (.malformedReply s!"handshake response too short: {response.length} bytes"))
  else do
    let type ← response[0]?
    if type ≠ responseType then
      return .error (.malformedReply s!"unexpected message type {type.toNat}")
    let index ← slice? response 4 8
    let receiver ← slice? response 8 12
    if littleEndian receiver ≠ init.senderIndex.toNat then
      return .error (.malformedReply "receiver index mismatch")
    let ephemeral ← Bytes.ofList? 32 (← slice? response 12 44)
    let (t, key) := init.closing p keys ephemeral
    match p.decrypt? key (← slice? response 44 60) t.hash.toList with
    | none => return .error (.handshake "response failed authentication")
    | some _ => return .ok (littleEndian index).toUInt32

/-- The check comes to an outcome for every response: it reads no byte that is not there. -/
theorem consume?_eq (p : Primitives) (init : Initiation) (keys : Keys) (response : List UInt8) :
    init.consume? p keys response = some (init.consume p keys response) := by
  by_cases short : response.length < responseNeeded
  · simp only [consume?, consume, if_pos short]
  have enough : responseNeeded ≤ response.length := Nat.not_lt.mp short
  have type := getElem?_zero_eq_some (Nat.lt_of_lt_of_le (by decide) enough)
  have read {start stop : ℕ} (h : stop ≤ responseNeeded) :
      slice? response start stop = some (slice response start stop) := if_pos (h.trans enough)
  have ephemeral : Bytes.ofList? 32 (slice response 12 44) = some (.ofList 32 (slice response 12 44)) :=
    ofList?_of_length_eq (length_slice (Nat.le_trans (by decide) enough))
  simp (disch := decide) only [consume?, consume, if_neg short, type, read, ephemeral,
    Option.bind_eq_bind, Option.bind_some, closing, Primitives.closing]
  -- what is left are the same decisions on both sides
  split
  · rfl
  split
  · rfl
  generalize p.decrypt? _ _ _ = opened
  cases opened <;> rfl

end Initiation

/-! What an initiator accepts -/

/-- What an initiator asks of a response, and the index that it then gives. -/
structure Accepts (p : Primitives) (init : Initiation) (keys : Keys) (response : List UInt8)
    (j : UInt32) : Prop where
  length : responseNeeded ≤ response.length
  type : response[0]? = some responseType
  receiver : littleEndian (slice response 8 12) = init.senderIndex.toNat
  opened : ∃ text, p.decrypt? (init.closing p keys (.ofList 32 (slice response 12 44))).2
    (slice response 44 60) (init.closing p keys (.ofList 32 (slice response 12 44))).1.hash.toList =
      some text
  index : j.toNat = littleEndian (slice response 4 8)

lemma toNat_index (enough : responseNeeded ≤ response.length) :
    (littleEndian (slice response 4 8)).toUInt32.toNat = littleEndian (slice response 4 8) := by
  have bound := littleEndian_lt (slice response 4 8)
  rw [length_slice (Nat.le_trans (by decide) enough)] at bound
  exact Nat.mod_eq_of_lt bound

/-- An initiator gives the index of exactly those responses that have what it asks for. -/
theorem consume_eq_ok_iff :
    init.consume p keys response = .ok j ↔ Accepts p init keys response j := by
  simp only [Initiation.consume, ite_error_eq_ok_iff, not_lt, ne_eq, not_not]
  constructor
  · rintro ⟨enough, type, receiver, accepted⟩
    split at accepted
    · simp at accepted
    · rename_i text opened
      have first := getElem?_zero_eq_some (Nat.lt_of_lt_of_le (by decide) enough)
      obtain rfl := Except.ok.inj accepted
      exact ⟨enough, type ▸ first, receiver, ⟨text, opened⟩, toNat_index enough⟩
  · rintro ⟨enough, type, receiver, ⟨text, opened⟩, index⟩
    refine ⟨enough, ?_, receiver, ?_⟩
    · rw [List.getD_eq_getElem?_getD, type, Option.getD_some]
    · rw [Initiation.closing, Primitives.closing] at opened
      rw [opened, UInt32.toNat_inj.mp (index.trans (toNat_index enough).symm)]

/-- Of responses that agree in their type and in what follows the responder's index, up to the sealed
text, all or none are accepted. -/
theorem Accepts.of_agreeOn (accepts : Accepts p init keys response j)
    (type : AgreeOn other response 0 1) (rest : AgreeOn other response 8 60) :
    ∃ k, Accepts p init keys other k := by
  have last : other[59]? = response[59]? := rest 59 (by decide) (by decide)
  have enough : responseNeeded ≤ other.length := by
    have inside : 59 < response.length := accepts.length
    rw [List.getElem?_eq_getElem inside] at last
    exact (List.getElem?_eq_some_iff.mp last).1
  have same {start stop : ℕ} (hstart : 8 ≤ start) (hstop : stop ≤ 60) :
      slice other start stop = slice response start stop :=
    slice_eq_slice_iff.mpr (rest.mono hstart hstop)
  refine ⟨_, enough, ?_, ?_, ?_, toNat_index enough⟩
  · rw [type 0 le_rfl Nat.one_pos]
    exact accepts.type
  · rw [same (by decide) (by decide)]
    exact accepts.receiver
  · rw [same (by decide) (by decide), same (by decide) (by decide)]
    exact accepts.opened

/-- For every initiation and every ephemeral key there are accepted responses, with any index. -/
theorem exists_consume_eq_ok
    (opens : ∀ key text associated,
      p.decrypt? key (p.encrypt key text associated) associated = some text)
    (expands : ∀ key text associated, (p.encrypt key text associated).length = text.length + 16)
    (init : Initiation) (keys : Keys) (ephemeral : Bytes 32) (j : UInt32) :
    ∃ response, init.consume p keys response = .ok j := by
  obtain ⟨t, key, closing⟩ : ∃ t key, init.closing p keys ephemeral = (t, key) := ⟨_, _, rfl⟩
  have reads := responseReads p keys.publicKey (length_toLittleEndian 4 j.toNat)
    (length_toLittleEndian 4 init.senderIndex.toNat) ephemeral.length_toList
    (expands key [] t.hash.toList)
  have accepted : init.consume p keys _ = _ := Initiation.consume_eq reads
    (littleEndian_toNat init.senderIndex) closing (opens key [] t.hash.toList)
  exact ⟨_, accepted.trans (congrArg Except.ok (toUInt32_littleEndian j))⟩

section

variable
  (authentic : ∀ key sealed associated text, p.decrypt? key sealed associated = some text →
    ∃ text', sealed = p.encrypt key text' associated)
  (expands : ∀ key text associated, (p.encrypt key text associated).length = text.length + 16)
include authentic expands

theorem Accepts.sealed_eq (accepts : Accepts p init keys response j) :
    slice response 44 60 = p.encrypt (init.closing p keys (.ofList 32 (slice response 12 44))).2 []
      (init.closing p keys (.ofList 32 (slice response 12 44))).1.hash.toList := by
  obtain ⟨text, opened⟩ := accepts.opened
  obtain ⟨text', same⟩ := authentic _ _ _ _ opened
  have length : (slice response 44 60).length = 60 - 44 := length_slice accepts.length
  rw [same, expands] at length
  have empty : text' = [] := List.length_eq_zero_iff.mp (by omega)
  rw [same, empty]

theorem Accepts.agreeOn {k : UInt32} (accepts : Accepts p init keys response j)
    (others : Accepts p init keys other k) (ephemeral : AgreeOn other response 12 44) :
    AgreeOn other response 0 1 ∧ AgreeOn other response 8 12 ∧ AgreeOn other response 44 60 := by
  refine ⟨fun i _ below => ?_, ?_, ?_⟩
  · obtain rfl : i = 0 := Nat.lt_one_iff.mp below
    exact others.type.trans accepts.type.symm
  · have length (l : List UInt8) (h : responseNeeded ≤ l.length) : (slice l 8 12).length = 12 - 8 :=
      length_slice (Nat.le_trans (by decide) h)
    apply slice_eq_slice_iff.mp
    apply littleEndian_inj
    · rw [length _ others.length, length _ accepts.length]
    · exact others.receiver.trans accepts.receiver.symm
  · apply slice_eq_slice_iff.mp
    rw [others.sealed_eq authentic expands, accepts.sealed_eq authentic expands,
      slice_eq_slice_iff.mpr ephemeral]

/-- Which bytes of a response are authenticated, provided that only what was encrypted can be decrypted
and that encryption makes a text longer by 16 bytes. When a response is accepted, then none is that has
the same ephemeral key but differs in its type, in the receiver's index or in the sealed text; and all
are that agree with it there, whatever their other bytes are and however long they are, with the index
that stands in them. A response that is too short is malformed, and no byte is read that a response does
not have. -/
theorem authenticated_bytes (init : Initiation) (keys : Keys) :
    (∀ response j, init.consume p keys response = .ok j →
      (∀ other, responseNeeded ≤ other.length → AgreeOn other response 12 44 →
        ¬AgreeOn other response 0 1 ∨ ¬AgreeOn other response 8 12 ∨ ¬AgreeOn other response 44 60 →
        ∃ e, init.consume p keys other = .error e) ∧
      ∀ other, AgreeOn other response 0 1 → AgreeOn other response 8 60 →
        ∃ k, init.consume p keys other = .ok k ∧ k.toNat = littleEndian (slice other 4 8)) ∧
    (∀ response, response.length < responseNeeded → init.consume p keys response =
      .error (.malformedReply s!"handshake response too short: {response.length} bytes")) ∧
    ∀ response, init.consume? p keys response = some (init.consume p keys response) := by
  refine ⟨fun response j accepted => ⟨?_, ?_⟩, fun response short => if_pos short,
    init.consume?_eq p keys⟩
  · intro other _ ephemeral differs
    have accepts := consume_eq_ok_iff.mp accepted
    cases outcome : init.consume p keys other with
    | error e => exact ⟨e, rfl⟩
    | ok k =>
      have others := consume_eq_ok_iff.mp outcome
      have agree := accepts.agreeOn authentic expands others ephemeral
      tauto
  · intro other type rest
    obtain ⟨k, accepts⟩ := (consume_eq_ok_iff.mp accepted).of_agreeOn type rest
    exact ⟨k, consume_eq_ok_iff.mpr accepts, accepts.index⟩

end

/-- A response that is rejected after a change of its sealed text, accepted with a reserved byte changed
and without its codes, and malformed without the last byte of the sealed text. -/
theorem authenticated_bytes_wireGuard :
    let p := Primitives.wireGuard
    let key (b : UInt8) : Bytes 32 := .ofList 32 (List.replicate 32 b)
    let keys := Keys.new p (key 9) (p.publicKey (key 7)) none
    let init := Initiation.new p keys (key 1) 305419896 (.zero 12)
    ∃ response, init.consume p keys response = .ok 4242 ∧
      (∃ e, init.consume p keys (response.set 50 (response.getD 50 0 + 1)) = .error e) ∧
      init.consume p keys ((response.take 60).set 2 255) = .ok 4242 ∧
      init.consume p keys (response.take 59) = .error (.malformedReply
        s!"handshake response too short: {(response.take 59).length} bytes") := by
  intro p key keys init
  obtain ⟨response, accepted⟩ := exists_consume_eq_ok (p := p) ChaCha20Poly1305.decrypt?_encrypt
    ChaCha20Poly1305.length_encrypt init keys (key 2) 4242
  have accepts := consume_eq_ok_iff.mp accepted
  have enough : 60 ≤ response.length := accepts.length
  obtain ⟨authenticated, short, -⟩ := authenticated_bytes (p := p)
    (fun _ _ _ text opened => ⟨text, ChaCha20Poly1305.eq_encrypt_of_decrypt? opened⟩)
    ChaCha20Poly1305.length_encrypt init keys
  obtain ⟨rejects, takes⟩ := authenticated response 4242 accepted
  refine ⟨response, accepted, ?_, ?_, short _ ?_⟩
  · apply rejects
    · rwa [List.length_set]
    · intro i _ upper
      rw [List.getElem?_set_ne (by omega)]
    · refine .inr (.inr fun agree => ?_)
      have changed := agree 50 (by decide) (by decide)
      rw [List.getElem?_set_self (by omega), List.getD_eq_getElem?_getD,
        List.getElem?_eq_getElem (by omega), Option.getD_some, Option.some.injEq,
        ← UInt8.toNat_inj, UInt8.toNat_add, UInt8.toNat_one] at changed
      omega
  · have agree {start stop : ℕ} (h : stop ≤ 2 ∨ 3 ≤ start) (hstop : stop ≤ 60) :
        AgreeOn ((response.take 60).set 2 255) response start stop := by
      intro i lower upper
      rw [List.getElem?_set_ne (by omega), List.getElem?_take_of_lt (by omega)]
    obtain ⟨k, taken, index⟩ := takes _ (agree (by decide) (by decide)) (agree (by decide) (by decide))
    rw [slice_eq_slice_iff.mpr (agree (by decide) (by decide)), ← accepts.index,
      UInt32.toNat_inj] at index
    rw [taken, index]
  · rw [List.length_take]
    exact Nat.lt_of_le_of_lt (Nat.min_le_left 59 _) (by decide)

end EdgeScan.Handshake
