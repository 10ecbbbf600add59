import EdgeScan.Handshake.Responder
import EdgeScan.Proofs.Crypto.ChaCha20

/-!
Both sides of a handshake arrive at the same keys. They write and read the same packets, and keep
the same transcript, since the secrets that go into it are shared. So a responder can read every
initiation that was made for it, and the initiator accepts the response.
-/
namespace EdgeScan.Handshake

/-! Packets -/

section Packets

variable {l front rest body index receiver ephemeral static timestamp nothing : List UInt8}
  {start stop n : Nat}

lemma slice_append_left (h : stop ≤ front.length) :
    slice (front ++ rest) start stop = slice front start stop := by
  rw [slice, slice, List.drop_append, List.take_append_of_le_length]
  rw [List.length_drop]
  omega

lemma slice_append_right (h : front.length ≤ start) :
    slice (front ++ rest) start stop = slice rest (start - front.length) (stop - front.length) := by
  have width : stop - start = stop - front.length - (start - front.length) := by omega
  rw [slice, slice, List.drop_append, List.drop_of_length_le h, List.nil_append, width]

lemma slice_of_length_eq (h : l.length = n) : slice l 0 n = l := by
  rw [slice, List.drop_zero, Nat.sub_zero, List.take_of_length_le (Nat.le_of_eq h)]

/-- The bytes of an initiation that its code vouches for. -/
def initiationBody (index ephemeral static timestamp : List UInt8) : List UInt8 :=
  [initiationType, 0, 0, 0] ++ index ++ ephemeral ++ static ++ timestamp

def responseBody (index receiver ephemeral nothing : List UInt8) : List UInt8 :=
  [responseType, 0, 0, 0] ++ index ++ receiver ++ ephemeral ++ nothing

/-- A packet: its body, the code by which the owner of a public key knows it, and no second code. -/
def Primitives.packet (p : Primitives) (owner : Bytes 32) (body : List UInt8) : List UInt8 :=
  body ++ (p.code owner body).toList ++ List.replicate 16 0

/-- The fields that an initiation is read as. -/
structure InitiationReads (packet index ephemeral static timestamp : List UInt8) : Prop where
  length : packet.length = initiationLength
  type : packet.getD 0 0 = initiationType
  index : slice packet 4 8 = index
  ephemeral : slice packet 8 40 = ephemeral
  static : slice packet 40 88 = static
  timestamp : slice packet 88 116 = timestamp

/-- The fields that a response is read as. -/
structure ResponseReads (packet index receiver ephemeral nothing : List UInt8) : Prop where
  length : packet.length = responseLength
  type : packet.getD 0 0 = responseType
  index : slice packet 4 8 = index
  receiver : slice packet 8 12 = receiver
  ephemeral : slice packet 12 44 = ephemeral
  nothing : slice packet 44 60 = nothing

lemma length_initiationBody (hindex : index.length = 4) (hephemeral : ephemeral.length = 32)
    (hstatic : static.length = 48) (htimestamp : timestamp.length = 28) :
    (initiationBody index ephemeral static timestamp).length = 116 := by
  simp [initiationBody, hindex, hephemeral, hstatic, htimestamp]

theorem initiationReads (p : Primitives) (owner : Bytes 32) (hindex : index.length = 4)
    (hephemeral : ephemeral.length = 32) (hstatic : static.length = 48)
    (htimestamp : timestamp.length = 28) :
    InitiationReads (p.packet owner (initiationBody index ephemeral static timestamp)) index
      ephemeral static timestamp := by
  refine ⟨?_, rfl, ?_, ?_, ?_, ?_⟩
  · simp [Primitives.packet, length_initiationBody, hindex, hephemeral, hstatic, htimestamp,
      initiationLength]
  all_goals
    simp (disch := simp [*]) only [Primitives.packet, initiationBody, slice_append_left,
      slice_append_right, slice_of_length_eq, List.length_append, List.length_cons, List.length_nil,
      hindex, hephemeral, hstatic, Nat.zero_add, Nat.reduceAdd, Nat.reduceSub]

theorem responseReads (p : Primitives) (owner : Bytes 32) (hindex : index.length = 4)
    (hreceiver : receiver.length = 4) (hephemeral : ephemeral.length = 32)
    (hnothing : nothing.length = 16) :
    ResponseReads (p.packet owner (responseBody index receiver ephemeral nothing)) index receiver
      ephemeral nothing := by
  refine ⟨?_, rfl, ?_, ?_, ?_, ?_⟩
  · simp [Primitives.packet, responseBody, hindex, hreceiver, hephemeral, hnothing, responseLength]
  all_goals
    simp (disch := simp [*]) only [Primitives.packet, responseBody, slice_append_left,
      slice_append_right, slice_of_length_eq, List.length_append, List.length_cons, List.length_nil,
      hindex, hreceiver, hephemeral, Nat.zero_add, Nat.reduceAdd, Nat.reduceSub]

/-- The owner of a public key finds the code in a packet that was made for it. -/
theorem code_packet (p : Primitives) (owner : Bytes 32) (h : body.length = n) :
    (p.code owner (slice (p.packet owner body) 0 n)).toList =
      slice (p.packet owner body) n (n + 16) := by
  have signed : slice (p.packet owner body) 0 n = body := by
    rw [Primitives.packet, List.append_assoc, slice_append_left (by omega), slice_of_length_eq h]
  have code : slice (p.packet owner body) n (n + 16) = (p.code owner body).toList := by
    rw [Primitives.packet, List.append_assoc, slice_append_right (by omega), h, Nat.sub_self,
      Nat.add_sub_cancel_left, slice_append_left (by simp), slice_of_length_eq (by simp)]
  rw [signed, code]

lemma littleEndian_toNat (i : UInt32) : littleEndian (toLittleEndian 4 i.toNat) = i.toNat := by
  rw [littleEndian_toLittleEndian]
  exact Nat.mod_eq_of_lt i.toNat_lt

lemma toUInt32_littleEndian (i : UInt32) :
    (littleEndian (toLittleEndian 4 i.toNat)).toUInt32 = i := by
  rw [littleEndian_toNat]
  exact UInt32.ofNat_toNat

end Packets

/-! What each side computes -/

namespace Primitives

variable (p : Primitives)

/-- The transcript in which the initiator's public key is encrypted, and the key for it. -/
def opening (responder ephemeral shared : Bytes 32) : Transcript × Bytes 32 :=
  p.mixKey (p.absorb (p.mix (p.start responder) ephemeral) ephemeral.toList) shared

/-- The transcript in which a response is authenticated, and the key for it. -/
def closing (t : Transcript) (ephemeral shared₁ shared₂ preshared : Bytes 32) :
    Transcript × Bytes 32 :=
  p.mixPreshared (p.mix (p.mix (p.absorb (p.mix t ephemeral) ephemeral.toList) shared₁) shared₂)
    preshared

end Primitives

variable {p : Primitives} {t₁ t₂ t₃ : Transcript} {k₁ k₂ k₃ : Bytes 32}
  {packet index receiver static timestamp nothing : List UInt8}

theorem Initiation.new_eq {keys : Keys} {ephemeral : Bytes 32} {time : Bytes 12} (i : UInt32)
    (first : p.opening keys.peerPublicKey (p.publicKey ephemeral)
      (p.shared ephemeral keys.peerPublicKey) = (t₁, k₁))
    (named : p.encrypt k₁ keys.publicKey.toList t₁.hash.toList = static)
    (second : p.mixKey (p.absorb t₁ static) (p.shared keys.secret keys.peerPublicKey) = (t₂, k₂))
    (dated : p.encrypt k₂ time.toList t₂.hash.toList = timestamp) :
    Initiation.new p keys ephemeral i time =
      ⟨p.packet keys.peerPublicKey (initiationBody (toLittleEndian 4 i.toNat)
        (p.publicKey ephemeral).toList static timestamp), i, ephemeral, p.absorb t₂ timestamp⟩ := by
  rw [Primitives.opening] at first
  simp only [Initiation.new, first, named, second, dated]
  rfl

/-- How a responder answers an initiation that it can read. -/
theorem Responder.respond_eq {r : Responder} {theirs ephemeral initiator : Bytes 32}
    {time : List UInt8} (j : UInt32)
    (reads : InitiationReads packet index theirs.toList static timestamp)
    (code : (p.code r.publicKey (slice packet 0 116)).toList = slice packet 116 132)
    (first : p.opening r.publicKey theirs (p.shared r.secret theirs) = (t₁, k₁))
    (named : p.decrypt? k₁ static t₁.hash.toList = some initiator.toList)
    (second : p.mixKey (p.absorb t₁ static) (p.shared r.secret initiator) = (t₂, k₂))
    (dated : p.decrypt? k₂ timestamp t₂.hash.toList = some time)
    (last : p.closing (p.absorb t₂ timestamp) (p.publicKey ephemeral) (p.shared ephemeral theirs)
      (p.shared ephemeral initiator) r.preshared = (t₃, k₃)) :
    r.respond p ephemeral j packet = .ok ⟨initiator, time, p.packet initiator (responseBody
      (toLittleEndian 4 j.toNat) index (p.publicKey ephemeral).toList
      (p.encrypt k₃ [] t₃.hash.toList))⟩ := by
  rw [Primitives.opening] at first
  rw [Primitives.closing] at last
  simp only [respond, reads.length, reads.type, code, reads.index, reads.ephemeral, reads.static,
    reads.timestamp, Bytes.ofList_toList, first, decrypt, named, second, dated, last, bind,
    Except.bind, pure, Except.pure, ne_eq, not_true, or_self, if_false]
  rfl

theorem Initiation.consume_eq {keys : Keys} {ephemeral theirs : Bytes 32} {i : UInt32}
    {sent opened : List UInt8} (reads : ResponseReads packet index receiver theirs.toList nothing)
    (mine : littleEndian receiver = i.toNat)
    (last : p.closing t₂ theirs (p.shared ephemeral theirs) (p.shared keys.secret theirs)
      keys.preshared = (t₃, k₃))
    (authentic : p.decrypt? k₃ nothing t₃.hash.toList = some opened) :
    consume p ⟨sent, i, ephemeral, t₂⟩ keys packet = .ok (littleEndian index).toUInt32 := by
  have enough : ¬responseLength < responseNeeded := by decide
  rw [Primitives.closing] at last
  simp only [consume, reads.length, reads.type, reads.index, reads.receiver, reads.ephemeral,
    reads.nothing, enough, mine, Bytes.ofList_toList, last, authentic, if_false, ne_eq, not_true]

/-! Agreement -/

/-- A responder accepts every initiation that was made for it and learns from it who sent it and
when, and the initiator accepts the response, provided that each secret of one side makes the same
shared secret with each of the other's, and that what was encrypted can be decrypted. -/
theorem respond_and_consume {secret ephemeral theirSecret theirEphemeral : Bytes 32}
    (commutes : ∀ a ∈ [secret, ephemeral], ∀ b ∈ [theirSecret, theirEphemeral],
      p.shared a (p.publicKey b) = p.shared b (p.publicKey a))
    (opens : ∀ key text associated,
      p.decrypt? key (p.encrypt key text associated) associated = some text)
    (expands : ∀ key text associated, (p.encrypt key text associated).length = text.length + 16)
    {preshared theirPreshared : Option (Bytes 32)}
    (same : preshared.getD (.zero 32) = theirPreshared.getD (.zero 32))
    (i j : UInt32) (timestamp : Bytes 12) :
    let responder := Responder.new p theirSecret theirPreshared
    let keys := Keys.new p secret responder.publicKey preshared
    let init := Initiation.new p keys ephemeral i timestamp
    (p.code responder.publicKey (slice init.packet 0 116)).toList = slice init.packet 116 132 ∧
      ∃ response, responder.respond p theirEphemeral j init.packet =
          .ok ⟨keys.publicKey, timestamp.toList, response⟩ ∧
        response.length = responseLength ∧ init.consume p keys response = .ok j := by
  intro responder keys init
  simp only [List.forall_mem_cons, List.not_mem_nil, false_imp_iff, implies_true,
    and_true] at commutes
  obtain ⟨⟨static_static, static_ephemeral⟩, ephemeral_static, ephemeral_ephemeral⟩ := commutes
  -- the transcripts and keys of the initiator, step by step
  obtain ⟨t₁, k₁, first⟩ : ∃ t k, p.opening responder.publicKey (p.publicKey ephemeral)
      (p.shared ephemeral responder.publicKey) = (t, k) := ⟨_, _, rfl⟩
  obtain ⟨static, named⟩ : ∃ text, p.encrypt k₁ keys.publicKey.toList t₁.hash.toList = text :=
    ⟨_, rfl⟩
  obtain ⟨t₂, k₂, second⟩ : ∃ t k, p.mixKey (p.absorb t₁ static)
      (p.shared secret responder.publicKey) = (t, k) := ⟨_, _, rfl⟩
  obtain ⟨time, dated⟩ : ∃ text, p.encrypt k₂ timestamp.toList t₂.hash.toList = text := ⟨_, rfl⟩
  obtain ⟨t₃, k₃, last⟩ : ∃ t k, p.closing (p.absorb t₂ time) (p.publicKey theirEphemeral)
      (p.shared ephemeral (p.publicKey theirEphemeral))
      (p.shared secret (p.publicKey theirEphemeral)) keys.preshared = (t, k) := ⟨_, _, rfl⟩
  have written : init = _ := Initiation.new_eq i first named second dated
  clear_value init
  have hstatic : static.length = 48 := by rw [← named, expands, Bytes.length_toList]
  have htime : time.length = 28 := by rw [← dated, expands, Bytes.length_toList]
  have code := code_packet p responder.publicKey (length_initiationBody
    (length_toLittleEndian 4 i.toNat) (p.publicKey ephemeral).length_toList hstatic htime)
  -- the responder goes through the same ones
  have answered : responder.respond p theirEphemeral j init.packet =
      .ok ⟨keys.publicKey, timestamp.toList, p.packet keys.publicKey (responseBody
        (toLittleEndian 4 j.toNat) (toLittleEndian 4 i.toNat) (p.publicKey theirEphemeral).toList
        (p.encrypt k₃ [] t₃.hash.toList))⟩ := by
    have first' : p.opening responder.publicKey (p.publicKey ephemeral)
        (p.shared responder.secret (p.publicKey ephemeral)) = (t₁, k₁) := by
      rw [← first, show p.shared ephemeral responder.publicKey = _ from ephemeral_static]
      rfl
    have second' : p.mixKey (p.absorb t₁ static) (p.shared responder.secret keys.publicKey) =
        (t₂, k₂) := by
      rw [← second, show p.shared secret responder.publicKey = _ from static_static]
      rfl
    have last' : p.closing (p.absorb t₂ time) (p.publicKey theirEphemeral)
        (p.shared theirEphemeral (p.publicKey ephemeral)) (p.shared theirEphemeral keys.publicKey)
        responder.preshared = (t₃, k₃) := by
      rw [← last, ephemeral_ephemeral, static_ephemeral,
        show keys.preshared = responder.preshared from same]
      rfl
    rw [written]
    exact Responder.respond_eq j (initiationReads p responder.publicKey
      (length_toLittleEndian 4 i.toNat) (p.publicKey ephemeral).length_toList hstatic htime) code
      first' (by rw [← named, opens]) second' (by rw [← dated, opens]) last'
  have nothing : (p.encrypt k₃ [] t₃.hash.toList).length = 16 := expands _ _ _
  have reads := responseReads p keys.publicKey (length_toLittleEndian 4 j.toNat)
    (length_toLittleEndian 4 i.toNat) (p.publicKey theirEphemeral).length_toList nothing
  have accepted : init.consume p keys (p.packet keys.publicKey (responseBody
      (toLittleEndian 4 j.toNat) (toLittleEndian 4 i.toNat) (p.publicKey theirEphemeral).toList
      (p.encrypt k₃ [] t₃.hash.toList))) = .ok j := by
    rw [written]
    exact (Initiation.consume_eq reads (littleEndian_toNat i) last (opens _ _ _)).trans
      (congrArg Except.ok (toUInt32_littleEndian j))
  exact ⟨by rw [written]; exact code, _, answered, reads.length, accepted⟩

theorem respond_and_consume_wireGuard :
    let p := Primitives.wireGuard
    let key (b : UInt8) : Bytes 32 := .ofList 32 (List.replicate 32 b)
    let responder := Responder.new p (key 7) (some (.zero 32))
    let keys := Keys.new p (key 9) responder.publicKey none
    let init := Initiation.new p keys (key 1) 305419896 (.zero 12)
    (p.code responder.publicKey (slice init.packet 0 116)).toList = slice init.packet 116 132 ∧
      ∃ response, responder.respond p (key 2) 4242 init.packet =
          .ok ⟨keys.publicKey, List.replicate 12 0, response⟩ ∧
        response.length = responseLength ∧ init.consume p keys response = .ok 4242 :=
  respond_and_consume (by decide +kernel)
    (fun key text associated => ChaCha20Poly1305.decrypt?_encrypt key text associated)
    (fun key text associated => ChaCha20Poly1305.length_encrypt key text associated) rfl
    305419896 4242 (.zero 12)

end EdgeScan.Handshake
