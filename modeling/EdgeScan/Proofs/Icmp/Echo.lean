import EdgeScan.Proofs.Icmp.Checksum

/-!
Echo packets in transit. A request is read back as it was written, behind any IP header that says how
long it is and in front of any data. Every packet is read without going beyond its end, and it is an
echo packet as soon as eight bytes are left behind the IP header.
-/
namespace EdgeScan.Icmp

variable {packet header back : List UInt8} {a : Address} {socket : SocketKind}
  {ident seq : UInt16}

/-! IP headers -/

/-- The number of bytes in front of an ICMP packet. A raw IPv4 socket delivers an IP header, and the
lower half of its first byte says how many words of four bytes it has. -/
def skipped (packet : List UInt8) (a : Address) (socket : SocketKind) : ℕ :=
  match a, socket, packet with
  | .v4 _, .raw, first :: _ => first.toNat % 16 * 4
  | _, _, _ => 0

/-- What a socket puts in front of an ICMP packet. -/
inductive Framing : Address → SocketKind → List UInt8 → Prop
  | ipHeader {ip : IPv4} {first : UInt8} {more : List UInt8} {words : ℕ} (least : 5 ≤ words)
      (most : words ≤ 15) (length : (first :: more).length = 4 * words)
      (told : first.toNat % 16 = words) : Framing (.v4 ip) .raw (first :: more)
  | datagram {a : Address} : Framing a .datagram []
  | ipv6 {ip : IPv6} {socket : SocketKind} : Framing (.v6 ip) socket []

theorem payload_eq (packet : List UInt8) (a : Address) (socket : SocketKind) :
    payload packet a socket = packet.drop (skipped packet a socket) := by
  have low (x : UInt8) : (x &&& 0x0f).toNat = x.toNat % 16 :=
    Nat.and_two_pow_sub_one_eq_mod x.toNat 4
  cases a with
  | v4 ip =>
    cases socket with
    | raw => cases packet <;> simp [payload, skipped, Address.isIPv4, low]
    | datagram => simp [payload, skipped]
  | v6 ip => simp [payload, skipped, Address.isIPv4]

lemma Framing.skipped_append (h : Framing a socket header) (packet : List UInt8) :
    skipped (header ++ packet) a socket = header.length := by
  cases h with
  | ipHeader _ _ length told =>
    simp only [skipped, List.cons_append, told, length]
    omega
  | datagram => simp [skipped]
  | ipv6 => simp [skipped]

theorem Framing.payload_append (h : Framing a socket header) (packet : List UInt8) :
    payload (header ++ packet) a socket = packet := by
  rw [payload_eq, h.skipped_append, List.drop_left]

/-! ICMP headers -/

lemma word_bigEndian (w : UInt16) : word (w >>> 8).toUInt8 w.toUInt8 = w := by
  have written : words (bigEndian w ++ []) = [w.toNat] := words_bigEndian w
  simp only [bigEndian, List.append_nil, words, List.cons.injEq, and_true] at written
  rw [← UInt16.toNat_inj, toNat_word, written]

lemma parse_congr {other : List UInt8} {b : Address} {kind : SocketKind}
    (h : payload packet a socket = payload other b kind) :
    parse packet a socket = parse other b kind := by
  rw [parse, parse, h]

theorem parse_echoRequest (h : payload packet a socket = echoRequest a ident seq ++ back) :
    parse packet a socket = .ok ⟨requestType a, ident, seq⟩ := by
  simp only [parse, h, echoRequest, bigEndian, List.cons_append, List.nil_append, word_bigEndian]

lemma parse_of_short (h : (payload packet a socket).length < headerLength) :
    parse packet a socket = .error (.malformedReply
      s!"icmp packet too short: {(payload packet a socket).length} bytes") := by
  unfold parse
  split
  · rename_i enough
    simp only [enough, List.length_cons, headerLength] at h
    omega
  · rfl

/-- The reading of a packet with every read in bounds: it has no outcome if it comes to a byte that the
packet does not have. -/
def parse? (packet : List UInt8) (a : Address) (socket : SocketKind) :
    Option (Except ProbeError Echo) :=
  let icmp := packet.drop (skipped packet a socket)
  if icmp.length < headerLength then
    some (.error (.malformedReply s!"icmp packet too short: {icmp.length} bytes"))
  else do
    let kind ← icmp[0]?
    let ident := word (← icmp[4]?) (← icmp[5]?)
    let seq := word (← icmp[6]?) (← icmp[7]?)
    return .ok ⟨kind, ident, seq⟩

lemma exists_of_enough (h : headerLength ≤ (payload packet a socket).length) :
    ∃ echo, parse packet a socket = .ok echo ∧ parse? packet a socket = some (.ok echo) := by
  simp only [parse?, parse, ← payload_eq]
  match payload packet a socket, h with
  | kind :: _ :: _ :: _ :: i₀ :: i₁ :: s₀ :: s₁ :: _, _ =>
    exact ⟨⟨kind, word i₀ i₁, word s₀ s₁⟩, rfl, rfl⟩

/-- Every packet is read to an outcome: no byte is read that is not there. -/
theorem parse?_eq (packet : List UInt8) (a : Address) (socket : SocketKind) :
    parse? packet a socket = some (parse packet a socket) := by
  by_cases short : (payload packet a socket).length < headerLength
  · rw [parse_of_short short]
    rw [payload_eq] at short ⊢
    exact if_pos short
  · obtain ⟨echo, parsed, read⟩ := exists_of_enough (Nat.not_lt.mp short)
    rw [parsed, read]

theorem exists_parse_eq_ok_iff : (∃ echo, parse packet a socket = .ok echo) ↔
    skipped packet a socket + headerLength ≤ packet.length := by
  have length : (payload packet a socket).length = packet.length - skipped packet a socket := by
    rw [payload_eq, List.length_drop]
  constructor
  · rintro ⟨echo, parsed⟩
    by_contra few
    have short : (payload packet a socket).length < headerLength := by
      rw [length]
      simp only [headerLength] at few ⊢
      omega
    rw [parse_of_short short] at parsed
    cases parsed
  · intro enough
    have enough : headerLength ≤ (payload packet a socket).length := by omega
    obtain ⟨echo, parsed, -⟩ := exists_of_enough enough
    exact ⟨echo, parsed⟩

/-- A request is read back with its identifier and its number in every framing, whatever data follows it.
A packet can be read exactly if it has eight bytes behind its IP header, no byte is read that a packet
does not have, and on a raw IPv4 socket a packet is read as a datagram socket would read it without
its IP header. -/
theorem parse_of_framing (a : Address) :
    (∀ ident seq socket header data, Framing a socket header →
      parse (header ++ (echoRequest a ident seq ++ data)) a socket =
        .ok ⟨requestType a, ident, seq⟩) ∧
    ∀ packet socket,
      ((∃ echo, parse packet a socket = .ok echo) ↔
        skipped packet a socket + headerLength ≤ packet.length) ∧
      parse? packet a socket = some (parse packet a socket) ∧
      (a.isIPv4 → parse packet a .raw =
        parse (packet.drop (skipped packet a .raw)) a .datagram) := by
  refine ⟨fun ident seq socket header data framing => ?_, fun packet socket =>
    ⟨exists_parse_eq_ok_iff, parse?_eq packet a socket, fun _ => parse_congr ?_⟩⟩
  · exact parse_echoRequest (framing.payload_append _)
  · have bare := Framing.payload_append (.datagram (a := a)) (packet.drop (skipped packet a .raw))
    rw [payload_eq]
    exact bare.symm

/-- A request behind an IP header of six words and in front of three bytes of data, and a packet that
lacks the last byte of its ICMP header. -/
theorem parse_of_framing_six_words :
    let a : Address := .v4 ⟨0x01020304⟩
    let header : List UInt8 := 0x46 :: List.replicate 23 0xff
    let short : List UInt8 := header ++ List.replicate 7 0
    Framing a .raw header ∧
      parse (header ++ (echoRequest a 0x1234 7 ++ [1, 2, 3])) a .raw = .ok ⟨8, 0x1234, 7⟩ ∧
      (¬∃ echo, parse short a .raw = .ok echo) ∧
      parse short a .raw = parse (List.replicate 7 0) a .datagram := by
  intro a header short
  have framing : Framing a .raw header := .ipHeader (by decide : 5 ≤ 6) (by decide) rfl (by decide)
  obtain ⟨inverts, reads⟩ := parse_of_framing a
  obtain ⟨enough, -, bare⟩ := reads short .raw
  have behind : skipped short a .raw = 24 := by decide
  refine ⟨framing, inverts _ _ _ _ _ framing, ?_, bare rfl⟩
  rw [enough, behind]
  decide

end EdgeScan.Icmp
