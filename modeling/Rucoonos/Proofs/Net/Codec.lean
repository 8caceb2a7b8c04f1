/-
What the IPv4 and UDP parsers make of the bytes of a packet.

The header parser reads some fields at other places, and with other widths, than
`to_bytes` writes them: the two parts of the service byte with a border one bit higher,
the flags and the fragment offset one byte further on.  A header survives only if its
fields happen to agree with what stands there.

The payload of both parsers runs to the end of the frame, whatever the length fields
say, so it is what was sent only if nothing follows it.
-/
import Rucoonos.Proofs.Net.Parsing

namespace Rucoonos

open Slice BigEndian

/-! ### The IPv4 header -/

namespace Ipv4

/-- The fields of a header fit the places they have on the wire. -/
structure PacketHeader.FitsWire (h : PacketHeader) : Prop where
  version : h.version.toNat < 16
  ihl : h.ihl = 5
  dscp : h.dscp.toNat < 64
  ecn : h.ecn.toNat < 4
  flags : h.flags.toNat < 8
  fragmentOffset : h.fragmentOffset.toNat < 2 ^ 13
  protocol : ∃ raw, h.protocol = .ofU8 raw

theorem Protocol.ofU8_toU8 {protocol : Protocol} (h : ∃ raw, protocol = .ofU8 raw) :
    Protocol.ofU8 protocol.toU8 = protocol := by
  obtain ⟨raw, rfl⟩ := h
  rw [Protocol.toU8_ofU8]

section Reread

variable (h : PacketHeader) (hfits : h.FitsWire)
include hfits

theorem PacketHeader.reread_version (low : UInt8) : (h.reread low).version = h.version := by
  have hversion := hfits.version
  refine UInt8.toNat_inj.mp ?_
  show ((_ : UInt8) >>> 4).toNat = _
  rw [toNat_shiftRight _ (by decide), toNat_version_ihl, hfits.ihl]
  show (_ * 16 + 5) / 16 = _
  omega

theorem PacketHeader.reread_ihl (low : UInt8) : (h.reread low).ihl = h.ihl := by
  refine UInt8.toNat_inj.mp ?_
  show ((_ : UInt8) &&& 0x0f).toNat = _
  rw [toNat_mask (k := 4) _ rfl, toNat_version_ihl, hfits.ihl]
  show (_ * 16 + 5) % 16 = 5
  omega

/-- Both parts of the service byte survive if the upper one is zero and the lower one is
a single bit. -/
theorem PacketHeader.reread_service (low : UInt8) :
    (h.reread low).dscp = h.dscp ∧ (h.reread low).ecn = h.ecn ↔
      h.dscp = 0 ∧ h.ecn.toNat ≤ 1 := by
  have hdscp := hfits.dscp
  have hecn := hfits.ecn
  have hmod : h.dscp.toNat % 128 = h.dscp.toNat := Nat.mod_eq_of_lt (by omega)
  have hread : (h.reread low).dscp.toNat = (h.dscp.toNat * 2 + h.ecn.toNat % 2) / 4 := by
    show ((_ : UInt8) >>> 2).toNat = _
    rw [toNat_shiftRight _ (by decide), toNat_dscp_ecn, hmod]
    rfl
  have hread' : (h.reread low).ecn.toNat = (h.dscp.toNat * 2 + h.ecn.toNat % 2) % 4 := by
    show ((_ : UInt8) &&& 0x03).toNat = _
    rw [toNat_mask (k := 2) _ rfl, toNat_dscp_ecn, hmod]
    rfl
  rw [← UInt8.toNat_inj, ← UInt8.toNat_inj, ← UInt8.toNat_inj, hread, hread', UInt8.toNat_zero]
  omega

/-- The low byte of the fragment offset is read as its high byte and the flags, and the
time to live as its low byte. -/
theorem PacketHeader.reread_fragment :
    (h.reread h.offsetLow).flags = h.flags ∧
        (h.reread h.offsetLow).fragmentOffset = h.fragmentOffset ↔
      h.flags.toNat = h.ttl.toNat / 32 ∧
        h.fragmentOffset.toNat = h.ttl.toNat % 32 * 256 + h.ttl.toNat := by
  have hoffset := hfits.fragmentOffset
  have httl := h.ttl.toNat_lt
  have hlow : h.offsetLow.toNat = h.fragmentOffset.toNat % 256 := UInt8.toNat_ofNat'
  have hread : (h.reread h.offsetLow).flags.toNat = h.fragmentOffset.toNat % 256 / 32 := by
    show (h.offsetLow >>> 5).toNat = _
    rw [toNat_shiftRight _ (by decide), hlow]
    rfl
  have hread' : (h.reread h.offsetLow).fragmentOffset.toNat
      = h.fragmentOffset.toNat % 256 % 32 * 256 + h.ttl.toNat := by
    show (u16FromBe (pair (h.offsetLow &&& 0x1f) h.ttl)).toNat = _
    rw [toNat_u16FromBe_pair, toNat_mask (k := 5) _ rfl, hlow]
    rfl
  rw [← UInt8.toNat_inj, ← UInt16.toNat_inj, hread, hread']
  -- In either direction the low byte of the offset is the time to live.
  constructor
  · rintro ⟨hflags, heq⟩
    have hmod : h.fragmentOffset.toNat % 256 = h.ttl.toNat := by omega
    rw [hmod] at hflags heq
    exact ⟨hflags.symm, heq.symm⟩
  · rintro ⟨hflags, heq⟩
    have hmod : h.fragmentOffset.toNat % 256 = h.ttl.toNat := by omega
    rw [hmod]
    exact ⟨hflags.symm, heq.symm⟩

theorem PacketHeader.reread_eq_iff :
    h.reread h.offsetLow = h ↔
      (h.dscp = 0 ∧ h.ecn.toNat ≤ 1) ∧ h.flags.toNat = h.ttl.toNat / 32 ∧
        h.fragmentOffset.toNat = h.ttl.toNat % 32 * 256 + h.ttl.toNat := by
  rw [← h.reread_service hfits h.offsetLow, ← h.reread_fragment hfits]
  constructor
  · intro heq
    rw [heq]
    exact ⟨⟨rfl, rfl⟩, rfl, rfl⟩
  · rintro ⟨⟨hdscp, hecn⟩, hflags, hoffset⟩
    have hversion := h.reread_version hfits h.offsetLow
    have hihl := h.reread_ihl hfits h.offsetLow
    have hprotocol : (h.reread h.offsetLow).protocol = h.protocol :=
      Protocol.ofU8_toU8 hfits.protocol
    show (⟨(h.reread h.offsetLow).version, (h.reread h.offsetLow).ihl,
      (h.reread h.offsetLow).dscp, (h.reread h.offsetLow).ecn, h.totalLength, h.identification,
      (h.reread h.offsetLow).flags, (h.reread h.offsetLow).fragmentOffset, h.ttl,
      (h.reread h.offsetLow).protocol, h.headerChecksum, h.sourceIp, h.destinationIp⟩ :
        PacketHeader) = h
    rw [hversion, hihl, hdscp, hecn, hflags, hoffset, hprotocol]

end Reread

/--
**When a header survives the wire.**  For every header whose fields fit their places and
every frame whose content starts with what `to_bytes` writes, `header` returns the
header exactly if its service class is zero and its congestion field at most one, and
its flags and its fragment offset are what the time to live says in their places.
-/
theorem header_round_trip_iff (h : PacketHeader) (hfits : h.FitsWire) (p : Packet)
    (content bytes : Bytes) (hcontent : p.ethPacket.content = .ok content)
    (hbytes : h.toBytes (zeros 20) = .ok (bytes, some ())) (hstart : bytes <+: content) :
    p.header = .ok h ↔
      h.dscp = 0 ∧ h.ecn.toNat ≤ 1 ∧ h.flags.toNat = h.ttl.toNat / 32 ∧
        h.fragmentOffset.toNat = h.ttl.toNat % 32 * 256 + h.ttl.toNat := by
  rw [h.toBytes_eq (by simp), List.drop_of_length_le (by simp), List.append_nil] at hbytes
  cases hbytes
  obtain ⟨rest, rfl⟩ := hstart
  have hlow : index (h.bytes ++ rest) 7 = .ok h.offsetLow := (h.wire_holds rest).index 5 rfl
  rw [p.header_eq hcontent (h.bytes_holds rest) hfits.ihl hlow, Except.ok.injEq,
    h.reread_eq_iff hfits, and_assoc]

/-- A header with nothing in it but its lengths, a protocol and this time to live. -/
def bareHeader (ttl : UInt8) : PacketHeader where
  version := 4
  ihl := 5
  dscp := 0
  ecn := 0
  totalLength := 20
  identification := 7
  flags := 0
  fragmentOffset := 0
  ttl := ttl
  protocol := .udp
  headerChecksum := 0
  sourceIp := noIp
  destinationIp := noIp

theorem bareHeader_fits (ttl : UInt8) : (bareHeader ttl).FitsWire :=
  ⟨(by decide : (4 : UInt8).toNat < 16), rfl, (by decide : (0 : UInt8).toNat < 64),
    (by decide : (0 : UInt8).toNat < 4), (by decide : (0 : UInt8).toNat < 8),
    (by decide : (0 : UInt16).toNat < 2 ^ 13), 17, rfl⟩

/-- The frame that carries it and nothing else. -/
def bareFrame (ttl : UInt8) : Packet := ⟨⟨Buffer.new (zeros 14 ++ (bareHeader ttl).bytes)⟩⟩

theorem bareFrame_content (ttl : UInt8) :
    (bareFrame ttl).ethPacket.content = .ok (bareHeader ttl).bytes := by
  have hlen := (bareHeader ttl).length_bytes
  have hfits : Net.bufferFits (zeros 14 ++ (bareHeader ttl).bytes) = true := by
    rw [Net.bufferFits, decide_eq_true_iff, List.length_append, hlen, length_zeros]
    omega
  rw [bareFrame, Net.content_new hfits, List.drop_left' (length_zeros 14)]

theorem bareHeader_toBytes (ttl : UInt8) :
    (bareHeader ttl).toBytes (zeros 20) = .ok ((bareHeader ttl).bytes, some ()) := by
  rw [PacketHeader.toBytes_eq _ (by simp), List.drop_of_length_le (by simp), List.append_nil]

theorem header_round_trip_iff_dead : (bareFrame 0).header = .ok (bareHeader 0) :=
  (header_round_trip_iff (bareHeader 0) (bareHeader_fits 0) (bareFrame 0) _ _ (bareFrame_content 0)
    (bareHeader_toBytes 0) (List.prefix_refl _)).mpr (by decide)

/-- A header that is not a fragment is read with its time to live as the offset. -/
theorem ttl_read_as_offset :
    (bareHeader 64).FitsWire ∧ (bareFrame 64).ethPacket.content = .ok (bareHeader 64).bytes ∧
      (bareHeader 64).toBytes (zeros 20) = .ok ((bareHeader 64).bytes, some ()) ∧
      (bareFrame 64).header = .ok { bareHeader 64 with fragmentOffset := 64 } :=
  ⟨bareHeader_fits 64, bareFrame_content 64, bareHeader_toBytes 64, by decide +kernel⟩

end Ipv4

/-! ### The payload -/

/-- The content of a frame is an IPv4 packet with a UDP datagram and what follows it, with
lengths that agree. -/
structure CarriesUdp (content : Bytes) (ihl totalLength : Nat) : Prop where
  first : (content.getD 0 0).toNat % 16 = ihl
  words : 5 ≤ ihl
  total : decode (sub content 2 4) = totalLength
  datagram : 4 * ihl + 8 ≤ totalLength
  covered : totalLength ≤ content.length
  protocol : content.getD 9 0 = 17
  udpLength : decode (sub content (4 * ihl + 4) (4 * ihl + 6)) = totalLength - 4 * ihl

theorem CarriesUdp.ihlSize {content : Bytes} {ihl totalLength : Nat}
    (h : CarriesUdp content ihl totalLength) : Net.ihlSize content = 4 * ihl := by
  rw [Net.ihlSize, toNat_mask (k := 4) _ rfl, ← h.first]
  omega

/--
**When a payload ends where it should.**  For every frame with a UDP datagram in an IPv4
packet, whatever follows the packet: the IPv4 payload has the length the header gives it
and the UDP payload is the data and nothing else, exactly if nothing follows.
-/
theorem payload_exact_iff (p : Ipv4.Packet) (content : Bytes) (ihl totalLength : Nat)
    (hcontent : p.ethPacket.content = .ok content) (h : CarriesUdp content ihl totalLength) :
    ((∃ payload, p.payload = .ok payload ∧ payload.length = totalLength - 4 * ihl) ∧
      Udp.Packet.payload ⟨p⟩ = .ok (sub content (4 * ihl + 8) totalLength)) ↔
      content.length = totalLength := by
  have hsize := h.ihlSize
  have hwords := h.words
  have hdatagram := h.datagram
  have hcovered := h.covered
  have hpayload : p.payload = .ok (content.drop (4 * ihl)) := by
    rw [Net.payload_sized hcontent (by omega), hsize]
  have hlen : (content.drop (4 * ihl)).length = content.length - 4 * ihl := List.length_drop
  have hudp : Udp.Packet.payload ⟨p⟩ = .ok (content.drop (4 * ihl + 8)) := by
    rw [Udp.Packet.payload, hpayload, ok_bind, range_ok (by omega) (Nat.le_refl _), sub_length,
      List.drop_drop]
  rw [hpayload, hudp]
  constructor
  · rintro ⟨⟨payload, hok, hpl⟩, -⟩
    cases hok
    omega
  · intro heq
    refine ⟨⟨_, rfl, by omega⟩, ?_⟩
    rw [← heq, sub_length]

/-- A datagram from 10.0.0.1 to 10.0.0.2, and what follows it in the frame. -/
def datagramContent (data padding : Bytes) : Bytes :=
  [0x45, 0] ++ u16ToBe (UInt16.ofNat (28 + data.length)) ++
    [0, 7, 0, 0, 64, 17, 0, 0, 10, 0, 0, 1, 10, 0, 0, 2, 0x16, 0x2e, 0, 53] ++
    u16ToBe (UInt16.ofNat (8 + data.length)) ++ [0, 0] ++ data ++ padding

def datagramFrame (data padding : Bytes) : Ipv4.Packet :=
  ⟨⟨Buffer.new (zeros 12 ++ [0x08, 0x00] ++ datagramContent data padding)⟩⟩

theorem payload_exact_iff_unpadded :
    Udp.Packet.payload ⟨datagramFrame (zeros 18) []⟩ = .ok (zeros 18) :=
  ((payload_exact_iff (datagramFrame (zeros 18) []) (datagramContent (zeros 18) []) 5 46
    (by decide +kernel) ⟨by decide, by decide, by decide, by decide, by decide, by decide,
      by decide⟩).mpr (by decide)).2

/-- Three bytes of data in a frame of the smallest size are read with its padding. -/
theorem padding_read :
    (datagramFrame [97, 98, 99] (zeros 15)).ethPacket.content
        = .ok (datagramContent [97, 98, 99] (zeros 15)) ∧
      CarriesUdp (datagramContent [97, 98, 99] (zeros 15)) 5 31 ∧
      Udp.Packet.payload ⟨datagramFrame [97, 98, 99] (zeros 15)⟩
        = .ok ([97, 98, 99] ++ zeros 15) := by
  refine ⟨by decide +kernel, ?_, by decide +kernel⟩
  exact ⟨by decide, by decide, by decide, by decide, by decide, by decide, by decide⟩

end Rucoonos
