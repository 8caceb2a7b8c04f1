/-
The two messages of the DHCP client, byte by byte.

`discover_message` and `request_message` write into a slice of zeros, field by field and
with gaps, and cut the result off at a size that is given twice.  `fields` lists a
message from its first byte to its last, gaps included, and `build_payload` says that
this is what the frames carry.  Everything else is read off the list.

The options of a Discover end as they should.  In a Request the byte that ends them is
written at the very place where the message is cut off, so it is not sent.
-/
import Rucoonos.Proofs.Net.Checksum
import Rucoonos.Proofs.Net.Options

namespace Rucoonos.Dhcp

open Slice BigEndian OnesComplement

/-- What the client sends. -/
inductive Message
  | discover
  | request (ip serverIp : Ip)
  deriving DecidableEq, Repr

namespace Message

variable (m : Message) (ownMac : Mac) (xid : UInt32) (ipIdent : UInt16)

def build : Exec (Option Ethernet.Packet) :=
  match m with
  | discover => discoverMessage ownMac xid ipIdent
  | request ip serverIp => requestMessage ownMac xid ip serverIp ipIdent

/-- What the closure of a message writes, and the size it returns. -/
def writes : List (Write UInt8) :=
  match m with
  | discover => discoverWrites ownMac xid
  | request ip serverIp => requestWrites ownMac xid ip serverIp

def size : Nat :=
  match m with
  | discover => 244
  | request _ _ => 257

def operation : Operation :=
  match m with
  | discover => .discover
  | request _ _ => .request

def ciaddr : Ip :=
  match m with
  | discover => noIp
  | request ip _ => ip

def siaddr : Ip :=
  match m with
  | discover => noIp
  | request _ serverIp => serverIp

/-- The options a message is meant to have. -/
def options : List Tlv.Entry :=
  match m with
  | discover => [⟨53, [1], by decide⟩]
  | request ip serverIp =>
      [⟨53, [3], by decide⟩, ⟨54, serverIp.toList, by simp⟩, ⟨50, ip.toList, by simp⟩]

theorem build_eq : m.build ownMac xid ipIdent = udpBuilder.finish (ipBuilder ownMac ipIdent)
    (.ofWrites (m.writes ownMac xid) m.size) m.size := by
  cases m with
  | discover => rfl
  | request ip serverIp => rfl

/-! ### The bytes of a message -/

theorem fits_writes : ∀ w ∈ m.writes ownMac xid, w.Fits (zeros 1458).length := by
  rw [length_zeros]
  cases m with
  | discover => simp [writes, discoverWrites, Write.Fits, Write.one]
  | request ip serverIp => simp [writes, requestWrites, Write.Fits, Write.one]

theorem apart_writes : (m.writes ownMac xid).Pairwise Write.Apart := by
  refine pairwise_apart_of_isChain ?_
  cases m with
  | discover => simp [writes, discoverWrites, Write.Before, Write.one]
  | request ip serverIp => simp [writes, requestWrites, Write.Before, Write.one]

/-- Where a message is left as it was. -/
def gaps : List (Write UInt8) :=
  [⟨34, 44, zeros 10⟩, ⟨44, 236, zeros 192⟩] ++
    match m with
    | discover => []
    | request _ _ => [⟨249, 250, zeros 1⟩, ⟨256, 257, zeros 1⟩]

def optionFields : List (Write UInt8) :=
  match m with
  | discover => [.one 240 53, .one 241 1, .one 242 1, .one 243 0xff]
  | request ip serverIp =>
      [.one 240 53, .one 241 1, .one 242 3,
        .one 243 54, .one 244 4, ⟨245, 249, serverIp.toList⟩, ⟨249, 250, zeros 1⟩,
        .one 250 50, .one 251 4, ⟨252, 256, ip.toList⟩, ⟨256, 257, zeros 1⟩]

/-- A message from its first byte to its last. -/
def fields : List (Write UInt8) :=
  [.one 0 0x1, .one 1 0x1, .one 2 0x6, .one 3 0x0,
    ⟨4, 8, u32ToBe xid⟩, ⟨8, 10, [0, 0]⟩, ⟨10, 12, [0x80, 0]⟩,
    ⟨12, 16, m.ciaddr.toList⟩, ⟨16, 20, noIp.toList⟩,
    ⟨20, 24, m.siaddr.toList⟩, ⟨24, 28, noIp.toList⟩,
    ⟨28, 34, ownMac.toList⟩, ⟨34, 44, zeros 10⟩, ⟨44, 236, zeros 192⟩,
    ⟨236, 240, u32ToBe 0x63825363⟩] ++ m.optionFields

def payload : Bytes := (m.fields ownMac xid).flatMap Write.src

theorem consecutive_fields : Consecutive 0 (m.fields ownMac xid) := by
  cases m with
  | discover => simp [fields, optionFields, Consecutive, Write.one]
  | request ip serverIp => simp [fields, optionFields, Consecutive, Write.one]

theorem hi_fields : ∀ w ∈ m.fields ownMac xid, w.hi = w.lo + w.src.length := by
  cases m with
  | discover => simp [fields, optionFields, Write.one]
  | request ip serverIp => simp [fields, optionFields, Write.one]

theorem length_payload : (m.payload ownMac xid).length = m.size := by
  cases m with
  | discover => simp [payload, fields, optionFields, Write.one, size]
  | request ip serverIp => simp [payload, fields, optionFields, Write.one, size]

/-- Every byte of a message was written or is in a gap. -/
theorem fields_subset : m.fields ownMac xid ⊆ m.writes ownMac xid ++ m.gaps := by
  have hzero : noIp.toList = [0, 0, 0, 0] := rfl
  cases m with
  | discover =>
      simp only [fields, optionFields, writes, discoverWrites, gaps, ciaddr, siaddr, hzero,
        List.cons_append, List.nil_append, List.cons_subset, List.mem_cons, true_or, or_true,
        true_and, List.nil_subset]
  | request ip serverIp =>
      simp only [fields, optionFields, writes, requestWrites, gaps, ciaddr, siaddr, hzero,
        List.cons_append, List.nil_append, List.cons_subset, List.mem_cons, true_or, or_true,
        true_and, List.nil_subset]

theorem holds_gaps : Holds (putAll (zeros 1458) (m.writes ownMac xid)) m.gaps := by
  refine Holds.putAll ?_ (m.fits_writes ownMac xid) ?_
  · cases m with
    | discover => simp [Holds, gaps, sub_zeros]
    | request ip serverIp => simp [Holds, gaps, sub_zeros]
  · cases m with
    | discover => simp [gaps, writes, discoverWrites, Write.Apart, Write.one]
    | request ip serverIp => simp [gaps, writes, requestWrites, Write.Apart, Write.one]

/-- The slice of zeros, written to and cut off. -/
theorem take_writes : (putAll (zeros 1458) (m.writes ownMac xid)).take m.size
    = m.payload ownMac xid := by
  have hall : Holds (putAll (zeros 1458) (m.writes ownMac xid)) (m.fields ownMac xid) := by
    intro w hw
    rcases List.mem_append.mp (m.fields_subset ownMac xid hw) with hw | hw
    · exact holds_putAll (m.fits_writes ownMac xid) (m.apart_writes ownMac xid) w hw
    · exact m.holds_gaps ownMac xid w hw
  have hsub := hall.sub_eq (m.consecutive_fields ownMac xid) (m.hi_fields ownMac xid)
  rwa [Nat.zero_add, sub_front, ← payload, length_payload] at hsub

theorem holds_payload : Holds (m.payload ownMac xid) (m.fields ownMac xid) := by
  have hholds := holds_front [] (m.consecutive_fields ownMac xid) (m.hi_fields ownMac xid)
  rwa [List.append_nil] at hholds

variable {m ownMac xid ipIdent}

/-- What a frame that was returned carries. -/
theorem build_payload {frame : Ethernet.Packet}
    (h : m.build ownMac xid ipIdent = .ok (some frame)) :
    (ipBuilder ownMac ipIdent).Carried (8 + m.size) frame ∧
      Udp.Packet.header ⟨⟨frame⟩⟩ = .ok (udpBuilder.header m.size) ∧
      Udp.Packet.payload ⟨⟨frame⟩⟩ = .ok (m.payload ownMac xid) := by
  rw [build_eq] at h
  obtain ⟨hcarried, hheader, rest, hrun, hpayload⟩ := Udp.PacketBuilder.finish_carried h
  refine ⟨hcarried, hheader, ?_⟩
  have hsize : max m.size 18 = m.size := by
    cases m with
    | discover => rfl
    | request ip serverIp => rfl
  rw [Writer.run_ofWrites m.size (m.fits_writes ownMac xid)] at hrun
  cases hrun
  rw [hpayload, hsize, m.take_writes]

/-- The header of both messages in numbers, without the length. -/
theorem fieldSum_ipBuilder (ownMac : Mac) (ipIdent : UInt16) :
    ((ipBuilder ownMac ipIdent).header 0).fieldSum = 153891 + ipIdent.toNat := by
  have hzero : wordSum noIp.toList = 0 := by decide
  have hprotocol : Ipv4.Protocol.udp.toU8.toNat = 17 := by decide
  simp [Ipv4.PacketHeader.fieldSum, Ipv4.PacketBuilder.header, ipBuilder, hzero, hprotocol]
  omega

/-- A frame is returned whenever the checksum of its header can be computed. -/
theorem build_returns (h : ¬ CarriesTwice 65535 (153891 + ipIdent.toNat + (8 + m.size))) :
    ∃ frame, m.build ownMac xid ipIdent = .ok (some frame) := by
  have hsize : m.size ≤ 1458 := by
    cases m with
    | discover => exact Nat.le_add_right 244 1214
    | request ip serverIp => exact Nat.le_add_right 257 1201
  rw [build_eq]
  refine Udp.PacketBuilder.finish_of_run ?_ hsize
    (Writer.run_ofWrites m.size (m.fits_writes ownMac xid))
  rwa [Ipv4.PacketBuilder.fieldSum_header _ (by omega), fieldSum_ipBuilder]

variable (m ownMac xid)

theorem drop_payload : (m.payload ownMac xid).drop 240 = m.optionFields.flatMap Write.src := by
  rw [payload, fields, List.flatMap_append]
  exact List.drop_left' (by simp [Write.one])

/-! ### The options -/

/-- How the options of a message end. -/
def ending : Tlv.Ending :=
  match m with
  | discover => .stopped
  | request _ _ => .exhausted

/-- The options are the ones a message is meant to have. -/
theorem read_options :
    Tlv.read 0 255 ((m.payload ownMac xid).drop 240) = (m.options, m.ending) := by
  rw [drop_payload]
  cases m with
  | discover =>
      have hbytes : discover.optionFields.flatMap Write.src =
          Tlv.Entry.encode ⟨53, [1], by decide⟩ ++ [255] := rfl
      rw [hbytes, Tlv.read_encode (by decide) (by decide), Tlv.read_stop (by decide)]
      rfl
  | request ip serverIp =>
      have hbytes : (request ip serverIp).optionFields.flatMap Write.src =
          Tlv.Entry.encode ⟨53, [3], by decide⟩ ++
            (Tlv.Entry.encode ⟨54, serverIp.toList, by simp⟩ ++ 0 ::
              (Tlv.Entry.encode ⟨50, ip.toList, by simp⟩ ++ [0])) := by
        simp [optionFields, Tlv.Entry.encode, Write.one, zeros]
      rw [hbytes, Tlv.read_encode (by decide) (by decide),
        Tlv.read_encode (show (54 : UInt8) ≠ 0 by decide) (show (54 : UInt8) ≠ 255 by decide),
        Tlv.read_pad,
        Tlv.read_encode (show (50 : UInt8) ≠ 0 by decide) (show (50 : UInt8) ≠ 255 by decide),
        Tlv.read_pad]
      rfl

/--
**Which messages have well-formed options.**  In every frame that is returned, the end of
the datagram included: the magic cookie, and behind it exactly the options the message is
meant to have, padding aside, closed by the End option, with nothing written behind the
size that is declared.  A Discover has them so, a Request never.
-/
theorem options_well_formed_iff {frame : Ethernet.Packet}
    (h : m.build ownMac xid ipIdent = .ok (some frame)) :
    (∃ header payload, Udp.Packet.header ⟨⟨frame⟩⟩ = .ok header ∧
      Udp.Packet.payload ⟨⟨frame⟩⟩ = .ok payload ∧ header.length.toNat = 8 + payload.length ∧
      sub payload 236 240 = u32ToBe 0x63825363 ∧
      Tlv.read 0 255 (payload.drop 240) = (m.options, .stopped) ∧
      ∀ w ∈ m.writes ownMac xid, w.hi ≤ m.size) ↔ m = .discover := by
  obtain ⟨-, hheader, hpayload⟩ := build_payload h
  constructor
  · rintro ⟨header, payload, -, hpayload', -, -, hread, -⟩
    rw [hpayload] at hpayload'
    cases hpayload'
    rw [read_options] at hread
    cases m with
    | discover => rfl
    | request ip serverIp => cases (Prod.ext_iff.mp hread).2
  · rintro rfl
    refine ⟨_, _, hheader, hpayload, ?_, ?_, read_options .discover ownMac xid, ?_⟩
    · rw [length_payload]
      rfl
    · exact (holds_payload .discover ownMac xid).sub 14 rfl
    · simp [writes, discoverWrites, size, Write.one]

theorem options_well_formed_first : ∃ frame,
    discover.build broadcastMac 0x12345678 13 = .ok (some frame) ∧
      ∃ payload, Udp.Packet.payload ⟨⟨frame⟩⟩ = .ok payload ∧
        Tlv.read 0 255 (payload.drop 240) = (discover.options, .stopped) := by
  obtain ⟨frame, hframe⟩ : ∃ frame, discover.build broadcastMac 0x12345678 13 = .ok (some frame) :=
    build_returns (by decide)
  obtain ⟨-, payload, -, hpayload, -, -, hread, -⟩ :=
    (options_well_formed_iff discover broadcastMac 0x12345678 hframe).mpr rfl
  exact ⟨frame, hframe, payload, hpayload, hread⟩

/-- The Request for an address that was offered: its options never end, and the byte that
should end them is written one past the size. -/
theorem request_not_ended :
    let m := request #v[10, 0, 2, 15] #v[10, 0, 2, 2]
    (∃ frame payload, m.build broadcastMac 0x12345678 0 = .ok (some frame) ∧
      Udp.Packet.payload ⟨⟨frame⟩⟩ = .ok payload ∧ payload.length = 257 ∧
      Tlv.read 0 255 (payload.drop 240) = (m.options, .exhausted)) ∧
    m.size = 257 ∧ (⟨257, 258, [0xff]⟩ : Write UInt8) ∈ m.writes broadcastMac 0x12345678 := by
  intro m
  obtain ⟨frame, hframe⟩ : ∃ frame, m.build broadcastMac 0x12345678 0 = .ok (some frame) :=
    build_returns (by decide)
  obtain ⟨-, -, hpayload⟩ := build_payload hframe
  refine ⟨⟨frame, _, hframe, hpayload, length_payload m _ _, read_options m _ _⟩, rfl, ?_⟩
  simp [m, writes, requestWrites, Write.one]

/-! ### Reading a message back -/

theorem typed_payload : ∃ type, Typed ((m.payload ownMac xid).drop 240) type ∧
    Operation.ofU8 type = m.operation := by
  rw [drop_payload]
  cases m with
  | discover => exact ⟨1, ⟨[], 1, [255], List.forall_mem_nil _, rfl⟩, rfl⟩
  | request ip serverIp => exact ⟨3, ⟨[], 1, _, List.forall_mem_nil _, rfl⟩, rfl⟩

/-- The message is parsed into what it was made of. -/
theorem tryFrom_payload : ∃ data, Data.tryFrom (m.payload ownMac xid) = .ok (some data) ∧
    data.operation = m.operation ∧ data.xid = xid ∧
    data.chaddr.toList = ownMac.toList ++ zeros 10 ∧ data.ciaddr = m.ciaddr ∧
    data.yiaddr = noIp ∧ data.siaddr = m.siaddr ∧ data.giaddr = noIp := by
  have hlen : 244 ≤ (m.payload ownMac xid).length := by
    rw [length_payload]
    cases m with
    | discover => exact Nat.le_refl 244
    | request ip serverIp => exact Nat.le_add_right 244 13
  obtain ⟨type, htype, hop⟩ := m.typed_payload ownMac xid
  obtain ⟨data, hdata, hop', hat⟩ := Data.tryFrom_ok hlen htype
  have hholds := m.holds_payload ownMac xid
  refine ⟨data, hdata, hop'.trans hop, ?_, ?_, ?_, ?_, ?_, ?_⟩
  · rw [← UInt32.toNat_inj, ← hat.xid, hholds.sub 4 rfl, decode_u32ToBe]
  · rw [← hat.chaddr, sub_join (by decide : 28 ≤ 34) (by decide), hholds.sub 11 rfl,
      hholds.sub 12 rfl]
  · exact Vector.toList_inj.mp (hat.ciaddr.symm.trans (hholds.sub 7 rfl))
  · exact Vector.toList_inj.mp (hat.yiaddr.symm.trans (hholds.sub 8 rfl))
  · exact Vector.toList_inj.mp (hat.siaddr.symm.trans (hholds.sub 9 rfl))
  · exact Vector.toList_inj.mp (hat.giaddr.symm.trans (hholds.sub 10 rfl))

/--
**The client reads its own messages.**  Every frame that is returned for a message parses
back, layer by layer, into the ports, the transaction id, the addresses and the operation
of that message.
-/
theorem encoder_decoder_agree {frame : Ethernet.Packet}
    (h : m.build ownMac xid ipIdent = .ok (some frame)) :
    frame.etherType = .ok .ipv4 ∧
    (∃ header, Ipv4.Packet.header ⟨frame⟩ = .ok header ∧ header.protocol = .udp) ∧
    (∃ header, Udp.Packet.header ⟨⟨frame⟩⟩ = .ok header ∧ header.sourcePort = 68 ∧
      header.destinationPort = 67) ∧
    ∃ data, Packet.get ⟨⟨⟨frame⟩⟩⟩ = .ok data ∧ data.operation = m.operation ∧ data.xid = xid ∧
      data.chaddr.toList = ownMac.toList ++ zeros 10 ∧ data.ciaddr = m.ciaddr ∧
      data.yiaddr = noIp ∧ data.siaddr = m.siaddr ∧ data.giaddr = noIp := by
  obtain ⟨hcarried, hudp, hpayload⟩ := build_payload h
  obtain ⟨header, hheader, -, -, -, -, -, hprotocol, -⟩ := hcarried.header
  obtain ⟨data, hdata, hread⟩ := m.tryFrom_payload ownMac xid
  refine ⟨hcarried.etherType, ⟨header, hheader, hprotocol⟩, ⟨_, hudp, rfl, rfl⟩, data, ?_, hread⟩
  rw [Packet.get, hpayload, ok_bind, hdata]
  rfl

theorem encoder_decoder_agree_request : ∃ frame data,
    requestMessage broadcastMac 0x12345678 #v[10, 0, 2, 15] #v[10, 0, 2, 2] 0 = .ok (some frame) ∧
      Packet.get ⟨⟨⟨frame⟩⟩⟩ = .ok data ∧ data.operation = .request ∧
      data.ciaddr = #v[10, 0, 2, 15] := by
  obtain ⟨frame, hframe⟩ : ∃ frame, (request #v[10, 0, 2, 15] #v[10, 0, 2, 2]).build broadcastMac
      0x12345678 0 = .ok (some frame) := build_returns (by decide)
  obtain ⟨-, -, -, data, hdata, hop, -, -, hci, -⟩ := encoder_decoder_agree _ _ _ hframe
  exact ⟨frame, data, hframe, hdata, hop, hci⟩

end Message

end Rucoonos.Dhcp
