/-
A packet survives the stack.

A frame made by `udp::PacketBuilder` or `icmp::PacketBuilder` is parsed back by the
three packet types into what it was made from.  The one thing that does not survive is
the end of the payload: the parsers take everything up to the end of the frame, so
short payloads come back with the padding of the frame behind them.

Everything up to the payload holds whatever the closure wrote; the handler's own
messages are built by closures that write more than the length they return.
-/
import Rucoonos.Proofs.Net.Layers

namespace Rucoonos

open Slice BigEndian

namespace Ipv4

/-- What the Ethernet and IPv4 parsers make of a frame with `size` bytes of IPv4 payload. -/
structure PacketBuilder.Carried (b : PacketBuilder) (size : Nat) (frame : Ethernet.Packet) :
    Prop where
  length : frame.buffer.len = max (20 + size) 46 + 14
  destinationMac : frame.destinationMac = .ok b.destinationMac
  sourceMac : frame.sourceMac = .ok b.sourceMac
  etherType : frame.etherType = .ok .ipv4
  header : ∃ h, Packet.header ⟨frame⟩ = .ok h ∧ h.version = 4 ∧ h.ihl = 5 ∧
    h.totalLength.toNat = 20 + size ∧ h.identification = b.ident ∧ h.ttl = b.ttl ∧
    h.protocol = .ofU8 b.protocol.toU8 ∧ h.protocol.toU8 = b.protocol.toU8 ∧
    h.sourceIp = b.source ∧ h.destinationIp = b.destination

/-- A finished frame carries what the builder was given, and its payload starts with what
the closure wrote. -/
theorem PacketBuilder.finish_carried {b : PacketBuilder} {payload : Writer} {size : Nat}
    {frame : Ethernet.Packet} (h : b.finish payload size = .ok (some frame)) :
    b.Carried size frame ∧ max (20 + size) 46 ≤ 1486 ∧
      ∃ rest, payload.run (zeros 1466) = .ok (rest, some size) ∧
        Packet.payload ⟨frame⟩ = .ok (rest.take (max (20 + size) 46 - 20)) := by
  obtain ⟨tail, written, hrun, hmax, rfl⟩ := Ethernet.PacketBuilder.finish_some h
  have htail := (b.writer payload size).length_eq _ _ _ hrun
  rw [length_zeros] at htail
  obtain ⟨hdr, rest, ⟨c, hhdr⟩, hat, hinner, hdrop, hwritten⟩ :=
    PacketBuilder.write_some (by rw [length_zeros]; omega) hrun
  have hwritten : written = 20 + size := hwritten
  subst hwritten
  rw [drop_zeros] at hinner
  have hver : hdr.version = 4 := by rw [hhdr]; rfl
  have hihl : hdr.ihl = 5 := by rw [hhdr]; rfl
  have hlen : (tail.take (max (20 + size) 46)).length = max (20 + size) 46 := by
    rw [List.length_take]
    omega
  obtain ⟨hdest, hsrc, hty, hcontent⟩ := Ethernet.PacketBuilder.read_header
    ⟨b.sourceMac, b.destinationMac, Ethernet.EthType.ipv4.toBytes⟩
    (by rw [hlen]; omega : (tail.take (max (20 + size) 46)).length + 14 ≤ 2048)
  have hat' : Holds (tail.take (max (20 + size) 46)) hdr.fields := by
    refine hat.take ?_
    intro w hw
    have := hdr.fields_le w hw
    omega
  refine ⟨⟨?_, hdest, hsrc, hty, ?_⟩, hmax, rest, hinner, ?_⟩
  · rw [Buffer.new_len, List.length_append, Ethernet.PacketBuilder.length_header, hlen,
      Nat.add_comm]
  · obtain ⟨h', hread, hagrees, hproto⟩ := Packet.header_holds hcontent hat' hver hihl
    refine ⟨h', hread, hagrees.version.trans hver, hagrees.ihl.trans hihl, ?_⟩
    rw [hagrees.totalLength, hagrees.identification, hagrees.ttl, hagrees.protocol, hproto,
      hagrees.sourceIp, hagrees.destinationIp, hhdr]
    have htotal : (UInt16.ofNat (20 + size)).toNat = 20 + size := Nat.mod_eq_of_lt (by omega)
    exact ⟨htotal, rfl, rfl, rfl, rfl, rfl, rfl⟩
  · rw [Packet.payload_holds hcontent hat' hihl, List.drop_take, hdrop]

end Ipv4

theorem Udp.PacketBuilder.finish_carried {b : Udp.PacketBuilder} {ip : Ipv4.PacketBuilder}
    {payload : Writer} {n : Nat} {frame : Ethernet.Packet}
    (h : b.finish ip payload n = .ok (some frame)) :
    ip.Carried (8 + n) frame ∧ Udp.Packet.header ⟨⟨frame⟩⟩ = .ok (b.header n) ∧
      ∃ rest, payload.run (zeros 1458) = .ok (rest, some n) ∧
        Udp.Packet.payload ⟨⟨frame⟩⟩ = .ok (rest.take (max n 18)) := by
  rw [Udp.PacketBuilder.finish_always] at h
  obtain ⟨hcarried, -, inner, hrun, hpayload⟩ := Ipv4.PacketBuilder.finish_carried h
  obtain ⟨rest, hat, hinner, hdrop, -⟩ := Udp.PacketBuilder.write_some (by simp) hrun
  rw [drop_zeros] at hinner
  have hat' : Holds (inner.take (max (20 + (8 + n)) 46 - 20)) (b.header n).writes :=
    hat.take (by simp [Udp.PacketHeader.writes]; omega)
  refine ⟨hcarried, Udp.Packet.header_holds hpayload hat', rest, hinner, ?_⟩
  rw [Udp.Packet.payload_holds hpayload hat', List.drop_take, hdrop,
    show max (20 + (8 + n)) 46 - 20 - 8 = max n 18 by omega]

theorem Icmp.PacketBuilder.finish_carried {b : Icmp.PacketBuilder} {ip : Ipv4.PacketBuilder}
    {payload : Writer} {n : Nat} {frame : Ethernet.Packet} (hty : ∀ d, b.ty ≠ .unknown d)
    (h : b.finish ip payload n = .ok (some frame)) :
    ip.Carried (8 + n) frame ∧ Icmp.Packet.getType ⟨⟨frame⟩⟩ = .ok b.ty ∧
      ∃ rest r, payload.run (zeros 1458) = .ok (rest, r) ∧
        Icmp.Packet.payload ⟨⟨frame⟩⟩ = .ok (rest.take (max n 18)) := by
  have hsize := b.ty.headerSize_eq
  rw [Icmp.PacketBuilder.finish_always] at h
  obtain ⟨hcarried, -, inner, hrun, hpayload⟩ := Ipv4.PacketBuilder.finish_carried h
  obtain ⟨rest, r, hat, hinner, hdrop, -⟩ := Icmp.PacketBuilder.write_some (by simp) hrun
  rw [drop_zeros] at hinner
  rw [hsize] at hcarried hpayload
  have hat' : Holds (inner.take (max (20 + (8 + n)) 46 - 20))
      [⟨0, 2, b.ty.toBytes.1⟩, ⟨4, 8, b.ty.toBytes.2⟩] :=
    hat.take (by simp; omega)
  refine ⟨hcarried, Icmp.Packet.getType_holds hpayload hty hat', rest, r, hinner, ?_⟩
  rw [Icmp.Packet.payload_holds hpayload hty hat', List.drop_take, hdrop,
    show max (20 + (8 + n)) 46 - 20 - 8 = max n 18 by omega]

/-- The closure writes `p` at the front of its slice, nothing else, and returns its
length. -/
def Writer.Writes (w : Writer) (p : Bytes) : Prop :=
  ∀ b : Bytes, p.length ≤ b.length → w.run b = .ok (p ++ b.drop p.length, some p.length)

theorem Writer.run_ofWrites {ws : List (Write UInt8)} {b : Bytes} (n : Nat)
    (hfits : ∀ w ∈ ws, w.Fits b.length) : (ofWrites ws n).run b = .ok (putAll b ws, some n) := by
  show (do let b ← writeAll b ws; pure (b, some n)) = _
  rw [writeAll_ok hfits, ok_bind, pure_eq_ok]

theorem Writer.ofWrites_front (p : Bytes) :
    (Writer.ofWrites [⟨0, p.length, p⟩] p.length).Writes p := by
  intro b hb
  have hfits : ∀ w ∈ [(⟨0, p.length, p⟩ : Write UInt8)], w.Fits b.length := by
    simpa [Write.Fits] using hb
  rw [run_ofWrites p.length hfits]
  show Except.ok (put b 0 p, some p.length) = _
  rw [put_zero]

/-- The payload of a frame is the payload that was written and the padding. -/
theorem Writer.Writes.padded {w : Writer} {p rest : Bytes} {r : Option Nat} (hw : w.Writes p)
    (hp : p.length ≤ 1458) (hrun : w.run (zeros 1458) = .ok (rest, r)) :
    rest.take (max p.length 18) = p ++ zeros (18 - p.length) := by
  rw [hw _ (by rw [length_zeros]; exact hp), drop_zeros] at hrun
  cases hrun
  rw [List.take_append, List.take_of_length_le (by omega), take_zeros]
  congr 2
  omega

/--
**The stack reads back what it writes.**  Any closure that writes a payload of at most
1458 bytes, any addresses and any IPv4 fields: a frame that is returned has the length
the payload gives it, or the least an Ethernet frame has, and every layer parses it
into what that layer was given.
-/
theorem stack_round_trip (ip : Ipv4.PacketBuilder) (w : Writer) (p : Bytes) (hw : w.Writes p)
    (hp : p.length ≤ 1458) :
    (∀ (udp : Udp.PacketBuilder) (frame : Ethernet.Packet),
      udp.finish ip w p.length = .ok (some frame) →
        ip.Carried (8 + p.length) frame ∧
          (∃ h, Udp.Packet.header ⟨⟨frame⟩⟩ = .ok h ∧ h.sourcePort = udp.sourcePort ∧
            h.destinationPort = udp.destinationPort ∧ h.length.toNat = 8 + p.length) ∧
          Udp.Packet.payload ⟨⟨frame⟩⟩ = .ok (p ++ zeros (18 - p.length))) ∧
    (∀ (ty : Icmp.Kind) (frame : Ethernet.Packet), (∀ d, ty ≠ .unknown d) →
      Icmp.PacketBuilder.finish ⟨ty⟩ ip w p.length = .ok (some frame) →
        ip.Carried (8 + p.length) frame ∧ Icmp.Packet.getType ⟨⟨frame⟩⟩ = .ok ty ∧
          Icmp.Packet.payload ⟨⟨frame⟩⟩ = .ok (p ++ zeros (18 - p.length))) := by
  refine ⟨?_, ?_⟩
  · intro udp frame h
    obtain ⟨hcarried, hheader, rest, hrun, hpayload⟩ := Udp.PacketBuilder.finish_carried h
    rw [hw.padded hp hrun] at hpayload
    refine ⟨hcarried, ⟨_, hheader, rfl, rfl, ?_⟩, hpayload⟩
    show (UInt16.ofNat (8 + p.length)).toNat = 8 + p.length
    exact Nat.mod_eq_of_lt (by omega)
  · intro ty frame hty h
    obtain ⟨hcarried, htype, rest, r, hrun, hpayload⟩ :=
      Icmp.PacketBuilder.finish_carried hty h
    rw [hw.padded hp hrun] at hpayload
    exact ⟨hcarried, htype, hpayload⟩

/-- Three bytes, sent from one host to another. -/
def sampleBuilder : Ipv4.PacketBuilder where
  dscp := 0
  ident := 7
  ttl := 64
  protocol := .udp
  source := #v[10, 0, 0, 1]
  sourceMac := #v[2, 0, 0, 0, 0, 1]
  destination := #v[10, 0, 0, 2]
  destinationMac := #v[2, 0, 0, 0, 0, 2]

def sampleWriter : Writer := .ofWrites [⟨0, 3, [97, 98, 99]⟩] 3

theorem sampleWriter_writes : sampleWriter.Writes [97, 98, 99] := Writer.ofWrites_front [97, 98, 99]

theorem stack_round_trip_sample :
    (∃ frame, Udp.PacketBuilder.finish ⟨68, 67⟩ sampleBuilder sampleWriter 3 = .ok (some frame) ∧
      frame.buffer.len = 60 ∧ Udp.Packet.payload ⟨⟨frame⟩⟩ = .ok ([97, 98, 99] ++ zeros 15)) ∧
    (∃ frame, Icmp.PacketBuilder.finish ⟨.echoRequest 1 2⟩ sampleBuilder sampleWriter 3
        = .ok (some frame) ∧ Icmp.Packet.getType ⟨⟨frame⟩⟩ = .ok (.echoRequest 1 2)) := by
  obtain ⟨hudp, hicmp⟩ :=
    stack_round_trip sampleBuilder sampleWriter [97, 98, 99] sampleWriter_writes (by decide)
  obtain ⟨frame, hframe⟩ := exists_of_succeeds
    (by decide +kernel : succeeds (Udp.PacketBuilder.finish ⟨68, 67⟩ sampleBuilder sampleWriter 3))
  obtain ⟨echo, hecho⟩ := exists_of_succeeds
    (by decide +kernel :
      succeeds (Icmp.PacketBuilder.finish ⟨.echoRequest 1 2⟩ sampleBuilder sampleWriter 3))
  refine ⟨⟨frame, hframe, ?_⟩, ⟨echo, hecho, ?_⟩⟩
  · obtain ⟨hcarried, -, hpayload⟩ := hudp _ frame hframe
    exact ⟨hcarried.length, hpayload⟩
  · exact (hicmp _ echo (by intro d hd; cases hd) hecho).2.1

end Rucoonos
