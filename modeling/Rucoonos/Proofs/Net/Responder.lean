/-
Answering ARP requests.

An ARP packet is nine fields one after the other.  `new_holds` says what the parser
reads off a content that holds them, so what `PacketBuilder.finish` writes is what
`Packet.new` returns, and `new_frame` what it reads off a received frame.

A device answers the requests for its own address: `request_handled` follows one
request through the handler, and the answer is the builder's frame with the sender of
the request as its destination.
-/
import Rucoonos.Proofs.Net.Effect

namespace Rucoonos

open Slice BigEndian

namespace Arp

/-! ### What the builder writes -/

/-- The packet of a builder. -/
def PacketBuilder.packet (b : PacketBuilder) : Packet where
  hardwareTy := 1
  protocolTy := 0x0800
  hardwareSize := 6
  protocolSize := 4
  rawOperation := b.operation
  srcMac := b.senderMac
  srcIp := b.senderIp
  destMac := b.mac
  destIp := b.ip

theorem PacketBuilder.consecutive_writes (b : PacketBuilder) : Consecutive 0 b.writes := by
  simp [PacketBuilder.writes, Consecutive, Write.one]

theorem PacketBuilder.length_fields (b : PacketBuilder) :
    (b.writes.flatMap Write.src).length = 28 := by
  simp [PacketBuilder.writes, Write.one]

/-- The parser reads the fields of a content that holds them. -/
theorem PacketBuilder.new_holds (b : PacketBuilder) {frame : Ethernet.Packet} {content : Bytes}
    (hcontent : frame.content = .ok content) (hat : Holds content b.writes) :
    Packet.new frame = .ok (some b.packet) := by
  have hsize : 28 ≤ content.length := (hat _ (List.mem_of_getElem? (i := 8) rfl)).1
  rw [Packet.new, hcontent, ok_bind, if_neg (by omega),
    u16At_of_holds hat 0 (x := 1) rfl (by omega), ok_bind,
    u16At_of_holds hat 1 (x := 0x0800) rfl (by omega), ok_bind, hat.index 2 rfl, ok_bind,
    hat.index 3 rfl, ok_bind, u16At_of_holds hat 4 rfl (by omega), ok_bind,
    hat.arrayAt 5 rfl (by omega), ok_bind, hat.arrayAt 6 rfl (by omega), ok_bind,
    hat.arrayAt 7 rfl (by omega), ok_bind, hat.arrayAt 8 rfl (by omega), ok_bind]
  rfl

/-- A frame that carries the packet of a builder, as `finish` makes it. -/
structure PacketBuilder.Built (b : PacketBuilder) (frame : Ethernet.Packet) : Prop where
  length : frame.buffer.len = 60
  source : frame.sourceMac = .ok b.senderMac
  destination : frame.destinationMac = .ok b.mac
  etherType : frame.etherType = .ok .arp
  parsed : Packet.new frame = .ok (some b.packet)

/-- The builder always makes a frame, and the parser reads it back. -/
theorem PacketBuilder.finish_built (b : PacketBuilder) :
    ∃ frame, b.finish = .ok (some frame) ∧ b.Built frame := by
  let eth : Ethernet.PacketBuilder := ⟨b.senderMac, b.mac, Ethernet.EthType.arp.toBytes⟩
  have hfits : ∀ w ∈ b.writes, w.Fits (zeros 1486).length := by
    simp [PacketBuilder.writes, Write.Fits, Write.one]
  have hrun : (Writer.ofWrites b.writes 28).run (zeros 1486)
      = .ok (b.writes.flatMap Write.src ++ zeros 1458, some 28) := by
    show writeAll (zeros 1486) b.writes >>= _ = _
    rw [writeAll_ok hfits, putAll_front _ b.consecutive_writes, b.length_fields, drop_zeros]
    rfl
  have htail : (b.writes.flatMap Write.src ++ zeros 1458).take (max 28 46)
      = b.writes.flatMap Write.src ++ zeros 18 := by
    rw [List.take_append, b.length_fields, take_zeros,
      List.take_of_length_le (by rw [b.length_fields]; decide)]
    rfl
  have hfinish : b.finish = .ok (some
      ⟨Buffer.new (eth.header ++ (b.writes.flatMap Write.src ++ zeros 18))⟩) := by
    rw [PacketBuilder.finish, Ethernet.PacketBuilder.finish_eq, hrun, ok_bind,
      Ethernet.PacketBuilder.close, if_pos (by decide), htail]
  have hlen : (b.writes.flatMap Write.src ++ zeros 18).length = 46 := by
    rw [List.length_append, b.length_fields, length_zeros]
  have hfits : (b.writes.flatMap Write.src ++ zeros 18).length + 14 ≤ 2048 := by
    rw [hlen]
    decide
  obtain ⟨hdestination, hsource, hty, hcontent⟩ := eth.read_header hfits
  refine ⟨_, hfinish, ?_, hsource, hdestination, hty, b.new_holds hcontent ?_⟩
  · show (eth.header ++ _).length = 60
    rw [List.length_append, eth.length_header, hlen]
  · refine holds_front _ b.consecutive_writes ?_
    simp [PacketBuilder.writes, Write.one]

/-! ### What the parser reads off a frame -/

/-- The ARP packet that stands in a frame. -/
def packetOf (f : Bytes) : Packet where
  hardwareTy := u16FromBe (Net.field f 14 2)
  protocolTy := u16FromBe (Net.field f 16 2)
  hardwareSize := f.getD 18 0
  protocolSize := f.getD 19 0
  rawOperation := u16FromBe (Net.field f 20 2)
  srcMac := Net.field f 22 6
  srcIp := Net.field f 28 4
  destMac := Net.field f 32 6
  destIp := Net.field f 38 4

theorem arrayAt_content {f : Bytes} (lo : Nat) {n : Nat} (h : 14 + lo + n ≤ f.length) :
    arrayAt n (f.drop 14) lo (lo + n) = .ok (Net.field f (14 + lo) n) := by
  refine arrayAt_of_sub ?_ (Nat.le_add_right _ _) (by rw [List.length_drop]; omega)
  refine List.ext_getElem? fun i => ?_
  rw [Slice.sub, List.getElem?_take]
  by_cases hi : i < n
  · rw [if_pos (by omega), List.getElem?_drop, List.getElem?_drop,
      List.getElem?_eq_getElem (by omega)]
    simp [Net.field, hi, ← Nat.add_assoc,
      List.getElem?_eq_getElem (show 14 + lo + i < f.length by omega)]
  · rw [if_neg (by omega)]
    simp [hi]

theorem u16At_content {f : Bytes} (lo : Nat) (h : 14 + lo + 2 ≤ f.length) :
    u16At (f.drop 14) lo (lo + 2) = .ok (u16FromBe (Net.field f (14 + lo) 2)) := by
  rw [u16At, arrayAt_content lo h]
  rfl

theorem index_content {f : Bytes} {i : Nat} (h : 14 + i < f.length) :
    index (f.drop 14) i = .ok (f.getD (14 + i) 0) := by
  rw [Net.index_getD (by rw [List.length_drop]; omega), List.getD_eq_getElem?_getD,
    List.getElem?_drop, List.getD_eq_getElem?_getD]

theorem new_frame {f : Bytes} (hmin : 42 ≤ f.length) (hmax : f.length ≤ 2048) :
    Packet.new ⟨Buffer.new f⟩ = .ok (some (packetOf f)) := by
  have hfits : Net.bufferFits f = true := by
    rw [Net.bufferFits, decide_eq_true_iff]
    omega
  rw [Packet.new, Net.content_new hfits, ok_bind,
    if_neg (by rw [List.length_drop]; omega), u16At_content 0 (by omega), ok_bind,
    u16At_content 2 (by omega), ok_bind, index_content (by omega), ok_bind,
    index_content (by omega), ok_bind, u16At_content 6 (by omega), ok_bind,
    arrayAt_content 8 (by omega), ok_bind, arrayAt_content 14 (by omega), ok_bind,
    arrayAt_content 18 (by omega), ok_bind, arrayAt_content 24 (by omega), ok_bind]
  rfl

end Arp

/-! ### What the handler does with a request -/

namespace Net

/-- A frame that asks some station for its address, and that the card takes. -/
structure AsksFor (mac : Mac) (f : Bytes) : Prop where
  long : 42 ≤ f.length
  short : f.length ≤ 2048
  forUs : field f 0 6 = mac ∨ field f 0 6 = broadcastMac
  etherType : Ethernet.EthType.ofBytes (field f 12 2) = .arp
  request : u16FromBe (field f 20 2) = 1

/-- The answer: from the device with its own address, to the sender of the request. -/
def answer (device : NetworkDevice) (ip : Ip) (f : Bytes) : Arp.PacketBuilder where
  senderMac := device.metadata.mac
  senderIp := ip
  mac := field f 22 6
  ip := field f 28 4
  operation := Arp.Operation.response.toU16

variable {device : NetworkDevice} {h : Handler} {f : Bytes}

theorem AsksFor.inspect (hf : AsksFor device.metadata.mac f) :
    inspect device.metadata.mac ⟨Buffer.new f⟩ = .ok (.arp (Arp.packetOf f)) := by
  have hdest : Ethernet.Packet.destinationMac ⟨Buffer.new f⟩ = .ok (field f 0 6) :=
    arrayAt_asRef f (by omega)
  have hty : Ethernet.Packet.etherType ⟨Buffer.new f⟩ = .ok .arp := by
    rw [Ethernet.Packet.etherType, arrayAt_asRef f (by omega : 12 + 2 ≤ 2048), ← hf.etherType]
    rfl
  have hus : ¬ (field f 0 6 ≠ broadcastMac ∧ field f 0 6 ≠ device.metadata.mac) := by
    rintro ⟨hb, hm⟩
    exact hf.forUs.elim hm hb
  rw [Net.inspect, hdest, ok_bind, if_neg hus, hty, ok_bind]
  show Arp.Packet.new _ >>= _ = _
  rw [Arp.new_frame hf.long hf.short]
  rfl

theorem AsksFor.operation (hf : AsksFor device.metadata.mac f) :
    (Arp.packetOf f).operation = .request := by
  rw [Arp.Packet.operation, Arp.packetOf, hf.request]
  rfl

/-- A request for another address, or to a device without one, does nothing. -/
theorem handleArp_ignored (hf : AsksFor device.metadata.mac f)
    (hip : device.metadata.ip ≠ some (field f 38 4)) :
    handleArp device (Arp.packetOf f) h = .ok h := by
  rw [handleArp, hf.operation]
  cases hown : device.metadata.ip with
  | none => rfl
  | some ip =>
      have hne : ip ≠ (Arp.packetOf f).destIp := fun heq => hip (by rw [hown, heq]; rfl)
      simp only [if_pos hne]
      rfl

/-- A request for the device's own address is answered. -/
theorem handleArp_answered (hf : AsksFor device.metadata.mac f)
    (hip : device.metadata.ip = some (field f 38 4)) :
    ∃ reply, (answer device (field f 38 4) f).Built reply ∧
      handleArp device (Arp.packetOf f) h = .ok (h.update device.id (·.enqueue reply)) := by
  obtain ⟨reply, hfinish, hbuilt⟩ := (answer device (field f 38 4) f).finish_built
  refine ⟨reply, hbuilt, ?_⟩
  rw [handleArp, hf.operation]
  simp only [hip]
  rw [if_neg (show ¬ field f 38 4 ≠ (Arp.packetOf f).destIp from not_not_intro rfl)]
  show (answer device (field f 38 4) f).finish >>= _ = _
  rw [hfinish]
  rfl

/-- The frame goes to the device with the id of the packet. -/
theorem handlePacket_request {id : Nat}
    (hfound : h.devices.find? (fun d => d.id == id) = some device)
    (hf : AsksFor device.metadata.mac f) :
    handlePacket ⟨id, Buffer.new f⟩ h = handleArp device (Arp.packetOf f) h := by
  rw [handlePacket, hfound]
  show handleFrame device ⟨Buffer.new f⟩ h = _
  rw [handleFrame_eq, hf.inspect, ok_bind]
  rfl

/-- What the devices have sent after a request. -/
theorem request_handled {id : Nat} (hfound : h.devices.find? (fun d => d.id == id) = some device)
    (hf : AsksFor device.metadata.mac f) :
    ∃ h', handlePacket ⟨id, Buffer.new f⟩ h = .ok h' ∧
      (transmitted h h' ≠ [] ↔ device.metadata.ip = some (field f 38 4)) ∧
      ∀ reply ∈ transmitted h h', transmitted h h' = [reply] ∧
        (answer device (field f 38 4) f).Built reply := by
  have hid : device.id = id := by
    have hbeq := List.find?_some hfound
    rwa [beq_iff_eq] at hbeq
  rw [handlePacket_request hfound hf]
  by_cases hip : device.metadata.ip = some (field f 38 4)
  · obtain ⟨reply, hbuilt, hrun⟩ := handleArp_answered (h := h) hf hip
    have hsent : transmitted h (h.update device.id (·.enqueue reply)) = [reply] := by
      rw [hid, transmitted_update (·.enqueue reply) hfound]
      exact List.drop_left
    refine ⟨_, hrun, iff_of_true (by rw [hsent]; exact List.cons_ne_nil _ _) hip, ?_⟩
    intro reply' hreply'
    rw [hsent, List.mem_singleton] at hreply'
    rw [hsent, hreply']
    exact ⟨rfl, hbuilt⟩
  · have hsent : transmitted h h = [] := by simp [transmitted]
    refine ⟨h, handleArp_ignored hf hip, iff_of_false (not_not_intro hsent) hip, ?_⟩
    rw [hsent]
    intro reply hreply
    cases hreply

/-- An operation that was read off a packet is read back as it was. -/
theorem operation_ofU16 {raw : UInt16} : Arp.Operation.ofU16 (Arp.Operation.ofU16 raw).toU16
    = Arp.Operation.ofU16 raw := by
  by_cases h₁ : raw = 1
  · rw [h₁]
    rfl
  · by_cases h₂ : raw = 2
    · rw [h₂]
      rfl
    · simp [Arp.Operation.ofU16, h₁, h₂, Arp.Operation.toU16]

/--
**The ARP responder.**  A request that reaches a device is answered exactly when it asks
for the device's own address.  Then one frame is sent, of 60 bytes, from the device to
the sender of the request, and the parser reads it as the response that gives the
sender the device's address.  Every frame of the builder is read back as it was built.
-/
theorem arp_responder :
    (∀ h id device f, h.devices.find? (fun d => d.id == id) = some device →
      AsksFor device.metadata.mac f →
        ∃ h', handlePacket ⟨id, Buffer.new f⟩ h = .ok h' ∧
          (transmitted h h' ≠ [] ↔ device.metadata.ip = some (field f 38 4)) ∧
          ∀ reply ∈ transmitted h h', transmitted h h' = [reply] ∧ reply.buffer.len = 60 ∧
            reply.sourceMac = .ok device.metadata.mac ∧
            reply.destinationMac = .ok (field f 22 6) ∧
            ∃ packet, Arp.Packet.new reply = .ok (some packet) ∧
              packet.operation = .response ∧
              packet =
                { hardwareTy := 1, protocolTy := 0x0800, hardwareSize := 6, protocolSize := 4
                  rawOperation := 2, srcMac := device.metadata.mac, srcIp := field f 38 4
                  destMac := field f 22 6, destIp := field f 28 4 }) ∧
    ∀ senderMac senderIp mac ip (operation : Arp.Operation),
      ∃ frame, Arp.PacketBuilder.finish ⟨senderMac, senderIp, mac, ip, operation.toU16⟩
          = .ok (some frame) ∧
        ∃ packet, Arp.Packet.new frame = .ok (some packet) ∧
          (packet.srcMac, packet.srcIp) = (senderMac, senderIp) ∧
          (packet.destMac, packet.destIp) = (mac, ip) ∧
          packet.rawOperation = operation.toU16 ∧
          ∀ raw, operation = .ofU16 raw → packet.operation = operation := by
  constructor
  · intro h id device f hfound hf
    obtain ⟨h', hrun, hiff, hsent⟩ := request_handled hfound hf
    refine ⟨h', hrun, hiff, ?_⟩
    intro reply hreply
    obtain ⟨hone, hbuilt⟩ := hsent reply hreply
    exact ⟨hone, hbuilt.length, hbuilt.source, hbuilt.destination, _, hbuilt.parsed, rfl, rfl⟩
  · intro senderMac senderIp mac ip operation
    obtain ⟨frame, hfinish, hbuilt⟩ :=
      Arp.PacketBuilder.finish_built ⟨senderMac, senderIp, mac, ip, operation.toU16⟩
    refine ⟨frame, hfinish, _, hbuilt.parsed, rfl, rfl, rfl, ?_⟩
    intro raw hraw
    rw [hraw]
    exact operation_ofU16

/-- An ARP request of the station with these addresses for a third one, to everyone. -/
def requestFrame (mac : Mac) (ip target : Ip) : Bytes :=
  broadcastMac.toList ++ mac.toList ++ [0x08, 0x06, 0, 1, 0x08, 0x00, 6, 4, 0, 1] ++
    mac.toList ++ ip.toList ++ zeros 6 ++ target.toList

/-- A device with an address. -/
def hostDevice : NetworkDevice := ⟨0, ⟨broadcastMac, some hostIp, .done⟩, []⟩

/-- It is asked for its own address, and answers. -/
theorem hostDevice_responds :
    ∃ h', handlePacket ⟨0, Buffer.new (requestFrame someMac noIp hostIp)⟩
        { oneWaiter with devices := [hostDevice] } = .ok h' ∧
      transmitted { oneWaiter with devices := [hostDevice] } h' ≠ [] := by
  obtain ⟨h', hrun, hiff, -⟩ := arp_responder.1 { oneWaiter with devices := [hostDevice] } 0
    hostDevice (requestFrame someMac noIp hostIp) rfl
    ⟨by decide, by decide, by decide, by decide, by decide⟩
  exact ⟨h', hrun, hiff.mpr (by decide)⟩

end Net

end Rucoonos
