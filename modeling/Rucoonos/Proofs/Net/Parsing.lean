/-
Which frames the handler can parse.

`handle_packet_` looks at a frame layer by layer before it acts on it, and most of the
looking is slicing by lengths the frame itself claims.  The first 14 bytes can always
be read, as the buffer has 2048 bytes behind any frame.  From there on a frame has to
be as long as its headers say, fit the buffer, and have an IPv4 header length of at
least five words, or the slicing panics.

`inspect` is the looking and nothing else; `handleFrame_eq` says that the handler is
`inspect` and then an action.  `inspect_ok_iff` gives the frames it gets through.
-/
import Rucoonos.Net.Handler
import Rucoonos.Proofs.Net.Layers
import Mathlib.Data.List.GetD

namespace Rucoonos.Net

open Slice BigEndian

/-! ### Looking, then acting -/

/-- What the handler has seen of a frame when it acts. -/
inductive Seen
  | notForUs
  | arp (packet : Arp.Packet)
  | wakeOnLan (content : Bytes)
  | icmp (packet : Icmp.Packet) (kind : Icmp.Kind)
  | udp (packet : Udp.Packet) (header : Udp.PacketHeader) (payload : Bytes)
  | dropped
  deriving DecidableEq, Repr

def inspectIpv4 (ipPacket : Ipv4.Packet) : Exec Seen := do
  match (← ipPacket.header).protocol with
  | .icmp =>
      let kind ← Icmp.Packet.getType ⟨ipPacket⟩
      return .icmp ⟨ipPacket⟩ kind
  | .udp =>
      let header ← Udp.Packet.header ⟨ipPacket⟩
      let payload ← Udp.Packet.payload ⟨ipPacket⟩
      return .udp ⟨ipPacket⟩ header payload
  | .tcp => return .dropped
  | .unknown _ => return .dropped

/-- The parsing in `handle_packet_`. -/
def inspect (mac : Mac) (ethPacket : Ethernet.Packet) : Exec Seen := do
  let destination ← ethPacket.destinationMac
  if destination ≠ broadcastMac ∧ destination ≠ mac then return .notForUs
  match ← ethPacket.etherType with
  | .arp =>
      let arpPacket ← Arp.Packet.new ethPacket
      let arpPacket ← unwrap arpPacket
      return .arp arpPacket
  | .wakeOnLan =>
      let content ← ethPacket.content
      return .wakeOnLan content
  | .ipv4 => inspectIpv4 ⟨ethPacket⟩
  | .ipv6 => return .dropped
  | .unknown _ => return .dropped

/-- What the handler does with it. -/
def act (device : NetworkDevice) (h : Handler) : Seen → Exec Handler
  | .notForUs => return h
  | .arp packet => handleArp device packet h
  | .wakeOnLan _ => return h
  | .icmp packet _ => handleIcmp packet h
  | .udp packet _ _ => handleUdp device packet h
  | .dropped => return h

/-- A datagram whose header could be read has a payload. -/
theorem udp_payload_ok {p : Udp.Packet} {header : Udp.PacketHeader} (h : p.header = .ok header) :
    ∃ payload, p.payload = .ok payload := by
  obtain ⟨raw, hraw, h⟩ := bind_eq_ok.mp h
  obtain ⟨front, hfront, -⟩ := bind_eq_ok.mp h
  unfold range at hfront
  split at hfront
  · rename_i hb
    refine ⟨sub raw 8 raw.length, ?_⟩
    rw [Udp.Packet.payload, hraw, ok_bind, range_ok (by omega) (Nat.le_refl _)]
  · cases hfront

theorem handleIpv4_eq (device : NetworkDevice) (p : Ipv4.Packet) (h : Handler) :
    handleIpv4 device p h = inspectIpv4 p >>= act device h := by
  unfold handleIpv4 inspectIpv4
  cases p.header with
  | error e => rfl
  | ok header =>
      rw [ok_bind, ok_bind]
      cases header.protocol with
      | icmp =>
          show handleIcmp ⟨p⟩ h = (Icmp.Packet.getType ⟨p⟩ >>= _) >>= act device h
          cases hkind : Icmp.Packet.getType ⟨p⟩ with
          | error e =>
              rw [handleIcmp, hkind]
              rfl
          | ok kind => rfl
      | udp =>
          show handleUdp device ⟨p⟩ h = (Udp.Packet.header ⟨p⟩ >>= _) >>= act device h
          cases hheader : Udp.Packet.header ⟨p⟩ with
          | error e =>
              rw [handleUdp, hheader]
              rfl
          | ok header =>
              obtain ⟨payload, hpayload⟩ := udp_payload_ok hheader
              rw [ok_bind, hpayload]
              rfl
      | tcp => rfl
      | unknown raw => rfl

/-- **The handler looks first and acts then.** -/
theorem handleFrame_eq (device : NetworkDevice) (p : Ethernet.Packet) (h : Handler) :
    handleFrame device p h = inspect device.metadata.mac p >>= act device h := by
  unfold handleFrame inspect
  cases p.destinationMac with
  | error e => rfl
  | ok destination =>
      rw [ok_bind, ok_bind]
      by_cases hus : destination ≠ broadcastMac ∧ destination ≠ device.metadata.mac
      · rw [if_pos hus, if_pos hus]
        rfl
      · rw [if_neg hus, if_neg hus]
        cases p.etherType with
        | error e => rfl
        | ok ty =>
            rw [ok_bind, ok_bind]
            cases ty with
            | arp =>
                show Arp.Packet.new p >>= _ = (Arp.Packet.new p >>= _) >>= act device h
                cases Arp.Packet.new p with
                | error e => rfl
                | ok packet =>
                    cases packet with
                    | none => rfl
                    | some packet => rfl
            | wakeOnLan =>
                show p.content >>= _ = (p.content >>= _) >>= act device h
                cases p.content with
                | error e => rfl
                | ok content => rfl
            | ipv4 => exact handleIpv4_eq device ⟨p⟩ h
            | ipv6 => rfl
            | unknown raw => rfl

/-! ### How long a slice has to be -/

theorem index_getD {s : Bytes} {i : Nat} (h : i < s.length) : index s i = .ok (s.getD i 0) := by
  rw [index_of_lt h, List.getD_eq_getElem _ _ h]

theorem ends_unwrap_arp {p : Ethernet.Packet} {content : Bytes} (h : p.content = .ok content) :
    Ends (Arp.Packet.new p >>= unwrap) ↔ 28 ≤ content.length := by
  rw [Arp.Packet.new, h, ok_bind]
  by_cases hlen : content.length < 28
  · rw [if_pos hlen]
    exact ⟨fun hc => absurd hc (not_ends_error _), fun hc => absurd hc (by omega)⟩
  · rw [if_neg hlen]
    refine ⟨fun _ => by omega, fun _ => ?_⟩
    obtain ⟨hardwareTy, h₁⟩ := (ends_u16At rfl).mpr (by omega : 2 ≤ content.length)
    obtain ⟨protocolTy, h₂⟩ := (ends_u16At rfl).mpr (by omega : 4 ≤ content.length)
    obtain ⟨hardwareSize, h₃⟩ := ends_index.mpr (by omega : 4 < content.length)
    obtain ⟨protocolSize, h₄⟩ := ends_index.mpr (by omega : 5 < content.length)
    obtain ⟨operation, h₅⟩ := (ends_u16At rfl).mpr (by omega : 8 ≤ content.length)
    obtain ⟨srcMac, h₆⟩ : Ends (arrayAt 6 content 8 14) := (ends_arrayAt rfl).mpr (by omega)
    obtain ⟨srcIp, h₇⟩ : Ends (arrayAt 4 content 14 18) := (ends_arrayAt rfl).mpr (by omega)
    obtain ⟨destMac, h₈⟩ : Ends (arrayAt 6 content 18 24) := (ends_arrayAt rfl).mpr (by omega)
    obtain ⟨destIp, h₉⟩ : Ends (arrayAt 4 content 24 28) := (ends_arrayAt rfl).mpr (by omega)
    rw [h₁, ok_bind, h₂, ok_bind, h₃, ok_bind, h₄, ok_bind, h₅, ok_bind, h₆, ok_bind, h₇, ok_bind,
      h₈, ok_bind, h₉, ok_bind]
    exact ends_ok _

theorem ends_read {headerData : Bytes} :
    Ends (Ipv4.PacketHeader.read headerData) ↔ 20 ≤ headerData.length := by
  have hall : Ends (Ipv4.PacketHeader.read headerData) ↔ _ :=
    ends_bind_of ends_index fun _ _ => ends_bind_of ends_index fun _ _ =>
    ends_bind_of ends_index fun _ _ => ends_bind_of ends_index fun _ _ =>
    ends_bind_of (ends_u16At rfl) fun _ _ => ends_bind_of (ends_u16At rfl) fun _ _ =>
    ends_bind_of ends_index fun _ _ => ends_bind_of ends_index fun _ _ =>
    ends_bind_of ends_index fun _ _ => ends_bind_of ends_index fun _ _ =>
    ends_bind_of ends_index fun _ _ => ends_bind_of (ends_u16At rfl) fun _ _ =>
    ends_bind_of (ends_arrayAt rfl) fun _ _ => ends_bind_ok.trans (ends_arrayAt rfl)
  rw [hall]
  omega

/-- A message of two bytes is enough, unless they announce an echo. -/
def icmpFits (raw : Bytes) : Bool :=
  2 ≤ raw.length ∧
    ((raw.getD 0 0 = 0 ∨ raw.getD 0 0 = 8) ∧ raw.getD 1 0 = 0 → 8 ≤ raw.length)

theorem ends_ofBytes {raw : Bytes} : Ends (Icmp.Kind.ofBytes raw) ↔ icmpFits raw = true := by
  have hecho : ∀ make : UInt16 → UInt16 → Icmp.Kind,
      Ends (do return make (← u16At raw 4 6) (← u16At raw 6 8)) ↔ 8 ≤ raw.length := by
    intro make
    have hall : Ends (do return make (← u16At raw 4 6) (← u16At raw 6 8)) ↔ _ :=
      ends_bind_of (ends_u16At rfl) fun _ _ => ends_bind_ok.trans (ends_u16At rfl)
    rw [hall]
    omega
  by_cases hlen : 2 ≤ raw.length
  · rw [icmpFits, decide_eq_true_iff, Icmp.Kind.ofBytes, index_getD (by omega : 0 < raw.length),
      ok_bind, index_getD (by omega : 1 < raw.length), ok_bind]
    by_cases hreply : raw.getD 0 0 = 0 ∧ raw.getD 1 0 = 0
    · rw [if_pos hreply]
      refine (hecho _).trans ⟨fun h => ⟨hlen, fun _ => h⟩, fun h => h.2 ⟨.inl hreply.1, hreply.2⟩⟩
    · rw [if_neg hreply]
      by_cases hrequest : raw.getD 0 0 = 8 ∧ raw.getD 1 0 = 0
      · rw [if_pos hrequest]
        refine (hecho _).trans
          ⟨fun h => ⟨hlen, fun _ => h⟩, fun h => h.2 ⟨.inr hrequest.1, hrequest.2⟩⟩
      · rw [if_neg hrequest]
        refine ⟨fun _ => ⟨hlen, ?_⟩, fun _ => ends_ok _⟩
        rintro ⟨hty | hty, hsub⟩
        · exact absurd ⟨hty, hsub⟩ hreply
        · exact absurd ⟨hty, hsub⟩ hrequest
  · constructor
    · intro h
      obtain ⟨ty, -, h⟩ := ends_bind.mp h
      obtain ⟨subTy, hsub, -⟩ := ends_bind.mp h
      exact absurd (ends_index.mp ⟨subTy, hsub⟩) (by omega)
    · intro h
      rw [icmpFits, decide_eq_true_iff] at h
      exact absurd h.1 hlen

/-- The length of an IPv4 header, by its own account. -/
def ihlSize (content : Bytes) : Nat := (content.getD 0 0 &&& 0x0f).toNat * 4

/-- The header is whole and there is as much of it as it says, and then the transport
header is whole. -/
def ipv4Fits (content : Bytes) : Bool :=
  decide (20 ≤ ihlSize content ∧ ihlSize content ≤ content.length) &&
    match Ipv4.Protocol.ofU8 (content.getD 9 0) with
    | .icmp => icmpFits (content.drop (ihlSize content))
    | .udp => decide (8 ≤ (content.drop (ihlSize content)).length)
    | .tcp => true
    | .unknown _ => true

theorem headerSize_getD {content : Bytes} (h : 0 < content.length) :
    Ipv4.headerSize content = .ok (ihlSize content) := by
  rw [Ipv4.headerSize, index_getD h]
  rfl

theorem read_protocol {headerData : Bytes} {header : Ipv4.PacketHeader}
    (h : Ipv4.PacketHeader.read headerData = .ok header) :
    header.protocol = .ofU8 (headerData.getD 9 0) := by
  have hlen := ends_read.mp ⟨header, h⟩
  unfold Ipv4.PacketHeader.read at h
  simp only [index_getD (by omega : 0 < headerData.length),
    index_getD (by omega : 1 < headerData.length), index_getD (by omega : 7 < headerData.length),
    index_getD (by omega : 8 < headerData.length), index_getD (by omega : 9 < headerData.length),
    ok_bind] at h
  obtain ⟨totalLength, -, h⟩ := bind_eq_ok.mp h
  obtain ⟨identification, -, h⟩ := bind_eq_ok.mp h
  obtain ⟨headerChecksum, -, h⟩ := bind_eq_ok.mp h
  obtain ⟨sourceIp, -, h⟩ := bind_eq_ok.mp h
  obtain ⟨destinationIp, -, h⟩ := bind_eq_ok.mp h
  cases h
  rfl

/-- A datagram can be read if its header can. -/
theorem ends_udp {p : Udp.Packet} {rest : Bytes} (hrest : p.ipPacket.payload = .ok rest)
    (make : Udp.PacketHeader → Bytes → Seen) :
    Ends (do return make (← p.header) (← p.payload)) ↔ 8 ≤ rest.length := by
  constructor
  · intro h
    obtain ⟨header, hheader, -⟩ := ends_bind.mp h
    rw [Udp.Packet.header, hrest, ok_bind] at hheader
    obtain ⟨front, hfront, -⟩ := bind_eq_ok.mp hheader
    exact (ends_range.mp ⟨front, hfront⟩).2
  · intro hlen
    have h₈ : (sub rest 0 8).length = 8 := length_sub hlen
    have hread : Ends (Udp.PacketHeader.tryFrom (sub rest 0 8) >>= unwrap) := by
      rw [Udp.PacketHeader.tryFrom, if_neg (by omega)]
      obtain ⟨sourcePort, h₁⟩ := (ends_u16At rfl).mpr (by omega : 2 ≤ (sub rest 0 8).length)
      obtain ⟨destinationPort, h₂⟩ := (ends_u16At rfl).mpr (by omega : 4 ≤ (sub rest 0 8).length)
      obtain ⟨length, h₃⟩ := (ends_u16At rfl).mpr (by omega : 6 ≤ (sub rest 0 8).length)
      obtain ⟨checksum, h₄⟩ := (ends_u16At rfl).mpr (by omega : 8 ≤ (sub rest 0 8).length)
      rw [h₁, ok_bind, h₂, ok_bind, h₃, ok_bind, h₄, ok_bind]
      exact ends_ok _
    obtain ⟨header, hheader⟩ := hread
    have hp : p.header = .ok header := by
      rw [Udp.Packet.header, hrest, ok_bind, range_ok (Nat.zero_le _) hlen, ok_bind]
      exact hheader
    obtain ⟨payload, hpayload⟩ := udp_payload_ok hp
    rw [hp, ok_bind, hpayload]
    exact ends_ok _

section Ipv4

variable {p : Ipv4.Packet} {content : Bytes} (hcontent : p.ethPacket.content = .ok content)
include hcontent

theorem header_sized (hsize : 20 ≤ ihlSize content ∧ ihlSize content ≤ content.length) :
    ∃ header, p.header = .ok header ∧ header.protocol = .ofU8 (content.getD 9 0) := by
  have hlen : (content.take (ihlSize content)).length = ihlSize content :=
    List.length_take_of_le hsize.2
  obtain ⟨header, hheader⟩ := ends_read.mpr (by omega : 20 ≤ (content.take (ihlSize content)).length)
  refine ⟨header, ?_, ?_⟩
  · rw [Ipv4.Packet.header, hcontent, ok_bind, headerSize_getD (by omega), ok_bind,
      range_ok (Nat.zero_le _) hsize.2, ok_bind, sub_front]
    exact hheader
  · rw [read_protocol hheader, List.getD_eq_getElem?_getD, List.getElem?_take_of_lt (by omega),
      ← List.getD_eq_getElem?_getD]

theorem payload_sized (hsize : 20 ≤ ihlSize content ∧ ihlSize content ≤ content.length) :
    p.payload = .ok (content.drop (ihlSize content)) := by
  rw [Ipv4.Packet.payload, hcontent, ok_bind, headerSize_getD (by omega), ok_bind,
    range_ok hsize.2 (Nat.le_refl _), sub_length]

theorem sized_of_header (h : Ends p.header) :
    20 ≤ ihlSize content ∧ ihlSize content ≤ content.length := by
  rw [Ipv4.Packet.header, hcontent, ok_bind] at h
  obtain ⟨size, hsize, h⟩ := ends_bind.mp h
  obtain ⟨first, hfirst, -⟩ := bind_eq_ok.mp hsize
  have hpos := ends_index.mp ⟨first, hfirst⟩
  rw [headerSize_getD hpos] at hsize
  cases hsize
  obtain ⟨headerData, hrange, hread⟩ := ends_bind.mp h
  have hle := (ends_range.mp ⟨headerData, hrange⟩).2
  rw [range_ok (Nat.zero_le _) hle] at hrange
  cases hrange
  have h20 := ends_read.mp hread
  rw [length_sub hle] at h20
  exact ⟨h20, hle⟩

theorem ends_inspectIpv4 : Ends (inspectIpv4 p) ↔ ipv4Fits content = true := by
  by_cases hsize : 20 ≤ ihlSize content ∧ ihlSize content ≤ content.length
  · obtain ⟨header, hheader, hprotocol⟩ := header_sized hcontent hsize
    have hpayload := payload_sized hcontent hsize
    rw [ipv4Fits, decide_eq_true hsize, Bool.true_and, inspectIpv4, hheader, ok_bind, hprotocol]
    cases Ipv4.Protocol.ofU8 (content.getD 9 0) with
    | icmp =>
        refine ends_bind_ok.trans ?_
        rw [Icmp.Packet.getType, hpayload, ok_bind]
        exact ends_ofBytes
    | udp => exact (ends_udp hpayload _).trans decide_eq_true_iff.symm
    | tcp => exact iff_of_true (ends_ok _) rfl
    | unknown raw => exact iff_of_true (ends_ok _) rfl
  · refine iff_of_false ?_ ?_
    · intro h
      obtain ⟨header, hheader, -⟩ := ends_bind.mp h
      exact hsize (sized_of_header hcontent ⟨header, hheader⟩)
    · rw [ipv4Fits, decide_eq_false hsize]
      exact Bool.false_ne_true

end Ipv4

/-! ### The frame -/

/-- What the buffer shows in the place of a field: zeroes where the frame has ended. -/
def field (data : Bytes) (lo n : Nat) : Vector UInt8 n := Vector.ofFn fun i => data.getD (lo + i) 0

/-- The frame has a header and is no longer than the buffer. -/
def bufferFits (data : Bytes) : Bool := 14 ≤ data.length ∧ data.length ≤ 2048

/-- The frames that are parsed without a panic. -/
def parses (mac : Mac) (data : Bytes) : Bool :=
  if field data 0 6 ≠ broadcastMac ∧ field data 0 6 ≠ mac then true
  else
    match Ethernet.EthType.ofBytes (field data 12 2) with
    | .arp => bufferFits data && decide (28 ≤ (data.drop 14).length)
    | .wakeOnLan => bufferFits data
    | .ipv4 => bufferFits data && ipv4Fits (data.drop 14)
    | .ipv6 => true
    | .unknown _ => true

theorem asRef_getElem? (data : Bytes) {i : Nat} (hi : i < 2048) :
    (Buffer.new data).asRef[i]? = some (data.getD i 0) := by
  show (data.take 2048 ++ zeros (2048 - data.length))[i]? = _
  rw [List.getD_eq_getElem?_getD]
  by_cases h : i < data.length
  · rw [List.getElem?_append_left (by rw [List.length_take]; omega), List.getElem?_take_of_lt hi,
      List.getElem?_eq_getElem h, Option.getD_some]
  · rw [List.getElem?_append_right (by rw [List.length_take]; omega), List.length_take, zeros,
      List.getElem?_replicate_of_lt (by omega), List.getElem?_eq_none (by omega),
      Option.getD_none]

theorem arrayAt_asRef (data : Bytes) {lo n : Nat} (h : lo + n ≤ 2048) :
    arrayAt n (Buffer.new data).asRef lo (lo + n) = .ok (field data lo n) := by
  refine arrayAt_of_sub ?_ (Nat.le_add_right _ _) (Nat.le_trans h (Buffer.new data).size.ge)
  refine List.ext_getElem? fun i => ?_
  rw [sub, List.getElem?_take]
  by_cases hi : i < n
  · rw [if_pos (by omega), List.getElem?_drop, asRef_getElem? data (by omega)]
    simp [field, hi]
  · rw [if_neg (by omega)]
    simp [hi]

theorem ends_content {data : Bytes} :
    Ends (Ethernet.Packet.content ⟨Buffer.new data⟩) ↔ bufferFits data = true := by
  rw [Ethernet.Packet.content, ends_range, bufferFits, decide_eq_true_iff]
  have hsize : (Buffer.new data).asRef.length = 2048 := (Buffer.new data).size
  rw [hsize]
  exact Iff.rfl

theorem content_new {data : Bytes} (h : bufferFits data = true) :
    Ethernet.Packet.content ⟨Buffer.new data⟩ = .ok (data.drop 14) := by
  rw [bufferFits, decide_eq_true_iff] at h
  have hsize : (Buffer.new data).asRef.length = 2048 := (Buffer.new data).size
  show range (Buffer.new data).asRef 14 data.length = _
  rw [range_ok h.1 (by omega), Ethernet.asRef_new h.2, sub_append_left (Nat.le_refl _), sub_length]

/-- The three arms that read the content. -/
theorem ends_arms (data : Bytes) {p : Ethernet.Packet} (hp : p = ⟨Buffer.new data⟩) :
    (Ends (Arp.Packet.new p >>= unwrap) ↔
      (bufferFits data && decide (28 ≤ (data.drop 14).length)) = true) ∧
    (Ends p.content ↔ bufferFits data = true) ∧
    (Ends (inspectIpv4 ⟨p⟩) ↔ (bufferFits data && ipv4Fits (data.drop 14)) = true) := by
  subst hp
  by_cases hfits : bufferFits data = true
  · have hcontent := content_new hfits
    rw [hfits, Bool.true_and, Bool.true_and, decide_eq_true_iff]
    exact ⟨ends_unwrap_arp hcontent, iff_of_true ⟨_, hcontent⟩ rfl, ends_inspectIpv4 hcontent⟩
  · have hpanic : ∀ {α : Type} (f : Bytes → Exec α),
        ¬ Ends (Ethernet.Packet.content ⟨Buffer.new data⟩ >>= f) := by
      intro α f h
      obtain ⟨content, hcontent, -⟩ := ends_bind.mp h
      exact hfits (ends_content.mp ⟨content, hcontent⟩)
    rw [Bool.eq_false_of_not_eq_true hfits, Bool.false_and, Bool.false_and]
    refine ⟨iff_of_false ?_ Bool.false_ne_true, iff_of_false ?_ Bool.false_ne_true,
      iff_of_false ?_ Bool.false_ne_true⟩
    · intro h
      obtain ⟨packet, hpacket, -⟩ := ends_bind.mp h
      exact hpanic _ ⟨packet, hpacket⟩
    · exact fun h => hfits (ends_content.mp h)
    · intro h
      obtain ⟨header, hheader, -⟩ := ends_bind.mp h
      exact hpanic _ ⟨header, hheader⟩

/--
**The frames the handler gets through.**  Parsing a frame that is wrapped by
`Buffer::new` ends without a panic exactly when the frame is for someone else, is of a
type that is dropped unread, or is long enough for each of the headers that are read,
fits the buffer and has an IPv4 header length of at least five words that the content
covers.
-/
theorem inspect_ok_iff (mac : Mac) (data : Bytes) :
    (∃ seen, inspect mac ⟨Buffer.new data⟩ = .ok seen) ↔ parses mac data = true := by
  obtain ⟨harp, hwake, hipv4⟩ := ends_arms data rfl
  have hdest : Ethernet.Packet.destinationMac ⟨Buffer.new data⟩ = .ok (field data 0 6) :=
    arrayAt_asRef data (by omega)
  have hty : Ethernet.Packet.etherType ⟨Buffer.new data⟩
      = .ok (Ethernet.EthType.ofBytes (field data 12 2)) := by
    rw [Ethernet.Packet.etherType, arrayAt_asRef data (by omega : 12 + 2 ≤ 2048)]
    rfl
  show Ends _ ↔ _
  rw [inspect, parses, hdest, ok_bind]
  by_cases hus : field data 0 6 ≠ broadcastMac ∧ field data 0 6 ≠ mac
  · rw [if_pos hus, if_pos hus]
    exact iff_of_true (ends_ok _) rfl
  · rw [if_neg hus, if_neg hus, hty, ok_bind]
    cases Ethernet.EthType.ofBytes (field data 12 2) with
    | arp =>
        refine Iff.trans ?_ harp
        show Ends (Arp.Packet.new _ >>= fun packet => unwrap packet >>= fun packet => _) ↔ _
        rw [← bind_assoc]
        exact ends_bind_ok
    | wakeOnLan => exact ends_bind_ok.trans hwake
    | ipv4 => exact hipv4
    | ipv6 => exact iff_of_true (ends_ok _) rfl
    | unknown raw => exact iff_of_true (ends_ok _) rfl

/-- A broadcast frame of the smallest size, IPv4 by its type, with a header length of no
words. -/
def noHeaderFrame : Bytes :=
  broadcastMac.toList ++ [0x52, 0x54, 0x00, 0x12, 0x34, 0x56, 0x08, 0x00, 0x40] ++ zeros 45

def someMac : Mac := Vector.replicate 6 0x02

/-- Its empty header is indexed, whatever the handler's state. -/
theorem noHeaderFrame_panics :
    noHeaderFrame.length = 60 ∧
      inspect someMac ⟨Buffer.new noHeaderFrame⟩ = .error .bounds ∧
      ∀ h, handleFrame (NetworkDevice.new 0 someMac) ⟨Buffer.new noHeaderFrame⟩ h
        = .error .bounds := by
  have hpanic : inspect someMac ⟨Buffer.new noHeaderFrame⟩ = .error .bounds := by decide +kernel
  refine ⟨by decide, hpanic, ?_⟩
  intro h
  rw [handleFrame_eq]
  show inspect someMac _ >>= _ = _
  rw [hpanic, error_bind]

end Rucoonos.Net
