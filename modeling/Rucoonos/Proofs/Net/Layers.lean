/-
What each layer writes and how the layer's own parser reads it.

A builder hands its inner closure the rest of the slice behind its own header, so a
frame is the headers one after the other and the payload behind them, cut to the
length that was written or to the 46 bytes an Ethernet frame has at least.  For each
layer there are two lemmas: what its closure leaves in a slice, field by field, and
what its accessors make of a slice that holds these fields.
-/
import Rucoonos.Net.Icmp
import Rucoonos.Net.Udp
import Mathlib.Tactic.Common

namespace Rucoonos

open Slice BigEndian

/-! ### Slices handed to a closure -/

section Closures

variable {β : Type} {s : Bytes} {f : Bytes → Exec (Bytes × β)}
  (hf : ∀ b b' r, f b = .ok (b', r) → b'.length = b.length)
include hf

/-- A closure that gets everything from `lo` on. -/
theorem onRange_rest {lo : Nat} (hlo : lo ≤ s.length) :
    onRange s lo s.length f
      = f (s.drop lo) >>= fun done => .ok (s.take lo ++ done.1, done.2) := by
  rw [onRange, range_ok hlo (Nat.le_refl _), ok_bind, sub_length]
  cases hrun : f (s.drop lo) with
  | error e => rfl
  | ok done =>
      have hlen := hf _ _ _ hrun
      rw [List.length_drop] at hlen
      show Except.ok (put s lo done.1, done.2) = .ok (s.take lo ++ done.1, done.2)
      rw [put, List.drop_of_length_le (by omega), List.append_nil]

/-- A closure that gets everything up to `hi`. -/
theorem onRange_front {hi : Nat} (hhi : hi ≤ s.length) :
    onRange s 0 hi f = f (s.take hi) >>= fun done => .ok (done.1 ++ s.drop hi, done.2) := by
  rw [onRange, range_ok (Nat.zero_le _) hhi, ok_bind, sub_front]
  cases hrun : f (s.take hi) with
  | error e => rfl
  | ok done =>
      have hlen := hf _ _ _ hrun
      rw [List.length_take, Nat.min_eq_left hhi] at hlen
      show Except.ok (put s 0 done.1, done.2) = .ok (done.1 ++ s.drop hi, done.2)
      rw [put_zero, hlen]

end Closures

/-- What a layer that checks the size returns, once its closure has: the size is compared with
one value of `payload_size`, and the next one is returned. -/
def checkSize (header : Bytes) (payloadSize next : Nat) (rest : Bytes) :
    Option Nat → Exec (Bytes × Option Nat)
  | none => .ok (header ++ rest, none)
  | some size => do
      assertEq size payloadSize
      let written ← addUsize header.length next
      return (header ++ rest, some written)

theorem checkSize_some {header rest s : Bytes} {payloadSize next written : Nat}
    {size : Option Nat}
    (h : checkSize header payloadSize next rest size = .ok (s, some written)) :
    size = some payloadSize ∧ s = header ++ rest ∧ written = header.length + next := by
  cases size with
  | none => cases h
  | some size =>
      obtain ⟨⟨⟩, heq, h⟩ := bind_eq_ok.mp h
      obtain ⟨total, hadd, h⟩ := bind_eq_ok.mp h
      obtain ⟨-, rfl⟩ := addUsize_eq_ok.mp hadd
      cases h
      exact ⟨congrArg some (assertEq_eq_ok.mp heq), rfl, rfl⟩

theorem checkSize_ok {header rest : Bytes} {payloadSize next : Nat}
    (h : header.length + next < 2 ^ 64) :
    checkSize header payloadSize next rest (some payloadSize)
      = .ok (header ++ rest, some (header.length + next)) := by
  show assertEq payloadSize payloadSize >>= _ = _
  rw [assertEq, if_pos rfl, ok_bind, addUsize_ok h]
  rfl

/-! ### Ethernet -/

namespace Ethernet

/-- The header of a frame. -/
def PacketBuilder.header (b : PacketBuilder) : Bytes :=
  b.destination.toList ++ (b.source.toList ++ b.etherTy.toList)

theorem PacketBuilder.length_header (b : PacketBuilder) : b.header.length = 14 := by
  simp [PacketBuilder.header]

theorem PacketBuilder.start_eq (b : PacketBuilder) :
    b.start = .ok (b.header ++ zeros 1486) := by
  rw [start, writeAll_ok (by simp [Write.Fits]), putAll_front _ (by simp [Consecutive])]
  simp [PacketBuilder.header, drop_zeros]

/-- The end of `finish`, once the closure has returned. -/
def PacketBuilder.close (b : PacketBuilder) (tail : Bytes) : Option Nat → Exec (Option Packet)
  | none => .ok none
  | some written =>
      if max written 46 ≤ 1486 then
        .ok (some ⟨Buffer.new (b.header ++ tail.take (max written 46))⟩)
      else .error .bounds

theorem PacketBuilder.close_some {b : PacketBuilder} {tail : Bytes} {written : Option Nat}
    {frame : Packet} (h : b.close tail written = .ok (some frame)) :
    ∃ n, written = some n ∧ max n 46 ≤ 1486 ∧
      frame = ⟨Buffer.new (b.header ++ tail.take (max n 46))⟩ := by
  cases written with
  | none => cases h
  | some n =>
      rw [PacketBuilder.close] at h
      split at h
      · rename_i hmax
        cases h
        exact ⟨n, rfl, hmax, rfl⟩
      · cases h

theorem PacketBuilder.finish_eq (b : PacketBuilder) (payload : Writer) :
    b.finish payload = payload.run (zeros 1486) >>= fun done => b.close done.1 done.2 := by
  have hlen : (b.header ++ zeros 1486).length = 1500 := by simp [b.length_header]
  rw [finish, b.start_eq, ok_bind, onRange_rest payload.length_eq (by omega),
    List.drop_left' b.length_header, List.take_left' b.length_header]
  cases hrun : payload.run (zeros 1486) with
  | error e => rfl
  | ok done =>
      have htail := payload.length_eq _ _ _ hrun
      rw [length_zeros] at htail
      rw [ok_bind, ok_bind, ok_bind]
      cases hwritten : done.2 with
      | none => rfl
      | some written =>
          show range (b.header ++ done.1) 0 (max written 46 + 14) >>= _ = _
          rw [PacketBuilder.close, range, List.length_append, b.length_header, htail]
          by_cases hmax : max written 46 ≤ 1486
          · rw [if_pos ⟨Nat.zero_le _, by omega⟩, if_pos hmax, ok_bind, sub_front, Nat.add_comm,
              List.take_append, b.length_header,
              List.take_of_length_le (by rw [b.length_header]; omega), Nat.add_sub_cancel_left]
            rfl
          · rw [if_neg (by omega), if_neg hmax]
            rfl

/-- A finished frame is the header and what the closure wrote, cut or padded to length. -/
theorem PacketBuilder.finish_some {b : PacketBuilder} {payload : Writer} {frame : Packet}
    (h : b.finish payload = .ok (some frame)) :
    ∃ tail written, payload.run (zeros 1486) = .ok (tail, some written) ∧
      max written 46 ≤ 1486 ∧
      frame = ⟨Buffer.new (b.header ++ tail.take (max written 46))⟩ := by
  rw [finish_eq] at h
  obtain ⟨⟨tail, written⟩, hrun, h⟩ := bind_eq_ok.mp h
  obtain ⟨n, rfl, hmax, hframe⟩ := PacketBuilder.close_some h
  exact ⟨tail, n, hrun, hmax, hframe⟩

theorem asRef_new {bytes : Bytes} (h : bytes.length ≤ 2048) :
    (Buffer.new bytes).asRef = bytes ++ zeros (2048 - bytes.length) := by
  show bytes.take 2048 ++ _ = _
  rw [List.take_of_length_le h]
  rfl

/-- What the accessors make of a finished frame. -/
theorem PacketBuilder.read_header (b : PacketBuilder) {rest : Bytes}
    (h : rest.length + 14 ≤ 2048) :
    Packet.destinationMac ⟨Buffer.new (b.header ++ rest)⟩ = .ok b.destination ∧
      Packet.sourceMac ⟨Buffer.new (b.header ++ rest)⟩ = .ok b.source ∧
      Packet.etherType ⟨Buffer.new (b.header ++ rest)⟩ = .ok (.ofBytes b.etherTy) ∧
      Packet.content ⟨Buffer.new (b.header ++ rest)⟩ = .ok rest := by
  have hd : b.destination.toList.length = 6 := b.destination.length_toList
  have hs : b.source.toList.length = 6 := b.source.length_toList
  have ht : b.etherTy.toList.length = 2 := b.etherTy.length_toList
  have hlen : (b.header ++ rest).length = rest.length + 14 := by
    rw [List.length_append, b.length_header, Nat.add_comm]
  have hsize : (Buffer.new (b.header ++ rest)).asRef.length = 2048 := (Buffer.new _).size
  have href := asRef_new (by omega : (b.header ++ rest).length ≤ 2048)
  refine ⟨?_, ?_, ?_, ?_⟩
  · show arrayAt 6 (Buffer.new (b.header ++ rest)).asRef 0 6 = .ok b.destination
    refine arrayAt_of_sub ?_ (by omega) (by omega)
    rw [href, PacketBuilder.header]
    simp [hd]
  · show arrayAt 6 (Buffer.new (b.header ++ rest)).asRef 6 12 = .ok b.source
    refine arrayAt_of_sub ?_ (by omega) (by omega)
    rw [href, PacketBuilder.header]
    simp [hd, hs, sub_append_right]
  · have hty : arrayAt 2 (Buffer.new (b.header ++ rest)).asRef 12 14 = .ok b.etherTy := by
      refine arrayAt_of_sub ?_ (by omega) (by omega)
      rw [href, PacketBuilder.header]
      simp [hd, hs, ht, sub_append_right]
    rw [Packet.etherType, hty]
    rfl
  · show range (Buffer.new (b.header ++ rest)).asRef 14 (b.header ++ rest).length = .ok rest
    rw [range_ok (by omega) (by omega), href, sub_append_left (Nat.le_refl _), sub_length,
      List.drop_left' b.length_header]

end Ethernet

/-! ### IPv4 -/

namespace Ipv4

/-- The fields of a header that can be read back: not the fragmentation, which is written
and read at different places. -/
def PacketHeader.fields (h : PacketHeader) : List (Write UInt8) :=
  [.one 0 ((0 : UInt8) ||| (h.version <<< 4) ||| (h.ihl &&& 0x0f)),
    .one 1 ((0 : UInt8) ||| (h.dscp <<< 1) ||| (h.ecn &&& 0x01)),
    ⟨2, 4, u16ToBe h.totalLength⟩,
    ⟨4, 6, u16ToBe h.identification⟩,
    .one 8 h.ttl,
    .one 9 h.protocol.toU8,
    ⟨10, 12, u16ToBe h.headerChecksum⟩,
    ⟨12, 16, h.sourceIp.toList⟩,
    ⟨16, 20, h.destinationIp.toList⟩]

theorem toNat_version_ihl (version ihl : UInt8) :
    ((0 : UInt8) ||| (version <<< 4) ||| (ihl &&& 0x0f)).toNat
      = version.toNat % 16 * 16 + ihl.toNat % 16 := by
  have hlow : (ihl &&& 0x0f).toNat = ihl.toNat % 2 ^ 4 := toNat_mask ihl rfl
  have hhigh : (version <<< 4).toNat = version.toNat % 16 * 2 ^ 4 :=
    (toNat_shiftLeft version (by decide)).trans (by show _ * 16 % 256 = _ * 16; omega)
  rw [UInt8.zero_or, toNat_or_low hhigh (by rw [hlow]; omega), hlow]
  rfl

theorem toNat_dscp_ecn (dscp ecn : UInt8) :
    ((0 : UInt8) ||| (dscp <<< 1) ||| (ecn &&& 0x01)).toNat
      = dscp.toNat % 128 * 2 + ecn.toNat % 2 := by
  have hlow : (ecn &&& 0x01).toNat = ecn.toNat % 2 ^ 1 := toNat_mask ecn rfl
  have hhigh : (dscp <<< 1).toNat = dscp.toNat % 128 * 2 ^ 1 :=
    (toNat_shiftLeft dscp (by decide)).trans (by show _ * 2 % 256 = _ * 2; omega)
  rw [UInt8.zero_or, toNat_or_low hhigh (by rw [hlow]; omega), hlow]
  rfl

theorem PacketHeader.front_fits (h : PacketHeader) {n : Nat} (hn : 20 ≤ n) :
    ∀ w ∈ h.front, w.Fits n := by
  simp [PacketHeader.front, Write.Fits, Write.one]
  omega

theorem PacketHeader.back_fits (h : PacketHeader) (high : UInt8) {n : Nat} (hn : 20 ≤ n) :
    ∀ w ∈ h.back high, w.Fits n := by
  simp [PacketHeader.back, Write.Fits, Write.one]
  omega

/-- The two bytes of the fragment offset. -/
def PacketHeader.offsetHigh (h : PacketHeader) : UInt8 := UInt8.ofNat (h.fragmentOffset.toNat / 256)

def PacketHeader.offsetLow (h : PacketHeader) : UInt8 := UInt8.ofNat h.fragmentOffset.toNat

/-- All of a header, as it is on the wire. -/
def PacketHeader.wire (h : PacketHeader) : List (Write UInt8) :=
  h.front.take 4 ++
    ([.one 6 (h.offsetHigh ||| (h.flags <<< 5)), .one 7 h.offsetLow] ++
      (h.back h.offsetHigh).drop 1)

def PacketHeader.bytes (h : PacketHeader) : Bytes := h.wire.flatMap Write.src

theorem PacketHeader.length_bytes (h : PacketHeader) : h.bytes.length = 20 := by
  simp [PacketHeader.bytes, PacketHeader.wire, PacketHeader.front, PacketHeader.back, Write.one]

theorem PacketHeader.wire_holds (h : PacketHeader) (rest : Bytes) :
    Holds (h.bytes ++ rest) h.wire := by
  refine holds_front rest ?_ ?_
  · simp [PacketHeader.wire, PacketHeader.front, PacketHeader.back, Consecutive, Write.one]
  · simp [PacketHeader.wire, PacketHeader.front, PacketHeader.back, Write.one]

theorem PacketHeader.bytes_holds (h : PacketHeader) (rest : Bytes) :
    Holds (h.bytes ++ rest) h.fields := by
  have hsub : h.fields ⊆ h.wire := by
    simp [PacketHeader.fields, PacketHeader.wire, PacketHeader.front, PacketHeader.back]
  exact fun w hw => h.wire_holds rest w (hsub hw)

/-- The flags are written over the fragment offset, and everything else in order. -/
theorem PacketHeader.toBytes_eq (h : PacketHeader) {s : Bytes} (hs : 20 ≤ s.length) :
    h.toBytes s = .ok (h.bytes ++ s.drop 20, some ()) := by
  have hfront := h.front_fits hs
  have hfirst : putAll s h.front = (h.front.take 4).flatMap Write.src ++
      ([h.offsetHigh, h.offsetLow] ++ s.drop 8) := by
    rw [putAll_front s (by simp [PacketHeader.front, Consecutive, Write.one])]
    simp [PacketHeader.front, Write.one, u16ToBe_eq, PacketHeader.offsetHigh,
      PacketHeader.offsetLow]
  have hsix : ((h.front.take 4).flatMap Write.src).length = 6 := by
    simp [PacketHeader.front, Write.one]
  have hindex : index (putAll s h.front) 6 = .ok h.offsetHigh := by
    rw [hfirst]
    refine index_of_sub ?_
    rw [sub_append_right (by omega), hsix]
    rfl
  have hback : ∀ w ∈ h.back h.offsetHigh, w.Fits (putAll s h.front).length := by
    rw [length_putAll hfront]
    exact h.back_fits h.offsetHigh hs
  have hflags : put (putAll s h.front) 6 [h.offsetHigh ||| (h.flags <<< 5)] =
      ((h.front.take 4).flatMap Write.src ++ [h.offsetHigh ||| (h.flags <<< 5), h.offsetLow]) ++
        s.drop 8 := by
    rw [hfirst, put_append hsix.symm, List.append_assoc]
    rfl
  have hsecond : putAll (putAll s h.front) (h.back h.offsetHigh) = h.bytes ++ s.drop 20 := by
    have hcons : h.back h.offsetHigh
        = .one 6 (h.offsetHigh ||| (h.flags <<< 5)) :: (h.back h.offsetHigh).drop 1 := rfl
    rw [hcons, putAll_cons, Write.one, hflags, putAll_consecutive]
    · simp [PacketHeader.bytes, PacketHeader.wire, PacketHeader.back, Write.one]
    · simp [hsix, PacketHeader.back, Consecutive, Write.one]
  rw [PacketHeader.toBytes, if_neg (by omega), writeAll_ok hfront, ok_bind, hindex, ok_bind,
    writeAll_ok hback, ok_bind, hsecond]
  rfl

theorem PacketHeader.fields_le (h : PacketHeader) : ∀ w ∈ h.fields, w.hi ≤ 20 := by
  simp [PacketHeader.fields, Write.one]

theorem PacketHeader.setChecksum_eq {h h' : PacketHeader} (hrun : h.setChecksum = .ok h') :
    ∃ c, h' = { h with headerChecksum := c } := by
  obtain ⟨⟨rawBytes, _⟩, -, hrun⟩ := bind_eq_ok.mp hrun
  obtain ⟨rawResult, -, hrun⟩ := bind_eq_ok.mp hrun
  obtain ⟨sum, -, hrun⟩ := bind_eq_ok.mp hrun
  cases hrun
  exact ⟨_, rfl⟩

/-- The closure of `finish` writes the header and behind it what the inner closure wrote. -/
theorem PacketBuilder.write_eq (b : PacketBuilder) (payload : Writer) (payloadSize : Sizes)
    {s : Bytes} (hs : 20 ≤ s.length) :
    b.write payload payloadSize s
      = addUsize 20 (payloadSize.call 0) >>= fun _ =>
        (b.header (payloadSize.call 0)).setChecksum >>= fun h =>
          payload.run (s.drop 20) >>= fun done =>
            checkSize h.bytes (payloadSize.call 1) (payloadSize.call 2) done.1 done.2 := by
  unfold PacketBuilder.write
  refine bind_congr fun _ => ?_
  cases (b.header (payloadSize.call 0)).setChecksum with
  | error e => rfl
  | ok h =>
      have hlen : (s.take 20).length = 20 := List.length_take_of_le hs
      rw [ok_bind, ok_bind, onRange_front (fun _ _ _ => PacketHeader.length_toBytes) hs,
        h.toBytes_eq (by omega), ok_bind, List.drop_of_length_le (by omega), List.append_nil,
        ok_bind]
      show onRange (h.bytes ++ s.drop 20) 20 (h.bytes ++ s.drop 20).length payload.run >>= _ = _
      rw [onRange_rest payload.length_eq (by simp [h.length_bytes]),
        List.drop_left' h.length_bytes, List.take_left' h.length_bytes]
      cases payload.run (s.drop 20) with
      | error e => rfl
      | ok done =>
          rw [ok_bind, ok_bind, ok_bind]
          cases hsize : done.2 with
          | none => rfl
          | some size =>
              rw [checkSize, h.length_bytes]

/-- The closure of `finish` leaves the header and behind it what the inner closure wrote. -/
theorem PacketBuilder.write_some {b : PacketBuilder} {payload : Writer} {payloadSize : Sizes}
    {s s' : Bytes} {written : Nat} (hs : 20 ≤ s.length)
    (hrun : b.write payload payloadSize s = .ok (s', some written)) :
    ∃ h rest, (∃ c, h = { b.header (payloadSize.call 0) with headerChecksum := c }) ∧
      Holds s' h.fields ∧ payload.run (s.drop 20) = .ok (rest, some (payloadSize.call 1)) ∧
      s'.drop 20 = rest ∧ written = 20 + payloadSize.call 2 := by
  rw [write_eq b payload payloadSize hs] at hrun
  obtain ⟨total, -, hrun⟩ := bind_eq_ok.mp hrun
  obtain ⟨h, hsum, hrun⟩ := bind_eq_ok.mp hrun
  obtain ⟨⟨rest, size⟩, hinner, hrun⟩ := bind_eq_ok.mp hrun
  obtain ⟨rfl, rfl, rfl⟩ := checkSize_some hrun
  refine ⟨h, rest, PacketHeader.setChecksum_eq hsum, h.bytes_holds rest, hinner, ?_, ?_⟩
  · exact List.drop_left' h.length_bytes
  · rw [h.length_bytes]

/-- What `finish` comes to, from the header to the frame. -/
theorem PacketBuilder.finish_eq (b : PacketBuilder) (payload : Writer) (payloadSize : Sizes) :
    b.finish payload payloadSize
      = addUsize 20 (payloadSize.call 0) >>= fun _ =>
        (b.header (payloadSize.call 0)).setChecksum >>= fun h =>
          payload.run (zeros 1466) >>= fun done =>
            checkSize h.bytes (payloadSize.call 1) (payloadSize.call 2) done.1 done.2 >>=
              fun done => Ethernet.PacketBuilder.close
                ⟨b.sourceMac, b.destinationMac, Ethernet.EthType.ipv4.toBytes⟩ done.1 done.2 := by
  rw [PacketBuilder.finish, Ethernet.PacketBuilder.finish_eq]
  show b.write payload payloadSize (zeros 1486) >>= _ = _
  rw [write_eq b payload payloadSize (by simp), drop_zeros, bind_assoc]
  refine bind_congr fun _ => ?_
  rw [bind_assoc]
  exact bind_congr fun h => bind_assoc _ _ _

/-! What `header` and `payload` make of it. -/

theorem Protocol.toU8_ofU8 (raw : UInt8) : (Protocol.ofU8 raw).toU8 = raw := by
  unfold Protocol.ofU8
  by_cases h₁ : raw = 1
  · rw [if_pos h₁, h₁]
    rfl
  · by_cases h₂ : raw = 6
    · rw [if_neg h₁, if_pos h₂, h₂]
      rfl
    · by_cases h₃ : raw = 17
      · rw [if_neg h₁, if_neg h₂, if_pos h₃, h₃]
        rfl
      · rw [if_neg h₁, if_neg h₂, if_neg h₃]
        rfl

/-- Two headers agree on what survives the wire. -/
structure PacketHeader.Agrees (h h' : PacketHeader) : Prop where
  version : h.version = h'.version
  ihl : h.ihl = h'.ihl
  totalLength : h.totalLength = h'.totalLength
  identification : h.identification = h'.identification
  ttl : h.ttl = h'.ttl
  protocol : h.protocol.toU8 = h'.protocol.toU8
  headerChecksum : h.headerChecksum = h'.headerChecksum
  sourceIp : h.sourceIp = h'.sourceIp
  destinationIp : h.destinationIp = h'.destinationIp

theorem PacketHeader.size_le {h : PacketHeader} {raw : Bytes} (hat : Holds raw h.fields) :
    20 ≤ raw.length :=
  (hat _ (List.mem_of_getElem? (i := 8) rfl)).1

theorem headerSize_holds {h : PacketHeader} {raw : Bytes} (hat : Holds raw h.fields)
    (hi : h.ihl = 5) : headerSize raw = .ok 20 := by
  have hwords : (((0 : UInt8) ||| (h.version <<< 4) ||| (h.ihl &&& 0x0f)) &&& 0x0f).toNat = 5 := by
    rw [toNat_mask (k := 4) _ rfl, toNat_version_ihl, hi]
    show (_ * 16 + 5) % 16 = 5
    omega
  rw [headerSize, hat.index 0 rfl, ok_bind, hwords]
  rfl

/-- A header as it is read back, if `low` stands in the place of the fragment offset's low
byte. -/
def PacketHeader.reread (h : PacketHeader) (low : UInt8) : PacketHeader :=
  { h with
    version := ((0 : UInt8) ||| (h.version <<< 4) ||| (h.ihl &&& 0x0f)) >>> 4
    ihl := ((0 : UInt8) ||| (h.version <<< 4) ||| (h.ihl &&& 0x0f)) &&& 0x0f
    dscp := ((0 : UInt8) ||| (h.dscp <<< 1) ||| (h.ecn &&& 0x01)) >>> 2
    ecn := ((0 : UInt8) ||| (h.dscp <<< 1) ||| (h.ecn &&& 0x01)) &&& 0x03
    flags := low >>> 5
    fragmentOffset := u16FromBe (pair (low &&& 0x1f) h.ttl)
    protocol := .ofU8 h.protocol.toU8 }

theorem Packet.header_eq {p : Packet} {raw : Bytes} {h : PacketHeader} {low : UInt8}
    (hcontent : p.ethPacket.content = .ok raw) (hat : Holds raw h.fields) (hi : h.ihl = 5)
    (hlow : index raw 7 = .ok low) : p.header = .ok (h.reread low) := by
  have hsize := PacketHeader.size_le hat
  have hat' : Holds (raw.take 20) h.fields := hat.take h.fields_le
  have hlow' : index (raw.take 20) 7 = .ok low := by rw [index_take (by omega), hlow]
  rw [Packet.header, hcontent, ok_bind, headerSize_holds hat hi, ok_bind,
    range_ok (Nat.zero_le _) hsize, ok_bind, sub_front, PacketHeader.read, hat'.index 0 rfl,
    ok_bind, ok_bind, hat'.index 1 rfl, ok_bind, ok_bind, u16At_of_holds hat' 2 rfl (by omega),
    ok_bind, u16At_of_holds hat' 3 rfl (by omega), ok_bind, hlow', ok_bind, ok_bind,
    hat'.index 4 rfl, ok_bind, ok_bind, hat'.index 5 rfl, ok_bind,
    u16At_of_holds hat' 6 rfl (by omega), ok_bind, hat'.arrayAt 7 rfl (by omega), ok_bind,
    hat'.arrayAt 8 rfl (by omega), ok_bind]
  rfl

theorem Packet.header_holds {p : Packet} {raw : Bytes} {h : PacketHeader}
    (hcontent : p.ethPacket.content = .ok raw) (hat : Holds raw h.fields) (hv : h.version = 4)
    (hi : h.ihl = 5) :
    ∃ h', p.header = .ok h' ∧ h'.Agrees h ∧ h'.protocol = .ofU8 h.protocol.toU8 := by
  have hsize := PacketHeader.size_le hat
  refine ⟨_, p.header_eq hcontent hat hi (index_of_lt (by omega)),
    ⟨?_, ?_, rfl, rfl, rfl, Protocol.toU8_ofU8 _, rfl, rfl, rfl⟩, rfl⟩
  · rw [PacketHeader.reread, hv, hi]
    rfl
  · rw [PacketHeader.reread, hv, hi]
    rfl

theorem Packet.payload_holds {p : Packet} {raw : Bytes} {h : PacketHeader}
    (hcontent : p.ethPacket.content = .ok raw) (hat : Holds raw h.fields) (hi : h.ihl = 5) :
    p.payload = .ok (raw.drop 20) := by
  rw [Packet.payload, hcontent, ok_bind, headerSize_holds hat hi, ok_bind,
    range_ok (PacketHeader.size_le hat) (Nat.le_refl _), sub_length]

end Ipv4

/-! ### UDP -/

namespace Udp

def PacketHeader.bytes (h : PacketHeader) : Bytes := h.writes.flatMap Write.src

theorem PacketHeader.length_bytes (h : PacketHeader) : h.bytes.length = 8 := by
  simp [PacketHeader.bytes, PacketHeader.writes]

theorem PacketHeader.consecutive_writes (h : PacketHeader) : Consecutive 0 h.writes := by
  simp [PacketHeader.writes, Consecutive]

theorem PacketHeader.bytes_holds (h : PacketHeader) (rest : Bytes) :
    Holds (h.bytes ++ rest) h.writes :=
  holds_front rest h.consecutive_writes (by simp [PacketHeader.writes])

theorem PacketHeader.toBytes_eq (h : PacketHeader) {s : Bytes} (hs : 8 ≤ s.length) :
    h.toBytes s = .ok (h.bytes ++ s.drop 8, some ()) := by
  have hfits : ∀ w ∈ h.writes, w.Fits s.length := by
    simp [PacketHeader.writes, Write.Fits]
    omega
  rw [PacketHeader.toBytes, if_neg (by omega), writeAll_ok hfits, ok_bind,
    putAll_front s h.consecutive_writes, ← PacketHeader.bytes, h.length_bytes]
  rfl

/-- The closure of `finish` writes the header and behind it what the inner closure wrote. -/
theorem PacketBuilder.write_eq (b : PacketBuilder) (payload : Writer) (payloadSize : Sizes)
    {s : Bytes} (hs : 8 ≤ s.length) :
    b.write payload payloadSize s
      = addUsize 8 (payloadSize.call 0) >>= fun _ => payload.run (s.drop 8) >>= fun done =>
        checkSize (b.header (payloadSize.call 0)).bytes (payloadSize.call 1) (payloadSize.call 2)
          done.1 done.2 := by
  have hlen : (s.take 8).length = 8 := List.length_take_of_le hs
  have hbytes := (b.header (payloadSize.call 0)).length_bytes
  refine bind_congr fun _ => ?_
  rw [onRange_front (fun _ _ _ => PacketHeader.length_toBytes) hs,
    PacketHeader.toBytes_eq _ (by omega), ok_bind, List.drop_of_length_le (by omega),
    List.append_nil, ok_bind]
  show onRange ((b.header (payloadSize.call 0)).bytes ++ s.drop 8) 8 _ payload.run >>= _ = _
  rw [onRange_rest payload.length_eq (by simp [hbytes]), List.drop_left' hbytes,
    List.take_left' hbytes]
  cases payload.run (s.drop 8) with
  | error e => rfl
  | ok done =>
      rw [ok_bind, ok_bind, ok_bind]
      cases hsize : done.2 with
      | none => rfl
      | some size =>
          rw [checkSize, hbytes]

/-- Where the size is always the same, it is that and the header for the layer below. -/
theorem PacketBuilder.finish_always (b : PacketBuilder) (ip : Ipv4.PacketBuilder)
    (payload : Writer) (n : Nat) :
    b.finish ip payload n = ip.finish (b.writer payload n) (8 + n : Nat) := rfl

theorem PacketBuilder.write_some {b : PacketBuilder} {payload : Writer} {payloadSize : Sizes}
    {s s' : Bytes} {written : Nat} (hs : 8 ≤ s.length)
    (hrun : b.write payload payloadSize s = .ok (s', some written)) :
    ∃ rest, Holds s' (b.header (payloadSize.call 0)).writes ∧
      payload.run (s.drop 8) = .ok (rest, some (payloadSize.call 1)) ∧ s'.drop 8 = rest ∧
      written = 8 + payloadSize.call 2 := by
  have hbytes := (b.header (payloadSize.call 0)).length_bytes
  rw [write_eq b payload payloadSize hs] at hrun
  obtain ⟨length, -, hrun⟩ := bind_eq_ok.mp hrun
  obtain ⟨⟨rest, size⟩, hinner, hrun⟩ := bind_eq_ok.mp hrun
  obtain ⟨rfl, rfl, rfl⟩ := checkSize_some hrun
  exact ⟨rest, (b.header (payloadSize.call 0)).bytes_holds rest, hinner, List.drop_left' hbytes,
    by rw [hbytes]⟩

theorem PacketHeader.size_le {h : PacketHeader} {raw : Bytes} (hat : Holds raw h.writes) :
    8 ≤ raw.length :=
  (hat _ (List.mem_of_getElem? (i := 3) rfl)).1

theorem Packet.header_holds {p : Packet} {raw : Bytes} {h : PacketHeader}
    (hpayload : p.ipPacket.payload = .ok raw) (hat : Holds raw h.writes) : p.header = .ok h := by
  have hsize := PacketHeader.size_le hat
  have hat' : Holds (raw.take 8) h.writes := hat.take (by simp [PacketHeader.writes])
  have hsize' := PacketHeader.size_le hat'
  rw [Packet.header, hpayload, ok_bind, range_ok (Nat.zero_le _) hsize, ok_bind, sub_front,
    PacketHeader.tryFrom, if_neg (by omega), u16At_of_holds hat' 0 rfl (by omega), ok_bind,
    u16At_of_holds hat' 1 rfl (by omega), ok_bind, u16At_of_holds hat' 2 rfl (by omega), ok_bind,
    u16At_of_holds hat' 3 rfl (by omega), ok_bind]
  rfl

theorem Packet.payload_holds {p : Packet} {raw : Bytes} {h : PacketHeader}
    (hpayload : p.ipPacket.payload = .ok raw) (hat : Holds raw h.writes) :
    p.payload = .ok (raw.drop 8) := by
  rw [Packet.payload, hpayload, ok_bind, range_ok (PacketHeader.size_le hat) (Nat.le_refl _),
    sub_length]

end Udp

/-! ### ICMP -/

namespace Icmp

/-- The fields of the two echo messages. -/
def echoFields (ty : UInt8) (identifier sequence : UInt16) : List (Write UInt8) :=
  [.one 0 ty, .one 1 0, ⟨4, 6, u16ToBe identifier⟩, ⟨6, 8, u16ToBe sequence⟩]

theorem Kind.length_toBytes (ty : Kind) : ty.toBytes.1.length = 2 ∧ ty.toBytes.2.length = 4 := by
  cases ty with
  | echoRequest identifier sequence => simp [Kind.toBytes]
  | echoReply identifier sequence => simp [Kind.toBytes]
  | unknown d => simp [Kind.toBytes]

theorem Kind.headerSize_eq (ty : Kind) : ty.headerSize = 8 := by
  cases ty <;> rfl

/-- A header with some bytes in the place of the checksum. -/
def Kind.header (ty : Kind) (checksum : Bytes) : Bytes :=
  ty.toBytes.1 ++ (checksum ++ ty.toBytes.2)

theorem Kind.length_header (ty : Kind) {checksum : Bytes} (h : checksum.length = 2) :
    (ty.header checksum).length = 8 := by
  simp [Kind.header, ty.length_toBytes, h]

theorem Kind.header_holds (ty : Kind) {checksum : Bytes} (h : checksum.length = 2)
    (rest : Bytes) :
    Holds (ty.header checksum ++ rest) [⟨0, 2, ty.toBytes.1⟩, ⟨4, 8, ty.toBytes.2⟩] := by
  have hall : Holds (ty.header checksum ++ rest)
      [⟨0, 2, ty.toBytes.1⟩, ⟨2, 4, checksum⟩, ⟨4, 8, ty.toBytes.2⟩] := by
    have heq : ty.header checksum = [(⟨0, 2, ty.toBytes.1⟩ : Write UInt8), ⟨2, 4, checksum⟩,
        ⟨4, 8, ty.toBytes.2⟩].flatMap Write.src := by
      simp [Kind.header]
    rw [heq]
    refine holds_front rest ?_ ?_
    · simp [Consecutive, ty.length_toBytes, h]
    · simp [ty.length_toBytes, h]
  intro w hw
  refine hall w ?_
  simp only [List.mem_cons, List.not_mem_nil, or_false] at hw ⊢
  tauto

/-- The end of the closure of `finish`: the checksum over what is there is put in its
place. -/
def PacketBuilder.seal (b : PacketBuilder) (payloadSize : Sizes) (rest : Bytes) :
    Exec (Bytes × Option Nat) := do
  let size ← addUsize b.ty.headerSize (payloadSize.call 0)
  let rawChecksum ← sumWords ((words (b.ty.header [0, 0] ++ rest)).take (size / 2))
  let sum ← addU16 rawChecksum.toUInt16 (rawChecksum >>> 16).toUInt16
  let written ← addUsize b.ty.headerSize (payloadSize.call 1)
  return (b.ty.header (u16ToBe (~~~sum)) ++ rest, some written)

/-- The closure of `finish` goes on with what the inner closure wrote, whatever that one
returned. -/
theorem PacketBuilder.write_eq (b : PacketBuilder) (payload : Writer) (payloadSize : Sizes)
    {s : Bytes} (hs : 8 ≤ s.length) :
    b.write payload payloadSize s
      = payload.run (s.drop 8) >>= fun done => b.seal payloadSize done.1 := by
  obtain ⟨hty, hrest⟩ := b.ty.length_toBytes
  have hfits : ∀ w ∈ b.writes, w.Fits s.length := by
    simp [PacketBuilder.writes, Write.Fits, hty, hrest]
    omega
  have hwritten : putAll s b.writes = b.ty.header [0, 0] ++ s.drop 8 := by
    rw [putAll_front s (by simp [PacketBuilder.writes, Consecutive, hty])]
    simp [PacketBuilder.writes, Kind.header, hty, hrest]
  have hlen : (b.ty.header [0, 0]).length = 8 := b.ty.length_header rfl
  rw [PacketBuilder.write, writeAll_ok hfits, ok_bind, hwritten,
    onRange_rest payload.length_eq (by simp [hlen]), List.drop_left' hlen, List.take_left' hlen]
  cases payload.run (s.drop 8) with
  | error e => rfl
  | ok done =>
      rw [ok_bind, ok_bind, ok_bind]
      refine bind_congr fun _ => bind_congr fun raw => bind_congr fun sum => ?_
      have hput : put (b.ty.header [0, 0] ++ done.1) 2 (u16ToBe (~~~sum))
          = b.ty.header (u16ToBe (~~~sum)) ++ done.1 := by
        rw [Kind.header, List.append_assoc, put_append hty.symm, length_u16ToBe]
        simp [Kind.header]
      show copyFromSlice (b.ty.header [0, 0] ++ done.1) 2 4 (u16ToBe (~~~sum)) >>= _ = _
      rw [copyFromSlice_ok (by omega) (by rw [List.length_append, hlen]; omega) (by simp), hput]
      rfl

theorem PacketBuilder.finish_always (b : PacketBuilder) (ip : Ipv4.PacketBuilder)
    (payload : Writer) (n : Nat) :
    b.finish ip payload n = ip.finish (b.writer payload n) (b.ty.headerSize + n : Nat) := rfl

theorem PacketBuilder.write_some {b : PacketBuilder} {payload : Writer} {payloadSize : Sizes}
    {s s' : Bytes} {written : Nat} (hs : 8 ≤ s.length)
    (hrun : b.write payload payloadSize s = .ok (s', some written)) :
    ∃ rest r, Holds s' [⟨0, 2, b.ty.toBytes.1⟩, ⟨4, 8, b.ty.toBytes.2⟩] ∧
      payload.run (s.drop 8) = .ok (rest, r) ∧ s'.drop 8 = rest ∧
      written = b.ty.headerSize + payloadSize.call 1 := by
  rw [write_eq b payload payloadSize hs] at hrun
  obtain ⟨⟨rest, r⟩, hinner, hrun⟩ := bind_eq_ok.mp hrun
  obtain ⟨size, -, hrun⟩ := bind_eq_ok.mp hrun
  obtain ⟨raw, -, hrun⟩ := bind_eq_ok.mp hrun
  obtain ⟨sum, -, hrun⟩ := bind_eq_ok.mp hrun
  obtain ⟨total, hadd, hrun⟩ := bind_eq_ok.mp hrun
  obtain ⟨-, rfl⟩ := addUsize_eq_ok.mp hadd
  cases hrun
  have hlen := b.ty.length_header (length_u16ToBe (~~~sum))
  exact ⟨rest, r, b.ty.header_holds (length_u16ToBe _) rest, hinner, List.drop_left' hlen, rfl⟩

theorem echo_holds {raw : Bytes} {ty : UInt8} {identifier sequence : UInt16}
    (hat : Holds raw [⟨0, 2, [ty, 0]⟩, ⟨4, 8, u16ToBe identifier ++ u16ToBe sequence⟩]) :
    Holds raw (echoFields ty identifier sequence) := by
  have hlen : 8 ≤ raw.length := (hat _ (List.mem_of_getElem? (i := 1) rfl)).1
  have hty : sub raw 0 2 = [ty] ++ [0] := (hat _ (List.mem_of_getElem? (i := 0) rfl)).2
  have hids : sub raw 4 8 = u16ToBe identifier ++ u16ToBe sequence :=
    (hat _ (List.mem_of_getElem? (i := 1) rfl)).2
  obtain ⟨h₀, h₁⟩ : sub raw 0 1 = [ty] ∧ sub raw 1 2 = [0] := sub_split hty rfl (by omega)
  obtain ⟨h₄, h₆⟩ : sub raw 4 6 = u16ToBe identifier ∧ sub raw 6 8 = u16ToBe sequence :=
    sub_split hids (by simp) (by omega)
  intro w hw
  simp only [echoFields, List.mem_cons, List.not_mem_nil, or_false] at hw
  rcases hw with rfl | rfl | rfl | rfl
  · exact ⟨by show 1 ≤ raw.length; omega, h₀⟩
  · exact ⟨by show 2 ≤ raw.length; omega, h₁⟩
  · exact ⟨by show 6 ≤ raw.length; omega, h₄⟩
  · exact ⟨hlen, h₆⟩

theorem ofBytes_echoReply {raw : Bytes} {identifier sequence : UInt16}
    (hat : Holds raw (echoFields 0 identifier sequence)) :
    Kind.ofBytes raw = .ok (.echoReply identifier sequence) := by
  rw [Kind.ofBytes, hat.index 0 rfl, ok_bind, hat.index 1 rfl, ok_bind, if_pos ⟨rfl, rfl⟩,
    u16At_of_holds hat 2 rfl (by omega), ok_bind, u16At_of_holds hat 3 rfl (by omega), ok_bind]
  rfl

theorem ofBytes_echoRequest {raw : Bytes} {identifier sequence : UInt16}
    (hat : Holds raw (echoFields 8 identifier sequence)) :
    Kind.ofBytes raw = .ok (.echoRequest identifier sequence) := by
  rw [Kind.ofBytes, hat.index 0 rfl, ok_bind, hat.index 1 rfl, ok_bind, if_neg (by decide),
    if_pos ⟨rfl, rfl⟩, u16At_of_holds hat 2 rfl (by omega), ok_bind,
    u16At_of_holds hat 3 rfl (by omega), ok_bind]
  rfl

/-- `Type::from` undoes `Type::into` for the echo messages. -/
theorem ofBytes_holds {raw : Bytes} {ty : Kind} (hty : ∀ d, ty ≠ .unknown d)
    (hat : Holds raw [⟨0, 2, ty.toBytes.1⟩, ⟨4, 8, ty.toBytes.2⟩]) :
    Kind.ofBytes raw = .ok ty := by
  cases ty with
  | echoRequest identifier sequence => exact ofBytes_echoRequest (echo_holds hat)
  | echoReply identifier sequence => exact ofBytes_echoReply (echo_holds hat)
  | unknown d => exact absurd rfl (hty d)

theorem Packet.getType_holds {p : Packet} {raw : Bytes} {ty : Kind}
    (hpayload : p.ipPacket.payload = .ok raw) (hty : ∀ d, ty ≠ .unknown d)
    (hat : Holds raw [⟨0, 2, ty.toBytes.1⟩, ⟨4, 8, ty.toBytes.2⟩]) : p.getType = .ok ty := by
  rw [Packet.getType, hpayload, ok_bind, ofBytes_holds hty hat]

theorem Packet.payload_holds {p : Packet} {raw : Bytes} {ty : Kind}
    (hpayload : p.ipPacket.payload = .ok raw) (hty : ∀ d, ty ≠ .unknown d)
    (hat : Holds raw [⟨0, 2, ty.toBytes.1⟩, ⟨4, 8, ty.toBytes.2⟩]) :
    p.payload = .ok (raw.drop 8) := by
  have hlen : 8 ≤ raw.length := (hat _ (List.mem_of_getElem? (i := 1) rfl)).1
  have hsize := ty.headerSize_eq
  rw [Packet.payload, hpayload, ok_bind, p.getType_holds hpayload hty hat, ok_bind]
  show range raw ty.headerSize raw.length = _
  rw [hsize, range_ok hlen (Nat.le_refl _), sub_length]

end Icmp

end Rucoonos
