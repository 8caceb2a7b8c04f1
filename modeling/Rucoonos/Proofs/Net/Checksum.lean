/-
When the checksums of the builders are right.

Both `ipv4::PacketHeader::set_checksum` and `icmp::PacketBuilder::finish` add up words
and carry around once.  Where that carries again the addition overflows and nothing is
built; everywhere else the ones' complement sum over the result is `0xffff`, as a
receiver checks it.  The ICMP builder also only adds up whole words, so the last byte of
a payload of odd length is not in the sum, and the checksum is right only if it is zero.

`fieldSum` is the sum of the words as the fields give it, without going through the
bytes.
-/
import Rucoonos.Lib.OnesComplement
import Rucoonos.Net.Handler
import Rucoonos.Proofs.Net.RoundTrip

namespace Rucoonos

open Slice BigEndian OnesComplement

namespace Ipv4

/-! ### The IPv4 header -/

/-- The flags lie over the three highest bits of the fragment offset. -/
theorem PacketHeader.toNat_fragment (h : PacketHeader) :
    (h.offsetHigh ||| (h.flags <<< 5)).toNat * 256 + h.offsetLow.toNat
      = (h.fragmentOffset ||| (h.flags.toUInt16 <<< 13)).toNat := by
  have hoffset := h.fragmentOffset.toNat_lt
  have hflags := h.flags.toNat_lt
  have hhigh : h.offsetHigh.toNat = h.fragmentOffset.toNat / 2 ^ 8 := by
    rw [PacketHeader.offsetHigh, UInt8.toNat_ofNat']
    omega
  have hlow : h.offsetLow.toNat = h.fragmentOffset.toNat % 2 ^ 8 := UInt8.toNat_ofNat'
  have hbyte : (h.flags <<< 5).toNat = h.flags.toNat * 32 % 256 :=
    toNat_shiftLeft h.flags (by decide)
  have hword : (h.flags.toUInt16 <<< 13).toNat = h.flags.toNat * 32 % 256 * 256 := by
    rw [UInt16.toNat_shiftLeft, UInt8.toNat_toUInt16]
    show h.flags.toNat <<< 13 % 65536 = _
    rw [Nat.shiftLeft_eq]
    omega
  generalize h.flags.toNat * 32 % 256 = flags at hbyte hword
  have hdiv : (h.fragmentOffset.toNat ||| flags * 256) / 2 ^ 8
      = h.fragmentOffset.toNat / 2 ^ 8 ||| flags := by
    rw [Nat.or_div_two_pow]
    congr 1
    omega
  have hmod : (h.fragmentOffset.toNat ||| flags * 256) % 2 ^ 8
      = h.fragmentOffset.toNat % 2 ^ 8 := by
    rw [Nat.or_mod_two_pow, show flags * 256 % 2 ^ 8 = 0 by omega, Nat.or_zero]
  rw [UInt8.toNat_or, hhigh, hlow, hbyte, UInt16.toNat_or, hword, ← hdiv, ← hmod]
  omega

/-- The sum of the words of a header, all but the checksum. -/
def PacketHeader.fieldSum (h : PacketHeader) : Nat :=
  ((h.version.toNat % 16 * 16 + h.ihl.toNat % 16) * 256 +
      (h.dscp.toNat % 128 * 2 + h.ecn.toNat % 2)) +
    (h.totalLength.toNat +
    (h.identification.toNat +
    ((h.fragmentOffset ||| (h.flags.toUInt16 <<< 13)).toNat +
    ((h.ttl.toNat * 256 + h.protocol.toU8.toNat) +
    (wordSum h.sourceIp.toList + wordSum h.destinationIp.toList)))))

theorem PacketHeader.wordSum_bytes (h : PacketHeader) :
    wordSum h.bytes = h.fieldSum + h.headerChecksum.toNat := by
  have hbytes : h.bytes =
      [(0 : UInt8) ||| (h.version <<< 4) ||| (h.ihl &&& 0x0f),
        (0 : UInt8) ||| (h.dscp <<< 1) ||| (h.ecn &&& 0x01)] ++
      (u16ToBe h.totalLength ++ (u16ToBe h.identification ++
      ([h.offsetHigh ||| (h.flags <<< 5), h.offsetLow] ++ ([h.ttl, h.protocol.toU8] ++
      (u16ToBe h.headerChecksum ++ (h.sourceIp.toList ++ h.destinationIp.toList)))))) := by
    simp [PacketHeader.bytes, PacketHeader.wire, PacketHeader.front, PacketHeader.back, Write.one]
  rw [hbytes, wordSum_append _ (by simp), wordSum_append _ (by simp), wordSum_append _ (by simp),
    wordSum_append _ (by simp), wordSum_append _ (by simp), wordSum_append _ (by simp),
    wordSum_append _ (by simp), wordSum_u16ToBe, wordSum_u16ToBe, wordSum_u16ToBe]
  simp only [wordSum_cons_cons, wordSum_nil, Nat.add_zero]
  rw [toNat_version_ihl, toNat_dscp_ecn, h.toNat_fragment, PacketHeader.fieldSum]
  omega

theorem PacketHeader.fieldSum_le (h : PacketHeader) : h.fieldSum ≤ 655350 := by
  have hle := wordSum_le h.bytes
  rw [h.wordSum_bytes, h.length_bytes] at hle
  omega

/-- `set_checksum` adds up the words, carries around once and takes the complement. -/
theorem PacketHeader.setChecksum_sum (h : PacketHeader) :
    ∃ raw : UInt32, raw.toNat = h.fieldSum ∧
      h.setChecksum = addU16 (raw &&& 0xffff).toUInt16 (raw >>> 16).toUInt16 >>=
        fun sum => .ok { h with headerChecksum := ~~~sum } := by
  have hbound := h.fieldSum_le
  have hsum : wordSum { h with headerChecksum := 0 }.bytes = h.fieldSum := by
    rw [PacketHeader.wordSum_bytes, UInt16.toNat_zero, Nat.add_zero]
    rfl
  obtain ⟨raw, hraw, hval⟩ := sumWords_ok
    (by rw [← wordSum, hsum]; omega :
      ((words { h with headerChecksum := 0 }.bytes).map UInt16.toNat).sum < 2 ^ 32)
  refine ⟨raw, hval.trans hsum, ?_⟩
  rw [PacketHeader.setChecksum, PacketHeader.toBytes_eq _ (by simp), ok_bind,
    List.drop_of_length_le (by simp), List.append_nil]
  show sumWords (words { h with headerChecksum := 0 }.bytes) >>= _ = _
  rw [hraw]
  rfl

theorem PacketHeader.ends_setChecksum (h : PacketHeader) :
    Ends h.setChecksum ↔ ¬ CarriesTwice 65535 h.fieldSum := by
  have hbound := h.fieldSum_le
  obtain ⟨raw, hval, hrun⟩ := h.setChecksum_sum
  rw [hrun, ends_bind_ok]
  exact ends_addU16 (by rw [toNat_masked, hval]) (by rw [toNat_shifted, hval]) (by omega)

theorem PacketHeader.checks_setChecksum {h h' : PacketHeader} (hrun : h.setChecksum = .ok h') :
    Checks h'.bytes := by
  obtain ⟨raw, hval, heq⟩ := h.setChecksum_sum
  rw [heq] at hrun
  obtain ⟨sum, hsum, hrun⟩ := bind_eq_ok.mp hrun
  cases hrun
  have hboth := add_complement (n := h.fieldSum) (by rw [toNat_masked, hval])
    (by rw [toNat_shifted, hval]) hsum
  rw [checks_iff, padEven_of_even (by rw [PacketHeader.length_bytes]), PacketHeader.wordSum_bytes]
  exact hboth

/--
**When the header checksum is right.**  For every header, `set_checksum` returns, and
the ten words of the header it returns come to `0xffff`, exactly if carrying around once
is enough for the sum of its fields.
-/
theorem header_checksum_iff (h : PacketHeader) :
    (∃ h' bytes, h.setChecksum = .ok h' ∧ h'.toBytes (zeros 20) = .ok (bytes, some ()) ∧
      (words bytes).length = 10 ∧ wrap 0xffff (wordSum bytes) = 0xffff) ↔
      ¬ CarriesTwice 0xffff h.fieldSum := by
  rw [← h.ends_setChecksum]
  constructor
  · rintro ⟨h', -, hrun, -⟩
    exact ⟨h', hrun⟩
  · rintro ⟨h', hrun⟩
    have hchecks := PacketHeader.checks_setChecksum hrun
    have hlen := h'.length_bytes
    refine ⟨h', h'.bytes, hrun, ?_, ?_, ?_⟩
    · rw [h'.toBytes_eq (by simp), List.drop_of_length_le (by simp), List.append_nil]
    · rw [length_words, hlen]
    · rw [Checks, padEven_of_even (by rw [hlen])] at hchecks
      exact hchecks

/-- The ping of a device at 10.10.10.10 to this address. -/
def pingBuilder (ip : Ip) : PacketBuilder where
  dscp := 0
  ident := 0x1234
  ttl := 20
  protocol := .icmp
  source := Vector.replicate 4 10
  sourceMac := Vector.replicate 6 2
  destination := ip
  destinationMac := Vector.replicate 6 4

/-- Its header comes to 131071 for 192.168.191.242: the device cannot ping that address. -/
theorem ping_overflows :
    let b := pingBuilder #v[192, 168, 191, 242]
    (b.header 8).fieldSum = 131071 ∧ (b.header 8).setChecksum = .error .overflow ∧
      Net.echoRequest b.destination b.destinationMac
        ⟨0, ⟨b.sourceMac, some b.source, .done⟩, []⟩ = .error .overflow := by
  decide +kernel

/-- The payload size goes into the total length and nowhere else. -/
theorem PacketBuilder.fieldSum_header (b : PacketBuilder) {n : Nat} (hn : 20 + n < 65536) :
    (b.header n).fieldSum = (b.header 0).fieldSum + n := by
  have htotal : (UInt16.ofNat (20 + n)).toNat = 20 + n := Nat.mod_eq_of_lt hn
  have hzero : (UInt16.ofNat (20 + 0)).toNat = 20 := rfl
  simp only [PacketHeader.fieldSum, PacketBuilder.header, htotal, hzero]
  omega

/-- A closure that returns the size that was announced makes a frame. -/
theorem PacketBuilder.finish_of_run {b : PacketBuilder} {payload : Writer} {sizes : Sizes}
    {rest : Bytes} (hfits : 20 + sizes.call 0 < 2 ^ 64)
    (hsum : ¬ CarriesTwice 65535 (b.header (sizes.call 0)).fieldSum) (hn : sizes.call 2 ≤ 1466)
    (hrun : payload.run (zeros 1466) = .ok (rest, some (sizes.call 1))) :
    ∃ frame, b.finish payload sizes = .ok (some frame) := by
  obtain ⟨h, hh⟩ := (b.header (sizes.call 0)).ends_setChecksum.mpr hsum
  rw [finish_eq, addUsize_ok hfits, ok_bind, hh, ok_bind, hrun, ok_bind,
    checkSize_ok (by rw [h.length_bytes]; omega), ok_bind, Ethernet.PacketBuilder.close,
    if_pos (by rw [h.length_bytes]; omega)]
  exact ⟨_, rfl⟩

end Ipv4

theorem Udp.PacketBuilder.finish_of_run {b : Udp.PacketBuilder} {ip : Ipv4.PacketBuilder}
    {payload : Writer} {n : Nat} {rest : Bytes}
    (hsum : ¬ CarriesTwice 65535 (ip.header (8 + n)).fieldSum) (hn : n ≤ 1458)
    (hrun : payload.run (zeros 1458) = .ok (rest, some n)) :
    ∃ frame, b.finish ip payload n = .ok (some frame) := by
  have hwrite : (b.writer payload n).run (zeros 1466)
      = .ok ((b.header n).bytes ++ rest, some (8 + n)) := by
    have hbytes := (b.header n).length_bytes
    show b.write payload n (zeros 1466) = _
    rw [write_eq b payload n (by simp), drop_zeros, hrun, Sizes.call_always,
      addUsize_ok (by omega), ok_bind, ok_bind]
    show checkSize (b.header n).bytes n n rest (some n) = _
    rw [checkSize_ok (by omega), hbytes]
  rw [finish_always]
  exact Ipv4.PacketBuilder.finish_of_run (show 20 + (8 + n) < 2 ^ 64 by omega) hsum
    (show 8 + n ≤ 1466 by omega) hwrite

/-! ### The ICMP message -/

namespace Icmp

/-- The sum of the words of a header, all but the checksum. -/
def Kind.fieldSum (ty : Kind) : Nat := wordSum ty.toBytes.1 + wordSum ty.toBytes.2

theorem Kind.wordSum_header (ty : Kind) (checksum : UInt16) :
    wordSum (ty.header (u16ToBe checksum)) = ty.fieldSum + checksum.toNat := by
  have hlen := ty.length_toBytes
  rw [Kind.header, wordSum_append _ (by rw [hlen.1]), wordSum_append _ (by simp), wordSum_u16ToBe,
    Kind.fieldSum]
  omega

theorem Kind.fieldSum_le (ty : Kind) : ty.fieldSum ≤ 65535 * 3 := by
  have h₁ := wordSum_le ty.toBytes.1
  have h₂ := wordSum_le ty.toBytes.2
  rw [ty.length_toBytes.1] at h₁
  rw [ty.length_toBytes.2] at h₂
  unfold Kind.fieldSum
  omega

section Seal

variable {b : PacketBuilder} {sizes : Sizes} {rest : Bytes} (hrest : rest.length ≤ 1458)
include hrest

theorem wordSum_take_le (n : Nat) : wordSum (rest.take n) ≤ 65535 * 729 := by
  have hbound := wordSum_le (rest.take n)
  have hlen := List.length_take_le' n rest
  omega

variable (b sizes) in
/-- The builder adds up the words of the header and the whole words of the payload. -/
theorem PacketBuilder.seal_sum :
    ∃ raw : UInt32, raw.toNat = b.ty.fieldSum + wordSum (rest.take (sizes.call 0)) ∧
      b.seal sizes rest
        = addUsize 8 (sizes.call 0) >>= fun _ =>
          addU16 raw.toUInt16 (raw >>> 16).toUInt16 >>= fun sum =>
            addUsize 8 (sizes.call 1) >>= fun written =>
              .ok (b.ty.header (u16ToBe (~~~sum)) ++ rest, some written) := by
  generalize hn : sizes.call 0 = n
  have hzero : (b.ty.header [0, 0]) = b.ty.header (u16ToBe 0) := rfl
  have hlen : (b.ty.header (u16ToBe 0)).length = 8 := b.ty.length_header (length_u16ToBe 0)
  have hpayload : wordSum (rest.take (2 * (n / 2))) = wordSum (rest.take n) := by
    by_cases hshort : n ≤ rest.length
    · have heven := wordSum_take_even (rest.take n)
      rwa [List.length_take_of_le hshort, List.take_take, Nat.min_eq_left (by omega)] at heven
    · rw [List.take_of_length_le (by omega), List.take_of_length_le (by omega)]
  have hsum : wordSum ((b.ty.header (u16ToBe 0) ++ rest).take (2 * ((8 + n) / 2)))
      = b.ty.fieldSum + wordSum (rest.take n) := by
    rw [show 2 * ((8 + n) / 2) = 8 + 2 * (n / 2) by omega, List.take_append, hlen,
      List.take_of_length_le (by omega), Nat.add_sub_cancel_left, wordSum_append _ (by omega),
      hpayload, b.ty.wordSum_header]
    rfl
  have hbound := wordSum_take_le hrest n
  have hheader := b.ty.fieldSum_le
  obtain ⟨raw, hraw, hval⟩ := sumWords_ok
    (by rw [take_words, ← wordSum, hsum]; omega :
      (((words (b.ty.header (u16ToBe 0) ++ rest)).take ((8 + n) / 2)).map UInt16.toNat).sum
        < 2 ^ 32)
  rw [take_words, ← wordSum, hsum] at hval
  refine ⟨raw, hval, ?_⟩
  rw [PacketBuilder.seal, b.ty.headerSize_eq, hn, hzero]
  by_cases hfits : 8 + n < 2 ^ 64
  · rw [addUsize_ok hfits, ok_bind, ok_bind, hraw]
    rfl
  · rw [addUsize, if_neg hfits]
    rfl

theorem PacketBuilder.ends_seal :
    Ends (b.seal sizes rest) ↔ 8 + sizes.call 0 < 2 ^ 64 ∧
      ¬ CarriesTwice 65535 (b.ty.fieldSum + wordSum (rest.take (sizes.call 0))) ∧
      8 + sizes.call 1 < 2 ^ 64 := by
  have hbound := wordSum_take_le hrest (sizes.call 0)
  have hheader := b.ty.fieldSum_le
  obtain ⟨raw, hval, hrun⟩ := PacketBuilder.seal_sum b sizes hrest
  rw [hrun]
  refine ends_bind_of ends_addUsize fun _ _ => ends_bind_of ?_ fun _ _ => ?_
  · exact ends_addU16 (by rw [toNat_toUInt16, hval]) (by rw [toNat_shifted, hval]) (by omega)
  · rw [ends_bind_ok, ends_addUsize]

/-- The message is right unless the byte that was left out counts. -/
theorem PacketBuilder.checks_seal {n : Nat} (hn : n ≤ rest.length) {s : Bytes} {r : Option Nat}
    (h : b.seal n rest = .ok (s, r)) :
    r = some (8 + n) ∧ s.length = 8 + rest.length ∧
      (Checks (s.take (8 + n)) ↔ n % 2 = 0 ∨ (rest.take n).getLast? = some 0) := by
  obtain ⟨raw, hval, hrun⟩ := PacketBuilder.seal_sum b n hrest
  have hval : raw.toNat = b.ty.fieldSum + wordSum (rest.take n) := hval
  rw [hrun] at h
  obtain ⟨size, -, h⟩ := bind_eq_ok.mp h
  obtain ⟨sum, hsum, h⟩ := bind_eq_ok.mp h
  obtain ⟨written, hadd, h⟩ := bind_eq_ok.mp h
  obtain ⟨-, rfl⟩ := addUsize_eq_ok.mp hadd
  cases h
  obtain ⟨hpos, hdvd⟩ := add_complement (n := b.ty.fieldSum + wordSum (rest.take n))
    (by rw [toNat_toUInt16, hval]) (by rw [toNat_shifted, hval]) hsum
  have hlen := b.ty.length_header (length_u16ToBe (~~~sum))
  refine ⟨rfl, by rw [List.length_append, hlen], ?_⟩
  have htake : (b.ty.header (u16ToBe (~~~sum)) ++ rest).take (8 + n)
      = b.ty.header (u16ToBe (~~~sum)) ++ rest.take n := by
    rw [List.take_append, hlen, List.take_of_length_le (by omega), Nat.add_sub_cancel_left]
  rw [Nat.add_right_comm] at hpos hdvd
  rw [htake, checks_iff, wordSum_padEven_append _ (by rw [hlen]), b.ty.wordSum_header,
    dvd_padEven_iff hpos hdvd, List.length_take_of_le hn]

end Seal

/-- A payload of at most 1458 bytes is handed on as it is. -/
theorem PacketBuilder.run_writes (b : PacketBuilder) {w : Writer} {p : Bytes} (hw : w.Writes p)
    (hp : p.length ≤ 1458) :
    (b.writer w p.length).run (zeros 1466) = b.seal p.length (p ++ zeros (1458 - p.length)) := by
  show b.write w p.length (zeros 1466) = _
  rw [PacketBuilder.write_eq b w p.length (by simp), drop_zeros, hw _ (by simpa using hp), ok_bind,
    drop_zeros]

theorem length_padded {p : Bytes} (hp : p.length ≤ 1458) :
    (p ++ zeros (1458 - p.length)).length ≤ 1458 ∧
      p.length ≤ (p ++ zeros (1458 - p.length)).length := by
  rw [List.length_append, length_zeros]
  omega

section Writes

variable {ty : Kind} {w : Writer} {p : Bytes} (hw : w.Writes p) (hp : p.length ≤ 1458)
include hw hp

/-- The message in a frame that was returned. -/
theorem finish_checks {ip : Ipv4.PacketBuilder} {frame : Ethernet.Packet}
    (h : PacketBuilder.finish ⟨ty⟩ ip w p.length = .ok (some frame)) :
    ¬ CarriesTwice 65535 (ty.fieldSum + wordSum p) ∧
      ∃ raw, Ipv4.Packet.payload ⟨frame⟩ = .ok raw ∧
        (Checks (raw.take (8 + p.length)) ↔ p.length % 2 = 0 ∨ p.getLast? = some 0) := by
  rw [PacketBuilder.finish_always, ty.headerSize_eq] at h
  obtain ⟨-, -, message, hrun, hpayload⟩ := Ipv4.PacketBuilder.finish_carried h
  rw [PacketBuilder.run_writes ⟨ty⟩ hw hp] at hrun
  obtain ⟨hrest, hn⟩ := length_padded hp
  obtain ⟨-, hends, -⟩ := (PacketBuilder.ends_seal hrest).mp ⟨_, hrun⟩
  obtain ⟨-, -, hchecks⟩ := PacketBuilder.checks_seal hrest hn hrun
  rw [Sizes.call_always, List.take_left] at hends
  rw [List.take_left] at hchecks
  refine ⟨hends, _, hpayload, ?_⟩
  rw [List.take_take, Nat.min_eq_left (by omega)]
  exact hchecks

theorem finish_returns {ip : Ipv4.PacketBuilder}
    (hip : ¬ CarriesTwice 65535 (ip.header (8 + p.length)).fieldSum)
    (hsum : ¬ CarriesTwice 65535 (ty.fieldSum + wordSum p)) :
    ∃ frame, PacketBuilder.finish ⟨ty⟩ ip w p.length = .ok (some frame) := by
  obtain ⟨hrest, hn⟩ := length_padded hp
  have hends : Ends (PacketBuilder.seal ⟨ty⟩ p.length (p ++ zeros (1458 - p.length))) := by
    rw [PacketBuilder.ends_seal hrest, Sizes.call_always, Sizes.call_always, List.take_left]
    exact ⟨by omega, hsum, by omega⟩
  obtain ⟨⟨message, r⟩, hseal⟩ := hends
  obtain ⟨rfl, -, -⟩ := PacketBuilder.checks_seal hrest hn hseal
  have hrun : (PacketBuilder.writer ⟨ty⟩ w p.length).run (zeros 1466)
      = .ok (message, some (8 + p.length)) := by
    rw [PacketBuilder.run_writes ⟨ty⟩ hw hp, hseal]
  rw [PacketBuilder.finish_always, ty.headerSize_eq]
  exact Ipv4.PacketBuilder.finish_of_run (show 20 + (8 + p.length) < 2 ^ 64 by omega) hip
    (show 8 + p.length ≤ 1466 by omega) hrun

end Writes

/-- All zeroes, so that the header's sum never carries. -/
def plainBuilder : Ipv4.PacketBuilder where
  dscp := 0
  ident := 0
  ttl := 0
  protocol := .icmp
  source := noIp
  sourceMac := Vector.replicate 6 0
  destination := noIp
  destinationMac := Vector.replicate 6 0

theorem plainBuilder_sums {n : Nat} (hn : n ≤ 1466) :
    ¬ CarriesTwice 65535 (plainBuilder.header n).fieldSum := by
  have hzero : (plainBuilder.header 0).fieldSum = 17685 := by decide
  rw [plainBuilder.fieldSum_header (by omega), hzero, CarriesTwice]
  omega

/--
**When the ICMP checksum is right.**  For every type and every payload of at most 1458
bytes, whatever the IPv4 builder, as long as the IPv4 header can be summed: a frame is
returned, and the message in it, padded to an even length, comes to `0xffff`, exactly if
carrying around once is enough for the sum of the header fields and the whole words of
the payload and the payload has an even length or ends in a zero.
-/
theorem icmp_checksum_iff (ty : Kind) (w : Writer) (p : Bytes) (hw : w.Writes p)
    (hp : p.length ≤ 1458) :
    (∀ ip : Ipv4.PacketBuilder, ¬ CarriesTwice 0xffff (ip.header (8 + p.length)).fieldSum →
      ∃ frame raw, PacketBuilder.finish ⟨ty⟩ ip w p.length = .ok (some frame) ∧
        Ipv4.Packet.payload ⟨frame⟩ = .ok raw ∧ Checks (raw.take (8 + p.length))) ↔
      ¬ CarriesTwice 0xffff (ty.fieldSum + wordSum p) ∧
        (p.length % 2 = 0 ∨ p.getLast? = some 0) := by
  constructor
  · intro hall
    obtain ⟨frame, raw, hframe, hraw, hchecks⟩ := hall plainBuilder (plainBuilder_sums (by omega))
    obtain ⟨hsum, raw', hraw', hiff⟩ := finish_checks hw hp hframe
    rw [hraw] at hraw'
    cases hraw'
    exact ⟨hsum, hiff.mp hchecks⟩
  · rintro ⟨hsum, hlast⟩ ip hip
    obtain ⟨frame, hframe⟩ := finish_returns hw hp hip hsum
    obtain ⟨-, raw, hraw, hiff⟩ := finish_checks hw hp hframe
    exact ⟨frame, raw, hframe, hraw, hiff.mpr hlast⟩

theorem icmp_checksum_iff_even :
    ∃ frame raw, PacketBuilder.finish ⟨.echoRequest 1 2⟩ sampleBuilder
        (.ofWrites [⟨0, 2, [97, 98]⟩] 2) 2 = .ok (some frame) ∧
      Ipv4.Packet.payload ⟨frame⟩ = .ok raw ∧ Checks (raw.take 10) :=
  (icmp_checksum_iff (.echoRequest 1 2) (.ofWrites [⟨0, 2, [97, 98]⟩] 2) [97, 98]
    (Writer.ofWrites_front [97, 98]) (by decide)).mpr ⟨by decide, by decide⟩ sampleBuilder
    (by decide)

/-- The message of an echo request with the payload `abc` does not check, and that of an
empty one with these numbers cannot be summed. -/
theorem odd_payload_fails :
    (∃ frame raw, PacketBuilder.finish ⟨.echoRequest 1 2⟩ sampleBuilder sampleWriter 3
        = .ok (some frame) ∧
      Ipv4.Packet.payload ⟨frame⟩ = .ok raw ∧ ¬ Checks (raw.take 11)) ∧
    PacketBuilder.finish ⟨.echoRequest 0xffff 0xf800⟩ sampleBuilder Net.emptyWriter 0
      = .error .overflow := by
  have hp : [97, 98, 99].length ≤ 1458 := by decide
  obtain ⟨frame, hframe⟩ := finish_returns sampleWriter_writes hp
    (by decide : ¬ CarriesTwice 65535 (sampleBuilder.header (8 + 3)).fieldSum)
    (by decide : ¬ CarriesTwice 65535 (Kind.fieldSum (.echoRequest 1 2) + _))
  obtain ⟨-, raw, hraw, hiff⟩ := finish_checks sampleWriter_writes hp hframe
  have hlast : ¬ ([97, 98, 99].length % 2 = 0 ∨
      ([97, 98, 99] : Bytes).getLast? = some 0) := by decide
  exact ⟨⟨frame, raw, hframe, hraw, fun hc => hlast (hiff.mp hc)⟩, by decide +kernel⟩

end Icmp

end Rucoonos
