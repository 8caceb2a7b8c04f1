/-
What the builders make of a closure that fails.

The payload of a packet is written by a closure of the caller, which may fail or return
a size other than the one announced.  The IPv4 and UDP builders pass the failure on and
check the size.  The ICMP builder drops what the closure returned, so a frame is made
from whatever the closure left in its slice.  `builders_report_iff` says of every
builder, closure and size function whether the failure is reported.

The size function is called several times, and nothing keeps it from returning another
size each time, so each place has its own call here.
-/
import Rucoonos.Proofs.Net.Checksum

namespace Rucoonos

open Slice BigEndian OnesComplement

/-- A builder that takes its payload from a closure. -/
inductive Builder
  | ipv4 (b : Ipv4.PacketBuilder)
  | udp (b : Udp.PacketBuilder) (ip : Ipv4.PacketBuilder)
  | icmp (b : Icmp.PacketBuilder) (ip : Ipv4.PacketBuilder)

namespace Builder

def finish : Builder → Writer → Sizes → Exec (Option Ethernet.Packet)
  | .ipv4 b, payload, sizes => b.finish payload sizes
  | .udp b ip, payload, sizes => b.finish ip payload sizes
  | .icmp b ip, payload, sizes => b.finish ip payload sizes

/-- The IPv4 header of its packets. -/
def header : Builder → Nat → Ipv4.PacketHeader
  | .ipv4 b, n => b.header n
  | .udp _ ip, n => ip.header (8 + n)
  | .icmp _ ip, n => ip.header (8 + n)

/-- The slice its closure is handed. -/
def slice : Builder → Bytes
  | .ipv4 _ => zeros 1466
  | .udp .. => zeros 1458
  | .icmp .. => zeros 1458

/-- How often `payload_size` is called before the closure is. -/
def asked : Builder → Nat
  | .ipv4 _ => 1
  | .udp .. => 2
  | .icmp .. => 1

/-- The lengths that are computed before the closure is called fit a `usize`. -/
def Fits : Builder → Sizes → Prop
  | .ipv4 _, sizes => 20 + sizes.call 0 < 2 ^ 64
  | .udp .., sizes => 28 + sizes.call 0 < 2 ^ 64 ∧ 8 + sizes.call 1 < 2 ^ 64
  | .icmp .., sizes => 28 + sizes.call 0 < 2 ^ 64

/-- The closure is called.  Otherwise a length or the sum of the header overflows before. -/
def Calls (b : Builder) (sizes : Sizes) : Prop :=
  b.Fits sizes ∧ ¬ CarriesTwice 0xffff (b.header (sizes.call 0)).fieldSum

/-- A frame means that the closure returned the size that `payload_size` returns next, and
a failure of the closure is a failure of the builder. -/
structure Reports (b : Builder) (payload : Writer) (sizes : Sizes) : Prop where
  ok : ∀ frame, b.finish payload sizes = .ok (some frame) →
    ∃ rest, payload.run b.slice = .ok (rest, some (sizes.call b.asked))
  err : ∀ rest, payload.run b.slice = .ok (rest, none) → b.Calls sizes →
    b.finish payload sizes = .ok none

end Builder

/-! ### What IPv4 returns -/

namespace Ipv4

variable {b : PacketBuilder} {payload : Writer} {sizes : Sizes}

/-- A frame or a failure is what becomes of what the closure has returned. -/
theorem PacketBuilder.of_finish {r : Option Ethernet.Packet}
    (h : b.finish payload sizes = .ok r) :
    20 + sizes.call 0 < 2 ^ 64 ∧ ¬ CarriesTwice 65535 (b.header (sizes.call 0)).fieldSum ∧
      ∃ (hdr : PacketHeader) (rest : Bytes) (size : Option Nat) (content : Bytes × Option Nat),
        payload.run (zeros 1466) = .ok (rest, size) ∧
        checkSize hdr.bytes (sizes.call 1) (sizes.call 2) rest size = .ok content ∧
        Ethernet.PacketBuilder.close ⟨b.sourceMac, b.destinationMac,
          Ethernet.EthType.ipv4.toBytes⟩ content.1 content.2 = .ok r := by
  rw [finish_eq] at h
  obtain ⟨total, hfits, h⟩ := bind_eq_ok.mp h
  obtain ⟨hdr, hsum, h⟩ := bind_eq_ok.mp h
  obtain ⟨⟨rest, size⟩, hrun, h⟩ := bind_eq_ok.mp h
  obtain ⟨content, hcheck, h⟩ := bind_eq_ok.mp h
  exact ⟨(addUsize_eq_ok.mp hfits).1, (PacketHeader.ends_setChecksum _).mp ⟨hdr, hsum⟩,
    hdr, rest, size, content, hrun, hcheck, h⟩

theorem PacketBuilder.finish_some_iff :
    (∃ frame, b.finish payload sizes = .ok (some frame)) ↔
      20 + sizes.call 0 < 2 ^ 64 ∧ ¬ CarriesTwice 65535 (b.header (sizes.call 0)).fieldSum ∧
      sizes.call 2 ≤ 1466 ∧
      ∃ rest, payload.run (zeros 1466) = .ok (rest, some (sizes.call 1)) := by
  constructor
  · rintro ⟨frame, h⟩
    obtain ⟨hfits, hsum, hdr, rest, size, ⟨tail, written⟩, hrun, hcheck, hclose⟩ := of_finish h
    obtain ⟨written, rfl, hmax, -⟩ := Ethernet.PacketBuilder.close_some hclose
    obtain ⟨rfl, rfl, rfl⟩ := checkSize_some hcheck
    rw [hdr.length_bytes] at hmax
    exact ⟨hfits, hsum, by omega, rest, hrun⟩
  · rintro ⟨hfits, hsum, hn, rest, hrun⟩
    exact PacketBuilder.finish_of_run hfits hsum hn hrun

theorem PacketBuilder.finish_none_iff :
    b.finish payload sizes = .ok none ↔
      20 + sizes.call 0 < 2 ^ 64 ∧ ¬ CarriesTwice 65535 (b.header (sizes.call 0)).fieldSum ∧
      ∃ rest, payload.run (zeros 1466) = .ok (rest, none) := by
  constructor
  · intro h
    obtain ⟨hfits, hsum, hdr, rest, size, content, hrun, hcheck, hclose⟩ := of_finish h
    cases size with
    | none => exact ⟨hfits, hsum, rest, hrun⟩
    | some size =>
        obtain ⟨-, -, hcheck⟩ := bind_eq_ok.mp hcheck
        obtain ⟨total, -, hcheck⟩ := bind_eq_ok.mp hcheck
        cases hcheck
        rw [Ethernet.PacketBuilder.close] at hclose
        split at hclose
        · cases hclose
        · cases hclose
  · rintro ⟨hfits, hsum, rest, hrun⟩
    obtain ⟨hdr, hh⟩ := (PacketHeader.ends_setChecksum _).mpr hsum
    rw [finish_eq, addUsize_ok hfits, ok_bind, hh, ok_bind, hrun, ok_bind]
    rfl

end Ipv4

/-! ### Layers that report -/

theorem Builder.ipv4_reports (b : Ipv4.PacketBuilder) (payload : Writer) (sizes : Sizes) :
    (Builder.ipv4 b).Reports payload sizes where
  ok := by
    intro frame h
    obtain ⟨-, -, -, hrun⟩ := Ipv4.PacketBuilder.finish_some_iff.mp ⟨frame, h⟩
    exact hrun
  err := fun rest hrun hcalls =>
    Ipv4.PacketBuilder.finish_none_iff.mpr ⟨hcalls.1, hcalls.2, rest, hrun⟩

theorem Builder.udp_reports (b : Udp.PacketBuilder) (ip : Ipv4.PacketBuilder) (payload : Writer)
    (sizes : Sizes) : (Builder.udp b ip).Reports payload sizes where
  ok := by
    intro frame h
    obtain ⟨-, -, -, message, hrun⟩ := Ipv4.PacketBuilder.finish_some_iff.mp ⟨frame, h⟩
    obtain ⟨rest, -, hinner, -⟩ := Udp.PacketBuilder.write_some (by simp) hrun
    rw [drop_zeros] at hinner
    exact ⟨rest, hinner⟩
  err := by
    rintro rest hrun ⟨⟨hip, hudp⟩, hsum⟩
    have hip : 28 + sizes.call 0 < 2 ^ 64 := hip
    have hudp : 8 + sizes.inner.call 0 < 2 ^ 64 := hudp
    have hfail : (b.writer payload sizes.inner).run (zeros 1466)
        = .ok ((b.header (sizes.call 1)).bytes ++ rest, none) := by
      show b.write payload sizes.inner (zeros 1466) = _
      rw [Udp.PacketBuilder.write_eq b payload _ (by simp), addUsize_ok hudp, ok_bind, drop_zeros]
      show payload.run (Builder.udp b ip).slice >>= _ = _
      rw [hrun]
      rfl
    exact Ipv4.PacketBuilder.finish_none_iff.mpr
      ⟨show 20 + (8 + sizes.call 0) < 2 ^ 64 by omega, hsum, _, hfail⟩

/-! ### The layer that does not -/

namespace Icmp

variable (b : PacketBuilder) (ip : Ipv4.PacketBuilder) (payload : Writer) (sizes : Sizes)

/-- The builder makes a frame of what the closure left in its slice. -/
structure PacketBuilder.Sends (rest : Bytes) : Prop where
  calls : (Builder.icmp b ip).Calls sizes
  fits : 8 + sizes.call 1 < 2 ^ 64 ∧ 8 + sizes.call 2 < 2 ^ 64
  sums : ¬ CarriesTwice 0xffff (b.ty.fieldSum + wordSum (rest.take (sizes.call 1)))
  agrees : sizes.call 2 = sizes.call 3
  room : sizes.call 4 ≤ 1458

variable {b ip payload sizes}

theorem PacketBuilder.run_writer :
    (b.writer payload sizes).run (zeros 1466)
      = payload.run (zeros 1458) >>= fun done => b.seal sizes done.1 := by
  show b.write payload sizes (zeros 1466) = _
  rw [PacketBuilder.write_eq b payload sizes (by simp), drop_zeros]

theorem PacketBuilder.seal_size {rest message : Bytes} {r : Option Nat}
    (h : b.seal sizes rest = .ok (message, r)) : r = some (8 + sizes.call 1) := by
  obtain ⟨size, -, h⟩ := bind_eq_ok.mp h
  obtain ⟨raw, -, h⟩ := bind_eq_ok.mp h
  obtain ⟨sum, -, h⟩ := bind_eq_ok.mp h
  obtain ⟨written, hadd, h⟩ := bind_eq_ok.mp h
  obtain ⟨-, rfl⟩ := addUsize_eq_ok.mp hadd
  cases h
  rw [b.ty.headerSize_eq]

/-- Whatever the closure returned. -/
theorem PacketBuilder.finish_some_iff :
    (∃ frame, b.finish ip payload sizes = .ok (some frame)) ↔
      ∃ rest r, payload.run (zeros 1458) = .ok (rest, r) ∧ b.Sends ip sizes rest := by
  rw [PacketBuilder.finish, b.ty.headerSize_eq, Ipv4.PacketBuilder.finish_some_iff,
    PacketBuilder.run_writer]
  constructor
  · rintro ⟨hip, hsum, hroom, message, hrun⟩
    obtain ⟨⟨rest, r⟩, hpayload, hseal⟩ := bind_eq_ok.mp hrun
    have hrest := payload.length_eq _ _ _ hpayload
    rw [length_zeros] at hrest
    obtain ⟨hfirst, hsums, hsecond⟩ := (PacketBuilder.ends_seal hrest.le).mp ⟨_, hseal⟩
    have hsize : 8 + sizes.call 3 = 8 + sizes.call 2 :=
      Option.some.inj (PacketBuilder.seal_size hseal)
    have hip : 20 + (8 + sizes.call 0) < 2 ^ 64 := hip
    have hroom : 8 + sizes.call 4 ≤ 1466 := hroom
    exact ⟨rest, r, hpayload,
      { calls := ⟨show 28 + sizes.call 0 < 2 ^ 64 by omega, hsum⟩
        fits := ⟨hfirst, hsecond⟩
        sums := hsums
        agrees := by omega
        room := by omega }⟩
  · rintro ⟨rest, r, hpayload, hsends⟩
    have hrest := payload.length_eq _ _ _ hpayload
    rw [length_zeros] at hrest
    have hip : 28 + sizes.call 0 < 2 ^ 64 := hsends.calls.1
    have hroom := hsends.room
    have hends : Ends (b.seal sizes.inner rest) :=
      (PacketBuilder.ends_seal hrest.le).mpr ⟨hsends.fits.1, hsends.sums, hsends.fits.2⟩
    obtain ⟨⟨message, size⟩, hseal⟩ := hends
    obtain rfl : size = some (8 + sizes.call 3) := by
      rw [← hsends.agrees]
      exact PacketBuilder.seal_size hseal
    refine ⟨show 20 + (8 + sizes.call 0) < 2 ^ 64 by omega, hsends.calls.2,
      show 8 + sizes.call 4 ≤ 1466 by omega, message, ?_⟩
    rw [hpayload, ok_bind, hseal]
    rfl

/-- It never fails. -/
theorem PacketBuilder.finish_ne_none : b.finish ip payload sizes ≠ .ok none := by
  rw [PacketBuilder.finish, ne_eq, Ipv4.PacketBuilder.finish_none_iff, PacketBuilder.run_writer]
  rintro ⟨-, -, message, hrun⟩
  obtain ⟨done, -, hseal⟩ := bind_eq_ok.mp hrun
  cases PacketBuilder.seal_size hseal

end Icmp

/-- No failure is dropped.  An ICMP builder drops none if it does not call a closure that
fails, and makes no frame where the closure returns another size than `payload_size` does
next.  The other builders drop nothing. -/
def Builder.Heeds : Builder → Writer → Sizes → Prop
  | .icmp b ip, payload, sizes => ∀ rest r, payload.run (zeros 1458) = .ok (rest, r) →
      match r with
      | some n => n = sizes.call 1 ∨ ¬ b.Sends ip sizes rest
      | none => ¬ (Builder.icmp b ip).Calls sizes
  | _, _, _ => True

theorem Builder.icmp_reports_iff (b : Icmp.PacketBuilder) (ip : Ipv4.PacketBuilder)
    (payload : Writer) (sizes : Sizes) :
    (Builder.icmp b ip).Reports payload sizes ↔ (Builder.icmp b ip).Heeds payload sizes := by
  constructor
  · intro hreports rest r hrun
    cases r with
    | none => exact fun hcalls => Icmp.PacketBuilder.finish_ne_none (hreports.err rest hrun hcalls)
    | some n =>
        by_cases hsends : b.Sends ip sizes rest
        · obtain ⟨frame, hframe⟩ := Icmp.PacketBuilder.finish_some_iff.mpr ⟨rest, _, hrun, hsends⟩
          obtain ⟨rest', hrun'⟩ := hreports.ok frame hframe
          have heq : Except.ok (rest, some n) = Except.ok (rest', some (sizes.call 1)) :=
            hrun.symm.trans hrun'
          cases heq
          exact .inl rfl
        · exact .inr hsends
  · intro hheeds
    refine ⟨?_, fun rest hrun hcalls => absurd hcalls (hheeds rest none hrun)⟩
    intro frame hframe
    obtain ⟨rest, r, hrun, hsends⟩ := Icmp.PacketBuilder.finish_some_iff.mp ⟨frame, hframe⟩
    have hheeded := hheeds rest r hrun
    cases r with
    | none => exact absurd hsends.calls hheeded
    | some n =>
        obtain rfl : n = sizes.call 1 := hheeded.resolve_right (not_not_intro hsends)
        exact ⟨rest, hrun⟩

/--
**When the failure of a closure is reported.**  The IPv4 and UDP builders do so for every
closure and every size function: a frame is made only if the closure returned the size that
was announced, and if the closure fails, so does the builder.  An ICMP builder, whatever its
type and its IPv4 header, does so exactly if it does not call a closure that fails, and
makes no frame where the closure returns another size than the one announced.
-/
theorem builders_report_iff (b : Builder) (payload : Writer) (sizes : Sizes) :
    b.Reports payload sizes ↔ b.Heeds payload sizes := by
  cases b with
  | ipv4 b => exact iff_of_true (Builder.ipv4_reports b payload sizes) trivial
  | udp b ip => exact iff_of_true (Builder.udp_reports b ip payload sizes) trivial
  | icmp b ip => exact Builder.icmp_reports_iff b ip payload sizes

/-- The closure that does some writes and returns `Err`. -/
def Writer.failing (ws : List (Write UInt8)) : Writer where
  run b := do
    let b ← writeAll b ws
    return (b, none)
  length_eq := by
    intro b b' r h
    obtain ⟨mid, hmid, h⟩ := bind_eq_ok.mp h
    cases h
    exact length_of_writeAll hmid

/-- A closure that writes nothing and fails, and the echo request that is sent anyway. -/
theorem failure_dropped :
    (∃ rest, (Writer.failing []).run (zeros 1458) = .ok (rest, none)) ∧
      ∃ frame, Icmp.PacketBuilder.finish ⟨.echoRequest 1 2⟩ sampleBuilder (Writer.failing []) 32
        = .ok (some frame) :=
  ⟨⟨zeros 1458, rfl⟩, exists_of_succeeds (by decide +kernel)⟩

end Rucoonos
