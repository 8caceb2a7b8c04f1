/-
What `dhcp::Data::try_from` makes of a payload.

The options of a DHCP message are a sequence of tagged values.  The loop in `try_from`
walks it until it meets the message type, option 53, and takes the byte behind that
option's length.  It knows neither the padding nor the end of the options: both are
options of one byte, and it reads the byte behind them as a length.

`Typed` says where the loop gets through: whole options of other codes, none of them
empty, and then the message type.  `rawOp_eq_ok_iff` says that it gets through nowhere
else.
-/
import Rucoonos.Lib.Tlv
import Rucoonos.Net.Dhcp

namespace Rucoonos.Dhcp

open Slice BigEndian

/-! ### The loop over the options -/

/-- Behind whole options of other codes, none of them empty, stands a message type. -/
def Typed (options : Bytes) (value : UInt8) : Prop :=
  ∃ (before : List Tlv.Entry) (len : UInt8) (tail : Bytes),
    (∀ e ∈ before, e.code ≠ 53 ∧ e.data ≠ []) ∧
      options = before.flatMap Tlv.Entry.encode ++ 53 :: len :: value :: tail

theorem rawOp_entry {e : Tlv.Entry} (hcode : e.code ≠ 53) (hdata : e.data ≠ []) (fuel : Nat)
    (rest : Bytes) : rawOp (fuel + 1) (e.encode ++ rest) = rawOp fuel rest := by
  have hlen := e.toNat_length
  have hzero : ¬ UInt8.ofNat e.data.length = 0 := by
    intro hc
    rw [hc] at hlen
    exact hdata (List.eq_nil_of_length_eq_zero hlen.symm)
  show (if e.code = 53 then _ else if UInt8.ofNat e.data.length = 0 then _
    else rawOp fuel ((e.data ++ rest).drop (UInt8.ofNat e.data.length).toNat)) = _
  rw [if_neg hcode, if_neg hzero, hlen, List.drop_left]

theorem rawOp_nil (fuel : Nat) : rawOp fuel [] = .error .unwrap := by
  cases fuel with
  | zero => rfl
  | succ fuel => rfl

/-- One pass of the loop, if the loop gets through. -/
theorem rawOp_succ {fuel : Nat} {options : Bytes} {value : UInt8}
    (h : rawOp (fuel + 1) options = .ok value) :
    (∃ len tail, options = 53 :: len :: value :: tail) ∨
    ∃ (e : Tlv.Entry) (rest : Bytes), e.code ≠ 53 ∧ e.data ≠ [] ∧ options = e.encode ++ rest ∧
      rawOp fuel rest = .ok value := by
  rw [rawOp.eq_def] at h
  dsimp only at h
  cases options with
  | nil => cases h
  | cons code options =>
      dsimp only at h
      by_cases hcode : code = 53
      · rw [if_pos hcode] at h
        left
        match options, h with
        | len :: _ :: tail, rfl => exact ⟨len, tail, by rw [hcode]⟩
      · rw [if_neg hcode] at h
        right
        cases options with
        | nil => cases h
        | cons len rest =>
            dsimp only at h
            by_cases hzero : len = 0
            · rw [if_pos hzero] at h
              cases h
            · rw [if_neg hzero] at h
              -- An option that runs past the end leaves nothing, and the loop fails there.
              have hrest : rest.drop len.toNat ≠ [] := by
                intro hc
                rw [hc, rawOp_nil] at h
                cases h
              have hfits : len.toNat < rest.length := by
                rw [Ne, List.drop_eq_nil_iff] at hrest
                omega
              obtain ⟨e, rfl, hlen, hsplit⟩ := Tlv.exists_entry code hfits.le
              refine ⟨e, rest.drop len.toNat, hcode, ?_, hsplit, h⟩
              intro hc
              rw [hc, List.length_nil] at hlen
              exact hzero (UInt8.toNat_inj.mp hlen.symm)

theorem typed_of_rawOp {value : UInt8} : ∀ {fuel : Nat} {options : Bytes},
    rawOp fuel options = .ok value → Typed options value := by
  intro fuel
  induction fuel with
  | zero =>
      intro options h
      cases h
  | succ fuel ih =>
      intro options h
      rcases rawOp_succ h with ⟨len, tail, rfl⟩ | ⟨e, rest, hcode, hdata, rfl, hrest⟩
      · exact ⟨[], len, tail, List.forall_mem_nil _, rfl⟩
      · obtain ⟨before, len, tail, hbefore, rfl⟩ := ih hrest
        refine ⟨e :: before, len, tail, List.forall_mem_cons.mpr ⟨⟨hcode, hdata⟩, hbefore⟩, ?_⟩
        rw [List.flatMap_cons, List.append_assoc]

theorem rawOp_of_typed {value len : UInt8} {tail : Bytes} {before : List Tlv.Entry} :
    ∀ {fuel : Nat}, (∀ e ∈ before, e.code ≠ 53 ∧ e.data ≠ []) → before.length < fuel →
      rawOp fuel (before.flatMap Tlv.Entry.encode ++ 53 :: len :: value :: tail) = .ok value := by
  induction before with
  | nil =>
      intro fuel _ hfuel
      obtain ⟨fuel, rfl⟩ : ∃ k, fuel = k + 1 := ⟨fuel - 1, by omega⟩
      rfl
  | cons e before ih =>
      intro fuel hbefore hfuel
      obtain ⟨fuel, rfl⟩ : ∃ k, fuel = k + 1 := ⟨fuel - 1, by omega⟩
      obtain ⟨⟨hcode, hdata⟩, hbefore⟩ := List.forall_mem_cons.mp hbefore
      rw [List.flatMap_cons, List.append_assoc, rawOp_entry hcode hdata]
      exact ih hbefore (Nat.lt_of_succ_lt_succ hfuel)

/-- With a pass for every byte the loop gets through exactly where a message type stands. -/
theorem rawOp_eq_ok_iff {fuel : Nat} {options : Bytes} {value : UInt8}
    (hfuel : options.length ≤ fuel) : rawOp fuel options = .ok value ↔ Typed options value := by
  constructor
  · exact typed_of_rawOp
  · rintro ⟨before, len, tail, hbefore, rfl⟩
    refine rawOp_of_typed hbefore ?_
    have hentries : before.length ≤ (before.flatMap Tlv.Entry.encode).length :=
      Tlv.length_le_flatMap_encode before
    rw [List.length_append, List.length_cons] at hfuel
    omega

/-! ### The fixed fields -/

/-- The fixed fields are what stands at their offsets. -/
structure Data.At (data : Data) (value : Bytes) : Prop where
  op : value[0]? = some data.op
  htype : value[1]? = some data.htype
  hlen : value[2]? = some data.hlen
  hops : value[3]? = some data.hops
  xid : decode (sub value 4 8) = data.xid.toNat
  secs : decode (sub value 8 10) = data.secs.toNat
  flags : decode (sub value 10 12) = data.flags.toNat
  ciaddr : sub value 12 16 = data.ciaddr.toList
  yiaddr : sub value 16 20 = data.yiaddr.toList
  siaddr : sub value 20 24 = data.siaddr.toList
  giaddr : sub value 24 28 = data.giaddr.toList
  chaddr : sub value 28 44 = data.chaddr.toList

/-- Behind the loop nothing can fail. -/
theorem Data.tryFrom_ok {value : Bytes} {type : UInt8} (hlen : 244 ≤ value.length)
    (htype : Typed (value.drop 240) type) :
    ∃ data, Data.tryFrom value = .ok (some data) ∧ data.operation = .ofU8 type ∧ data.At value := by
  have hloop : rawOp value.length (value.drop (44 + 192 + 4)) = .ok type :=
    (rawOp_eq_ok_iff (by rw [List.length_drop]; omega)).mpr htype
  obtain ⟨op, hop, hop'⟩ := index_ok (by omega : 0 < value.length)
  obtain ⟨hty, hhty, hhty'⟩ := index_ok (by omega : 1 < value.length)
  obtain ⟨hln, hhln, hhln'⟩ := index_ok (by omega : 2 < value.length)
  obtain ⟨hops, hhops, hhops'⟩ := index_ok (by omega : 3 < value.length)
  obtain ⟨xid, hxid, hxid'⟩ := u32At_ok rfl (by omega : 8 ≤ value.length)
  obtain ⟨secs, hsecs, hsecs'⟩ := u16At_ok rfl (by omega : 10 ≤ value.length)
  obtain ⟨flags, hflags, hflags'⟩ := u16At_ok rfl (by omega : 12 ≤ value.length)
  obtain ⟨ci, hci, hci'⟩ := arrayAt_ok (show 16 = 12 + 4 from rfl) (by omega : 16 ≤ value.length)
  obtain ⟨yi, hyi, hyi'⟩ := arrayAt_ok (show 20 = 16 + 4 from rfl) (by omega : 20 ≤ value.length)
  obtain ⟨si, hsi, hsi'⟩ := arrayAt_ok (show 24 = 20 + 4 from rfl) (by omega : 24 ≤ value.length)
  obtain ⟨gi, hgi, hgi'⟩ := arrayAt_ok (show 28 = 24 + 4 from rfl) (by omega : 28 ≤ value.length)
  obtain ⟨ch, hch, hch'⟩ := arrayAt_ok (show 44 = 28 + 16 from rfl) (by omega : 44 ≤ value.length)
  refine ⟨⟨op, hty, hln, hops, xid, secs, flags, ci, yi, si, gi, ch, .ofU8 type⟩, ?_, rfl,
    ⟨hop', hhty', hhln', hhops', hxid'.symm, hsecs'.symm, hflags'.symm, hci'.symm, hyi'.symm,
      hsi'.symm, hgi'.symm, hch'.symm⟩⟩
  rw [Data.tryFrom, if_neg (by omega), hloop, ok_bind, hop, ok_bind, hhty, ok_bind, hhln, ok_bind,
    hhops, ok_bind, hxid, ok_bind, hsecs, ok_bind, hflags, ok_bind, hci, ok_bind, hyi, ok_bind,
    hsi, ok_bind, hgi, ok_bind, hch, ok_bind]
  rfl

/-- What was read of a message, and from where. -/
theorem Data.tryFrom_some {value : Bytes} {data : Data} (h : Data.tryFrom value = .ok (some data)) :
    244 ≤ value.length ∧ (∃ type, Typed (value.drop 240) type ∧ data.operation = .ofU8 type) ∧
      data.At value := by
  by_cases hlen : value.length < 244
  · rw [Data.tryFrom, if_pos hlen] at h
    cases h
  · have hloop := h
    rw [Data.tryFrom, if_neg hlen] at hloop
    obtain ⟨type, hloop, -⟩ := bind_eq_ok.mp hloop
    have htype := typed_of_rawOp hloop
    obtain ⟨data', hdata', hop, hat⟩ := Data.tryFrom_ok (Nat.not_lt.mp hlen) htype
    rw [h] at hdata'
    cases hdata'
    exact ⟨Nat.not_lt.mp hlen, ⟨type, htype, hop⟩, hat⟩

/-- `try_from` fails on what is too short, and panics where the loop does. -/
theorem Data.ends_tryFrom {value : Bytes} :
    Ends (Data.tryFrom value) ↔ value.length < 244 ∨ ∃ type, Typed (value.drop 240) type := by
  by_cases hlen : value.length < 244
  · rw [Data.tryFrom, if_pos hlen]
    exact iff_of_true (ends_ok none) (.inl hlen)
  · constructor
    · rintro ⟨read, hread⟩
      rw [Data.tryFrom, if_neg hlen] at hread
      obtain ⟨type, hloop, -⟩ := bind_eq_ok.mp hread
      exact .inr ⟨type, typed_of_rawOp hloop⟩
    · rintro (hlt | ⟨type, htype⟩)
      · exact absurd hlt hlen
      · obtain ⟨data, hdata, -⟩ := Data.tryFrom_ok (Nat.not_lt.mp hlen) htype
        exact ⟨some data, hdata⟩

/-- `get` unwraps the failure as well. -/
theorem Packet.ends_get {p : Udp.Packet} {value : Bytes} (hpayload : p.payload = .ok value) :
    Ends (Packet.get ⟨p⟩) ↔ 244 ≤ value.length ∧ ∃ type, Typed (value.drop 240) type := by
  rw [Packet.get, hpayload, ok_bind]
  constructor
  · rintro ⟨data, hdata⟩
    obtain ⟨read, hread, hdata⟩ := bind_eq_ok.mp hdata
    rw [eq_of_unwrap hdata] at hread
    obtain ⟨hlen, ⟨type, htype, -⟩, -⟩ := Data.tryFrom_some hread
    exact ⟨hlen, type, htype⟩
  · rintro ⟨hlen, type, htype⟩
    obtain ⟨data, hdata, -⟩ := Data.tryFrom_ok hlen htype
    exact ⟨data, by rw [hdata]; rfl⟩

/--
**The message type is found.**  Any 240 bytes, any number of options other than padding,
end and message type, in any order and with any data in them, then the message type with
any value and anything behind it: `try_from` returns a message with this type, and with
its fixed fields read from their offsets.
-/
theorem option_walk_finds_type (front : Bytes) (hfront : front.length = 240)
    (options : List Tlv.Entry)
    (hoptions : ∀ e ∈ options, e.code ≠ 0 ∧ e.code ≠ 53 ∧ e.code ≠ 255 ∧ 1 ≤ e.data.length)
    (v : UInt8) (tail value : Bytes)
    (hvalue : value = front ++ options.flatMap Tlv.Entry.encode ++ [53, 1, v] ++ tail)
    (hlen : 244 ≤ value.length) :
    ∃ data, Data.tryFrom value = .ok (some data) ∧ data.operation = .ofU8 v ∧ data.At value := by
  have hdrop : value.drop 240 = options.flatMap Tlv.Entry.encode ++ 53 :: 1 :: v :: tail := by
    rw [hvalue, List.append_assoc, List.append_assoc, List.drop_left' hfront]
    rfl
  refine Data.tryFrom_ok hlen ⟨options, 1, tail, ?_, hdrop⟩
  intro e he
  obtain ⟨-, hcode, -, hdata⟩ := hoptions e he
  exact ⟨hcode, List.length_pos_iff.mp hdata⟩

/-- A server identifier of four bytes 53, and an Offer behind it. -/
def decoy : Tlv.Entry := ⟨54, [53, 53, 53, 53], by decide⟩

theorem option_walk_skips_decoy :
    ∃ data, Data.tryFrom (zeros 240 ++ decoy.encode ++ [53, 1, 2] ++ [255]) = .ok (some data) ∧
      data.operation = .offer := by
  obtain ⟨data, hdata, hop, -⟩ := option_walk_finds_type (zeros 240) (length_zeros 240) [decoy]
    (by simp [decoy]) 2 [255] _ (by rw [List.flatMap_singleton]) (by decide +kernel)
  exact ⟨data, hdata, hop⟩

end Rucoonos.Dhcp
