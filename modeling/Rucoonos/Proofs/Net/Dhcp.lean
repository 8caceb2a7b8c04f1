/-
How a device comes to its address.

The handler runs a DHCP client for each of its cards, so what holds of every device
after any messages is read off the client: the exchange goes from Discover to Requested
to Done, one Request is sent on the way, and the address is the one the first Offer
with the transaction id of the exchange offered.

The address in the Ack is never looked at.  A device that is acknowledged an address
other than the one it asked for has the one it asked for.
-/
import Rucoonos.Proofs.Net.Exchange

namespace Rucoonos.Net

open Slice

/-! ### Whole runs -/

/-- How the state of an exchange may change. -/
inductive Moves : DHCPExchange → DHCPExchange → Prop
  | stay (x : DHCPExchange) : Moves x x
  | request (indicator : Nat) (transactionId : UInt32) (ownIp serverIp : Ip) :
      Moves (.discover indicator transactionId) (.requested indicator transactionId ownIp serverIp)
  | finish (indicator : Nat) (transactionId : UInt32) (ownIp serverIp : Ip) :
      Moves (.requested indicator transactionId ownIp serverIp) .done

/-- What holds of the `i`-th device, given the DHCP messages that reached it. -/
structure DeviceOK (given : List Dhcp.Data) (i : Nat) (indicator : Bool) (d : NetworkDevice) :
    Prop where
  /-- The state taken out by `mem::replace` is always put back. -/
  state : d.metadata.dhcp ≠ .initial
  done_iff_ip : d.metadata.dhcp = .done ↔ d.metadata.ip.isSome = true
  ip_iff_indicator : d.metadata.ip.isSome = true ↔ indicator = true
  /-- Before the first Offer of the exchange the device holds the flag and the transaction
  id it was set up with. -/
  discover : given.find? (Client.isOffer txId) = none ↔ d.metadata.dhcp = .discover i txId
  /-- After it, too, and the address is what that Offer offered. -/
  requested : ∀ indicator transactionId ownIp serverIp,
    d.metadata.dhcp = .requested indicator transactionId ownIp serverIp →
      indicator = i ∧ transactionId = txId ∧
        ∃ offer, given.find? (Client.isOffer txId) = some offer ∧ ownIp = offer.yiaddr
  ip : ∀ ip, d.metadata.ip = some ip →
    ∃ offer, given.find? (Client.isOffer txId) = some offer ∧ ip = offer.yiaddr
  requests : d.packetQueue.countP isDhcpRequest
    = if d.metadata.dhcp = .discover i txId then 0 else 1

/-- What one message may do to it. -/
structure StepOK (cards : List Card) (i : Nat) (m : HandlerMessage) (d d' : NetworkDevice) :
    Prop where
  moves : Moves d.metadata.dhcp d'.metadata.dhcp
  ip : ∀ ip, d.metadata.ip = some ip → d'.metadata.ip = some ip
  unexpected : ∀ data, delivered cards i m = some data →
    expected d.metadata.dhcp data = false → d' = d

theorem Shows.deviceOK {given : List Dhcp.Data} {i : Nat} {indicator : Bool} {d : NetworkDevice}
    (hs : Shows indicator i (Client.after txId given) d) : DeviceOK given i indicator d := by
  have hoffer := Client.offer_after txId given
  generalize Client.after txId given = phase at hs hoffer
  refine ⟨?_, ?_, ?_, ?_, ?_, ?_, ?_⟩
  · rw [hs.dhcp]
    cases phase <;> nofun
  · rw [hs.dhcp, hs.ip]
    cases phase <;> simp [exchange, Client.Phase.ip]
  · rw [hs.ip, hs.indicator]
  · rw [hs.dhcp, ← hoffer]
    cases phase <;> simp [exchange, Client.Phase.offer]
  · intro indicator transactionId ownIp serverIp hdhcp
    rw [hs.dhcp] at hdhcp
    rw [← hoffer]
    cases phase with
    | discover => cases hdhcp
    | requested offer =>
        cases hdhcp
        exact ⟨rfl, rfl, offer, rfl, rfl⟩
    | done offer => cases hdhcp
  · intro ip hip
    rw [hs.ip] at hip
    rw [← hoffer]
    cases phase with
    | discover => cases hip
    | requested offer => cases hip
    | done offer =>
        cases hip
        exact ⟨offer, rfl, rfl⟩
  · rw [hs.requests, hs.dhcp]
    cases phase <;> simp [exchange, Client.Phase.requests]

/-- Where a client goes, its device goes. -/
theorem moves_exchange (i : Nat) (phase : Client.Phase) (given : Option Dhcp.Data) :
    Moves (exchange i phase) (exchange i (Client.nextOf txId phase given)) ∧
      ∀ ip, phase.ip = some ip → (Client.nextOf txId phase given).ip = some ip := by
  cases given with
  | none => exact ⟨.stay _, fun _ hip => hip⟩
  | some data =>
      rcases Client.next_cases txId phase data with hsame | ⟨rfl, -, hnext⟩ | ⟨offer, rfl, -, hnext⟩
      · rw [Client.nextOf, hsame]
        exact ⟨.stay _, fun _ hip => hip⟩
      · rw [Client.nextOf, hnext]
        exact ⟨.request i txId data.yiaddr data.siaddr, fun _ hip => by cases hip⟩
      · rw [Client.nextOf, hnext]
        exact ⟨.finish i txId offer.yiaddr offer.siaddr, fun _ hip => by cases hip⟩

/-- The device in a place stays there. -/
theorem device_step {cards : List Card} {phases : Nat → Client.Phase} {h h' : Handler}
    {m : HandlerMessage} {i : Nat} {d : NetworkDevice} (hr : Represents cards phases h)
    (hstep : step h m = some h') (hd : h.devices[i]? = some d) :
    ∃ d', h'.devices[i]? = some d' ∧
      Shows (h'.indicators i) i (Client.nextOf txId (phases i) (delivered cards i m)) d' := by
  have hr' := represents_step hr hstep
  have hcard : (h'.devices.map NetworkDevice.card)[i]? = some d.card := by
    rw [hr'.cards, ← hr.cards, List.getElem?_map, hd]
    rfl
  rw [List.getElem?_map, Option.map_eq_some_iff] at hcard
  obtain ⟨d', hd', -⟩ := hcard
  exact ⟨d', hd', hr'.shows i d' hd'⟩

/--
**The DHCP exchange over whole runs.**  Set up for any cards and given any messages it
gets through, arbitrary frames and arbitrary actions, the handler keeps every one of
its devices in a state of the exchange that goes with its address, its flag, its
Requests and the Offer that was taken; and whatever message comes next moves the device
forward or leaves its state, never changes an address, and changes nothing if it is a
DHCP packet the device does not wait for.
-/
theorem dhcp_exchange_runs (cards : List Card) (retQueues : Nat → RetQueue) (h₀ h : Handler)
    (ms : List HandlerMessage)
    (hsetup : Handler.setup (cards.map Card.device) retQueues = .ok h₀)
    (hrun : Lts.run step h₀ ms = some h) (i : Nat) (d : NetworkDevice)
    (hd : h.devices[i]? = some d) :
    DeviceOK (ms.filterMap (delivered cards i)) i (h.indicators i) d ∧
      ∀ m h', step h m = some h' → ∃ d', h'.devices[i]? = some d' ∧ StepOK cards i m d d' := by
  have hr := represents_run hsetup hrun
  have hs := hr.shows i d hd
  refine ⟨hs.deviceOK, ?_⟩
  intro m h' hstep
  obtain ⟨d', hd', hs'⟩ := device_step hr hstep hd
  obtain ⟨hmoves, hip⟩ := moves_exchange i (phaseAfter cards ms i) (delivered cards i m)
  refine ⟨d', hd', ⟨?_, ?_, ?_⟩⟩
  · rw [hs.dhcp, hs'.dhcp]
    exact hmoves
  · rw [hs.ip, hs'.ip]
    exact hip
  · intro data hdelivered hexp
    rw [unexpected_unchanged hr.cards (handle_of_step hstep) hd hdelivered hexp, hd] at hd'
    exact (Option.some.inj hd').symm

/-- A broadcast from a server at 10.0.2.2 to the client with this hardware address. -/
def serverFrame (op : UInt8) (client : Mac) (yiaddr : Ip) : Bytes :=
  [broadcastMac.toList, [0x52, 0x55, 0x0a, 0x00, 0x02, 0x02], [0x08, 0x00],
    [0x45, 0], BigEndian.u16ToBe 272, zeros 4, [64, 17], zeros 2, [10, 0, 2, 2],
    [255, 255, 255, 255],
    BigEndian.u16ToBe 67, BigEndian.u16ToBe 68, BigEndian.u16ToBe 252, zeros 2,
    [2, 1, 6, 0], BigEndian.u32ToBe txId, zeros 8, yiaddr.toList, [10, 0, 2, 2], zeros 4,
    client.toList, zeros 10, zeros 192, BigEndian.u32ToBe 0x63825363, [53, 1, op, 255]].flatten

def offerFrame : Mac → Ip → Bytes := serverFrame 2

def ackFrame : Mac → Ip → Bytes := serverFrame 5

/-- A frame that the card with this id has received. -/
def received (id : Nat) (frame : Bytes) : HandlerMessage := .packet ⟨id, .new frame⟩

def macA : Mac := #v[0x52, 0x54, 0, 0, 0, 1]

/-- The address the server offers. -/
def ipA : Ip := #v[10, 0, 2, 15]

def oneCard : List Card := [⟨0, macA⟩]

def noQueues : Nat → RetQueue := fun _ => ⟨0, [], false, false⟩

/-- What a run from the set-up of some cards leads to. -/
def runFrom (cards : List Card) (ms : List HandlerMessage) : Option Handler :=
  (Handler.setup (cards.map Card.device) noQueues).toOption.bind fun h₀ => Lts.run step h₀ ms

theorem exists_of_runFrom {cards : List Card} {ms : List HandlerMessage} {h : Handler}
    (hrun : runFrom cards ms = some h) :
    ∃ h₀, Handler.setup (cards.map Card.device) noQueues = .ok h₀ ∧ Lts.run step h₀ ms = some h := by
  rw [runFrom, Option.bind_eq_some_iff] at hrun
  obtain ⟨h₀, hsetup, hrun⟩ := hrun
  exact ⟨h₀, eq_ok_of_toOption hsetup, hrun⟩

/-- The ordinary exchange. -/
def offerThenAck : List HandlerMessage :=
  [received 0 (offerFrame macA ipA),
    received 0 (ackFrame macA ipA)]

theorem dhcp_exchange_runs_offerThenAck :
    ∃ h₀ h d, Handler.setup (oneCard.map Card.device) noQueues = .ok h₀ ∧
      Lts.run step h₀ offerThenAck = some h ∧ h.devices[0]? = some d ∧
      d.metadata.ip = some #v[10, 0, 2, 15] ∧
      DeviceOK (offerThenAck.filterMap (delivered oneCard 0)) 0 (h.indicators 0) d := by
  have heval : ((runFrom oneCard offerThenAck).bind fun h => h.devices[0]?).map (·.metadata.ip)
      = some (some #v[10, 0, 2, 15]) := by decide +kernel
  rw [Option.map_eq_some_iff] at heval
  obtain ⟨d, hd, hip⟩ := heval
  rw [Option.bind_eq_some_iff] at hd
  obtain ⟨h, hrun, hd⟩ := hd
  obtain ⟨h₀, hsetup, hrun⟩ := exists_of_runFrom hrun
  exact ⟨h₀, h, d, hsetup, hrun, hd, hip,
    (dhcp_exchange_runs oneCard noQueues h₀ h offerThenAck hsetup hrun 0 d hd).1⟩

/-! ### Which address -/

/--
**A device gets the address it asked for.**  Whenever a message moves a device to Done,
the message is an Ack of its exchange, the device had asked for what the first Offer of
the exchange offered, and that is its address now.  It is the address in the Ack if and
only if the server acknowledged what it had offered.
-/
theorem done_with_offered_ip (cards : List Card) (retQueues : Nat → RetQueue) (h₀ h h' : Handler)
    (ms : List HandlerMessage) (m : HandlerMessage)
    (hsetup : Handler.setup (cards.map Card.device) retQueues = .ok h₀)
    (hrun : Lts.run step h₀ ms = some h) (hstep : step h m = some h') (i : Nat)
    (d d' : NetworkDevice) (hd : h.devices[i]? = some d) (hd' : h'.devices[i]? = some d')
    (hbefore : d.metadata.dhcp ≠ .done) (hdone : d'.metadata.dhcp = .done) :
    ∃ offer ack, (ms.filterMap (delivered cards i)).find? (Client.isOffer txId) = some offer ∧
      d.metadata.dhcp = .requested i txId offer.yiaddr offer.siaddr ∧
      delivered cards i m = some ack ∧ ack.operation = .ack ∧ ack.xid = txId ∧
      d'.metadata.ip = some offer.yiaddr ∧
      (d'.metadata.ip = some ack.yiaddr ↔ ack.yiaddr = offer.yiaddr) := by
  have hr := represents_run hsetup hrun
  have hs := hr.shows i d hd
  have hs' := (represents_step hr hstep).shows i d' hd'
  have hoffer := Client.offer_after txId (ms.filterMap (delivered cards i))
  rw [hs.dhcp] at hbefore
  rw [hs'.dhcp] at hdone
  cases hack : delivered cards i m with
  | none =>
      rw [hack] at hdone
      exact absurd hdone hbefore
  | some ack =>
      rw [hack] at hdone hs'
      rcases Client.next_cases txId (phaseAfter cards ms i) ack with hsame | ⟨-, -, hnext⟩ |
        ⟨offer, hphase, hisAck, hnext⟩
      · rw [Client.nextOf, hsame] at hdone
        exact absurd hdone hbefore
      · rw [Client.nextOf, hnext] at hdone
        cases hdone
      · have hmatch := of_decide_eq_true hisAck
        have hip : d'.metadata.ip = some offer.yiaddr := by
          rw [hs'.ip, Client.nextOf, hnext]
          rfl
        refine ⟨offer, ack, ?_, ?_, rfl, hmatch.1, hmatch.2, hip, ?_⟩
        · rw [← hoffer]
          show (phaseAfter cards ms i).offer = some offer
          rw [hphase]
          rfl
        · rw [hs.dhcp, hphase]
          rfl
        · rw [hip, Option.some.injEq]
          exact eq_comm

/-- What the last message of a run does to the first device. -/
def lastStep (cards : List Card) (ms : List HandlerMessage) (m : HandlerMessage) :
    Option (NetworkingMetadata × NetworkingMetadata) := do
  let h ← runFrom cards ms
  let h' ← step h m
  let d ← h.devices[0]?
  let d' ← h'.devices[0]?
  return (d.metadata, d'.metadata)

theorem exists_of_lastStep {cards : List Card} {ms : List HandlerMessage} {m : HandlerMessage}
    {before after : NetworkingMetadata} (hlast : lastStep cards ms m = some (before, after)) :
    ∃ h₀ h h' d d', Handler.setup (cards.map Card.device) noQueues = .ok h₀ ∧
      Lts.run step h₀ ms = some h ∧ step h m = some h' ∧ h.devices[0]? = some d ∧
      h'.devices[0]? = some d' ∧ d.metadata = before ∧ d'.metadata = after := by
  obtain ⟨h, hrun, hlast⟩ := Option.bind_eq_some_iff.mp hlast
  obtain ⟨h', hstep, hlast⟩ := Option.bind_eq_some_iff.mp hlast
  obtain ⟨d, hd, hlast⟩ := Option.bind_eq_some_iff.mp hlast
  obtain ⟨d', hd', hlast⟩ := Option.bind_eq_some_iff.mp hlast
  obtain ⟨h₀, hsetup, hrun⟩ := exists_of_runFrom hrun
  cases hlast
  exact ⟨h₀, h, h', d, d', hsetup, hrun, hstep, hd, hd', rfl, rfl⟩

/-- 10.0.2.15 is offered to the card. -/
def offered : List HandlerMessage :=
  [received 0 (offerFrame macA ipA)]

/-- An Ack to the card, of some address. -/
def acknowledged (ip : Ip) : HandlerMessage :=
  received 0 (ackFrame macA ip)

/-- The device after the Offer and after the Ack. -/
def afterOffer : NetworkingMetadata :=
  ⟨macA, none, .requested 0 txId ipA hostIp⟩

def afterAck : NetworkingMetadata := ⟨macA, some ipA, .done⟩

theorem done_with_offered_ip_acknowledged :
    ∃ h₀ h h' d d', Handler.setup (oneCard.map Card.device) noQueues = .ok h₀ ∧
      Lts.run step h₀ offered = some h ∧ step h (acknowledged #v[10, 0, 2, 15]) = some h' ∧
      h.devices[0]? = some d ∧ h'.devices[0]? = some d' ∧ d.metadata.dhcp ≠ .done ∧
      d'.metadata.dhcp = .done ∧
      ∃ offer : Dhcp.Data, d.metadata.dhcp = .requested 0 txId offer.yiaddr offer.siaddr ∧
        d'.metadata.ip = some offer.yiaddr := by
  obtain ⟨h₀, h, h', d, d', hsetup, hrun, hstep, hd, hd', hbefore, hafter⟩ :=
    exists_of_lastStep (by decide +kernel :
      lastStep oneCard offered (acknowledged #v[10, 0, 2, 15]) = some (afterOffer, afterAck))
  have hrequested : d.metadata.dhcp ≠ .done := by rw [hbefore]; decide
  have hdone : d'.metadata.dhcp = .done := by rw [hafter]; rfl
  obtain ⟨offer, ack, -, hoffer, -, -, -, hip, -⟩ := done_with_offered_ip oneCard noQueues h₀ h h'
    offered (acknowledged #v[10, 0, 2, 15]) hsetup hrun hstep 0 d d' hd hd' hrequested hdone
  exact ⟨h₀, h, h', d, d', hsetup, hrun, hstep, hd, hd', hrequested, hdone, offer, hoffer, hip⟩

/-- Acknowledged 10.0.2.16, the device is done and has 10.0.2.15. -/
theorem acknowledged_another :
    ∃ h₀ h h' d d' ack, Handler.setup (oneCard.map Card.device) noQueues = .ok h₀ ∧
      Lts.run step h₀ offered = some h ∧ step h (acknowledged #v[10, 0, 2, 16]) = some h' ∧
      h.devices[0]? = some d ∧ h'.devices[0]? = some d' ∧ d.metadata.dhcp ≠ .done ∧
      d'.metadata.dhcp = .done ∧
      delivered oneCard 0 (acknowledged #v[10, 0, 2, 16]) = some ack ∧
      ack.yiaddr = #v[10, 0, 2, 16] ∧ d'.metadata.ip = some #v[10, 0, 2, 15] := by
  obtain ⟨h₀, h, h', d, d', hsetup, hrun, hstep, hd, hd', hbefore, hafter⟩ :=
    exists_of_lastStep (by decide +kernel :
      lastStep oneCard offered (acknowledged #v[10, 0, 2, 16]) = some (afterOffer, afterAck))
  have hack : (delivered oneCard 0 (acknowledged #v[10, 0, 2, 16])).map (·.yiaddr)
      = some #v[10, 0, 2, 16] := by decide +kernel
  obtain ⟨ack, hdelivered, hyiaddr⟩ := Option.map_eq_some_iff.mp hack
  refine ⟨h₀, h, h', d, d', ack, hsetup, hrun, hstep, hd, hd', ?_, ?_, hdelivered, hyiaddr, ?_⟩
  · rw [hbefore]
    decide
  · rw [hafter]
    rfl
  · rw [hafter]
    rfl

end Rucoonos.Net
