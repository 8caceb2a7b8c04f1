/-
Several cards on one segment with a DHCP server.

The server answers what the cards send: a Discover with an Offer, a Request with an Ack,
with the transaction id and the hardware address of the question and the address it
keeps for that hardware address.  Its answers are broadcast, and every frame may reach
every card, in any order, late and more than once.

All exchanges have one transaction id and the handler does not look at `chaddr`, so a
card takes whatever Offer comes first.  The addresses stay apart as long as the first
Offer each card gets is its own.
-/
import Rucoonos.Proofs.Net.Dhcp

namespace Rucoonos.Net

open Slice

/-! ### The segment -/

/-- The operation that answers another. -/
def answerTo : Dhcp.Operation → Option Dhcp.Operation
  | .discover => some .offer
  | .request => some .ack
  | _ => none

/-- A broadcast frame with the server's answer to a message. -/
def isAnswer (assigned : Mac → Ip) (question : Dhcp.Data) (frame : Bytes) : Bool :=
  Ethernet.Packet.destinationMac ⟨.new frame⟩ = .ok broadcastMac ∧
    (dhcpFrame broadcastMac ⟨.new frame⟩).any fun data =>
      some data.operation = answerTo question.operation ∧ data.xid = question.xid ∧
        data.chaddr = question.chaddr ∧ data.yiaddr = assigned (clientMac question)

/-- The handler with its cards, and the answers the server has sent. -/
structure Segment where
  handler : Handler
  wire : List Bytes

inductive SegmentEvent
  /-- The server answers the `k`-th packet of the `i`-th device. -/
  | answer (i k : Nat) (frame : Bytes)
  /-- The `k`-th answer reaches the card with this id. -/
  | deliver (k id : Nat)
  /-- The `k`-th packet of the `i`-th device, a DHCP message, reaches a card. -/
  | overhear (i k id : Nat)
  /-- Anything else that brings no answer of a DHCP server to a card. -/
  | other (m : HandlerMessage)
  deriving DecidableEq, Repr

/-- The `k`-th packet of the `i`-th device, and the DHCP message in it. -/
def sent (h : Handler) (i k : Nat) : Option (Ethernet.Packet × Dhcp.Data) := do
  let d ← h.devices[i]?
  let packet ← d.packetQueue[k]?
  let data ← (clientMessage packet).toOption.join
  return (packet, data)

/-- No card finds a DHCP message in it. -/
def bringsNone (cards : List Card) (m : HandlerMessage) : Bool :=
  (List.range cards.length).all fun i => (delivered cards i m).isNone

def Segment.step (assigned : Mac → Ip) (s : Segment) : SegmentEvent → Option Segment
  | .answer i k frame => do
      let (_, question) ← sent s.handler i k
      if isAnswer assigned question frame then some { s with wire := s.wire ++ [frame] } else none
  | .deliver k id => do
      let frame ← s.wire[k]?
      let handler ← Net.step s.handler (received id frame)
      return { s with handler }
  | .overhear i k id => do
      let (packet, _) ← sent s.handler i k
      let handler ← Net.step s.handler (.packet ⟨id, packet.buffer⟩)
      return { s with handler }
  | .other m =>
      if bringsNone (s.handler.devices.map NetworkDevice.card) m then do
        let handler ← Net.step s.handler m
        return { s with handler }
      else none

/-- An Offer that reaches a device in Discover is for that device. -/
def ownOffer (s : Segment) : SegmentEvent → Bool
  | .deliver k id =>
      match s.wire[k]?, s.handler.devices.find? (fun d => d.id == id) with
      | some frame, some d =>
          match d.metadata.dhcp, dhcpFrame d.metadata.mac ⟨.new frame⟩ with
          | .discover _ _, some data => data.operation = .offer → clientMac data = d.metadata.mac
          | _, _ => true
      | _, _ => true
  | _ => true

/-- Every device that has an address has the one that is kept for it, and no two have
the same. -/
def OwnAddresses (assigned : Mac → Ip) (s : Segment) : Prop :=
  (∀ (i : Nat) d ip, s.handler.devices[i]? = some d → d.metadata.ip = some ip →
    ip = assigned d.metadata.mac) ∧
  ∀ (i j : Nat) d d' ip, s.handler.devices[i]? = some d → s.handler.devices[j]? = some d' →
    d.metadata.ip = some ip → d'.metadata.ip = some ip → i = j

/-! ### What a frame brings -/

/-- A broadcast is the same to every card. -/
theorem dhcpFrame_broadcast {frame : Ethernet.Packet}
    (h : frame.destinationMac = .ok broadcastMac) (mac : Mac) :
    dhcpFrame mac frame = dhcpFrame broadcastMac frame := by
  have hall : ∀ mac, inspect mac frame = inspect broadcastMac frame := by
    intro mac
    rw [inspect, inspect, h, ok_bind, ok_bind, if_neg (fun hc => hc.1 rfl),
      if_neg (fun hc => hc.1 rfl)]
  rw [dhcpFrame, hall, dhcpFrame]

/-- Answers come from the server's port. -/
theorem header_of_dhcpFrame {mac : Mac} {frame : Ethernet.Packet} {data : Dhcp.Data}
    (h : dhcpFrame mac frame = some data) :
    ∃ header, Udp.Packet.header ⟨⟨frame⟩⟩ = .ok header ∧ header.sourcePort = 67 := by
  obtain ⟨seen, hseen, hdhcp⟩ := Option.bind_eq_some_iff.mp h
  have hinspect := eq_ok_of_toOption hseen
  cases seen with
  | udp packet header payload =>
      obtain ⟨rfl, hheader⟩ := inspect_reads hinspect
      rw [dhcpOf] at hdhcp
      split at hdhcp
      · rename_i hports
        exact ⟨header, hheader, hports.1⟩
      · cases hdhcp
  | notForUs => cases hdhcp
  | arp packet => cases hdhcp
  | wakeOnLan content => cases hdhcp
  | icmp packet kind => cases hdhcp
  | dropped => cases hdhcp

/-- Messages of a client do not. -/
theorem header_of_client {frame : Ethernet.Packet} {data : Dhcp.Data}
    (h : clientMessage frame = .ok (some data)) :
    ∃ header, Udp.Packet.header ⟨⟨frame⟩⟩ = .ok header ∧ header.sourcePort = 68 := by
  obtain ⟨ty, -, h⟩ := bind_eq_ok.mp h
  split at h
  · cases h
  · obtain ⟨ipHeader, -, h⟩ := bind_eq_ok.mp h
    split at h
    · cases h
    · obtain ⟨header, hheader, h⟩ := bind_eq_ok.mp h
      split at h
      · cases h
      · rename_i hports
        exact ⟨header, hheader, not_not.mp fun hc => hports (.inl hc)⟩

theorem dhcpFrame_of_client {frame : Ethernet.Packet} {data : Dhcp.Data}
    (h : clientMessage frame = .ok (some data)) (mac : Mac) : dhcpFrame mac frame = none := by
  rw [Option.eq_none_iff_forall_ne_some]
  intro answer hanswer
  obtain ⟨header, hheader, h67⟩ := header_of_dhcpFrame hanswer
  obtain ⟨header', hheader', h68⟩ := header_of_client h
  rw [hheader] at hheader'
  cases hheader'
  rw [h67] at h68
  cases h68

/-- A message that is delivered was found in the frame by the card. -/
theorem frame_of_delivered {cards : List Card} {i : Nat} {raw : RawPacket} {data : Dhcp.Data}
    (h : delivered cards i (.packet raw) = some data) :
    cards.findIdx? (fun c => c.id == raw.id) = some i ∧
      ∃ card, cards[i]? = some card ∧ dhcpFrame card.mac ⟨raw.buffer⟩ = some data := by
  rw [delivered] at h
  split at h
  · rename_i hfirst
    exact ⟨hfirst, Option.bind_eq_some_iff.mp h⟩
  · cases h

/-! ### The invariant -/

section Invariant

variable {cards : List Card} {assigned : Mac → Ip}

/-- The addresses on the wire are those of the clients they are for. -/
def WireOK (assigned : Mac → Ip) (wire : List Bytes) : Prop :=
  ∀ frame ∈ wire, ∀ mac data, dhcpFrame mac ⟨.new frame⟩ = some data →
    data.yiaddr = assigned (clientMac data)

/-- Every client that has taken an Offer has taken its own. -/
def OffersOK (cards : List Card) (assigned : Mac → Ip) (phases : Nat → Client.Phase) : Prop :=
  ∀ (i : Nat) card offer, cards[i]? = some card → (phases i).offer = some offer →
    offer.yiaddr = assigned card.mac

def SegmentOK (cards : List Card) (assigned : Mac → Ip) (s : Segment) : Prop :=
  WireOK assigned s.wire ∧
    ∃ phases, Represents cards phases s.handler ∧ OffersOK cards assigned phases

theorem wireOK_answer {wire : List Bytes} {question : Dhcp.Data} {frame : Bytes}
    (hw : WireOK assigned wire) (hanswer : isAnswer assigned question frame = true) :
    WireOK assigned (wire ++ [frame]) := by
  intro frame' hframe mac data hdata
  rcases List.mem_append.mp hframe with hold | hnew
  · exact hw frame' hold mac data hdata
  · rw [List.mem_singleton] at hnew
    subst hnew
    obtain ⟨hdest, hany⟩ := of_decide_eq_true hanswer
    rw [dhcpFrame_broadcast hdest] at hdata
    rw [hdata, Option.any_some, decide_eq_true_iff] at hany
    obtain ⟨-, -, hchaddr, hyiaddr⟩ := hany
    rw [hyiaddr, clientMac, clientMac, hchaddr]

/-- A message keeps the Offers right if the Offers it brings are. -/
theorem offersOK_step {h h' : Handler} {m : HandlerMessage} {phases : Nat → Client.Phase}
    (hr : Represents cards phases h) (ho : OffersOK cards assigned phases)
    (hstep : step h m = some h')
    (hown : ∀ (i : Nat) card data, cards[i]? = some card → delivered cards i m = some data →
      phases i = .discover → data.operation = .offer → data.yiaddr = assigned card.mac) :
    ∃ phases', Represents cards phases' h' ∧ OffersOK cards assigned phases' := by
  refine ⟨_, represents_step hr hstep, ?_⟩
  intro i card offer hcard
    (hoffer : (Client.nextOf txId (phases i) (delivered cards i m)).offer = some offer)
  cases hdata : delivered cards i m with
  | none =>
      rw [hdata] at hoffer
      exact ho i card offer hcard hoffer
  | some data =>
      rw [hdata, Client.nextOf] at hoffer
      rcases Client.next_cases txId (phases i) data with hsame | ⟨hphase, hisOffer, hnext⟩ |
        ⟨taken, hphase, -, hnext⟩
      · rw [hsame] at hoffer
        exact ho i card offer hcard hoffer
      · rw [hnext] at hoffer
        rw [← Option.some.inj hoffer]
        exact hown i card data hcard hdata hphase (of_decide_eq_true hisOffer).1
      · rw [hnext] at hoffer
        refine ho i card offer hcard ?_
        rw [hphase]
        exact hoffer

/-- A message that brings no Offer at all. -/
theorem segmentOK_quiet {s : Segment} {h' : Handler} {m : HandlerMessage}
    (hs : SegmentOK cards assigned s) (hstep : step s.handler m = some h')
    (hnone : ∀ i, i < cards.length → delivered cards i m = none) :
    SegmentOK cards assigned { s with handler := h' } := by
  obtain ⟨hw, phases, hr, ho⟩ := hs
  refine ⟨hw, offersOK_step hr ho hstep ?_⟩
  intro i card data hcard hdata
  rw [hnone i (List.getElem?_eq_some_iff.mp hcard).1] at hdata
  cases hdata

/-- The answer of the server to a device in Discover is its own. -/
theorem own_of_ownOffer {s : Segment} {phases : Nat → Client.Phase} {k id : Nat} {frame : Bytes}
    (hr : Represents cards phases s.handler) (hframe : s.wire[k]? = some frame)
    (hw : WireOK assigned s.wire) (hown : ownOffer s (.deliver k id) = true) (i : Nat) (card : Card)
    (data : Dhcp.Data) (hcard : cards[i]? = some card)
    (hdata : delivered cards i (received id frame) = some data) (hphase : phases i = .discover)
    (hop : data.operation = .offer) : data.yiaddr = assigned card.mac := by
  obtain ⟨hfirst, card', hcard', hfound⟩ := frame_of_delivered hdata
  rw [hcard] at hcard'
  cases hcard'
  rw [← hr.cards, List.findIdx?_map] at hfirst
  rw [← hr.cards, List.getElem?_map, Option.map_eq_some_iff] at hcard
  obtain ⟨d, hd, rfl⟩ := hcard
  have hfind : s.handler.devices.find? (fun d => d.id == id) = some d := by
    rw [List.find?_eq_bind_findIdx?_getElem?, Option.bind_eq_some_iff]
    exact ⟨i, hfirst, hd⟩
  have hdhcp : d.metadata.dhcp = .discover i txId := by
    rw [(hr.shows i d hd).dhcp, hphase]
    rfl
  have hfound' : dhcpFrame d.metadata.mac ⟨.new frame⟩ = some data := hfound
  simp only [ownOffer, hframe, hfind, hdhcp, hfound', decide_eq_true_iff] at hown
  rw [hw frame (List.mem_of_getElem? hframe) _ data hfound', hown hop]
  rfl

theorem segmentOK_step {s s' : Segment} {e : SegmentEvent} (hs : SegmentOK cards assigned s)
    (hown : ownOffer s e = true) (hstep : s.step assigned e = some s') :
    SegmentOK cards assigned s' := by
  cases e with
  | answer i k frame =>
      obtain ⟨hw, hhandler⟩ := hs
      obtain ⟨⟨packet, question⟩, -, hstep⟩ := Option.bind_eq_some_iff.mp hstep
      simp only at hstep
      split at hstep
      · rename_i hanswer
        cases hstep
        exact ⟨wireOK_answer hw hanswer, hhandler⟩
      · cases hstep
  | deliver k id =>
      obtain ⟨hw, phases, hr, ho⟩ := hs
      obtain ⟨frame, hframe, hstep⟩ := Option.bind_eq_some_iff.mp hstep
      obtain ⟨h', hhandler, hstep⟩ := Option.bind_eq_some_iff.mp hstep
      cases hstep
      exact ⟨hw, offersOK_step hr ho hhandler (own_of_ownOffer hr hframe hw hown)⟩
  | overhear i k id =>
      obtain ⟨⟨packet, question⟩, hsent, hstep⟩ := Option.bind_eq_some_iff.mp hstep
      obtain ⟨h', hhandler, hstep⟩ := Option.bind_eq_some_iff.mp hstep
      cases hstep
      refine segmentOK_quiet hs hhandler ?_
      intro j _
      have hclient : clientMessage packet = .ok (some question) := by
        obtain ⟨d, -, hsent⟩ := Option.bind_eq_some_iff.mp hsent
        obtain ⟨packet', -, hsent⟩ := Option.bind_eq_some_iff.mp hsent
        obtain ⟨data, hdata, hsent⟩ := Option.bind_eq_some_iff.mp hsent
        cases hsent
        exact eq_ok_of_toOption (Option.join_eq_some_iff.mp hdata)
      rw [Option.eq_none_iff_forall_ne_some]
      intro data hdata
      obtain ⟨-, card, -, hfound⟩ := frame_of_delivered hdata
      have hnone := dhcpFrame_of_client hclient card.mac
      rw [show (⟨packet.buffer⟩ : Ethernet.Packet) = packet from rfl, hnone] at hfound
      cases hfound
  | other m =>
      rw [Segment.step] at hstep
      split at hstep
      · rename_i hbrings
        obtain ⟨h', hhandler, hstep⟩ := Option.bind_eq_some_iff.mp hstep
        cases hstep
        refine segmentOK_quiet hs hhandler ?_
        intro i hi
        obtain ⟨-, phases, hr, -⟩ := hs
        rw [hr.cards, bringsNone, List.all_eq_true] at hbrings
        exact Option.isNone_iff_eq_none.mp (hbrings i (List.mem_range.mpr hi))
      · cases hstep

/-- With the Offers right, so are the addresses. -/
theorem ownAddresses_of_segmentOK {s : Segment} (hmacs : (cards.map Card.mac).Nodup)
    (hassigned : ∀ c ∈ cards, ∀ c' ∈ cards, assigned c.mac = assigned c'.mac → c.mac = c'.mac)
    (hs : SegmentOK cards assigned s) : OwnAddresses assigned s := by
  obtain ⟨-, phases, hr, ho⟩ := hs
  have hcard : ∀ (i : Nat) d, s.handler.devices[i]? = some d → cards[i]? = some d.card := by
    intro i d hd
    rw [← hr.cards, List.getElem?_map, hd]
    rfl
  have hown : ∀ (i : Nat) d ip, s.handler.devices[i]? = some d → d.metadata.ip = some ip →
      ip = assigned d.metadata.mac := by
    intro i d ip hd hip
    rw [(hr.shows i d hd).ip] at hip
    cases hphase : phases i with
    | discover => rw [hphase] at hip; cases hip
    | requested offer => rw [hphase] at hip; cases hip
    | done offer =>
        rw [hphase] at hip
        cases hip
        exact ho i d.card offer (hcard i d hd) (by rw [hphase]; rfl)
  refine ⟨hown, ?_⟩
  intro i j d d' ip hd hd' hip hip'
  have hsame : assigned d.card.mac = assigned d'.card.mac :=
    (hown i d ip hd hip).symm.trans (hown j d' ip hd' hip')
  have hmac := hassigned _ (List.mem_of_getElem? (hcard i d hd)) _
    (List.mem_of_getElem? (hcard j d' hd')) hsame
  have hi : (cards.map Card.mac)[i]? = some d.card.mac := by
    rw [List.getElem?_map, hcard i d hd]
    rfl
  have hj : (cards.map Card.mac)[j]? = some d.card.mac := by
    rw [List.getElem?_map, hcard j d' hd', hmac]
    rfl
  exact (List.getElem?_inj (List.getElem?_eq_some_iff.mp hi).1 hmacs).mp (hi.trans hj.symm)

end Invariant

/--
**Cards that take their own Offers keep their addresses apart.**  Any cards with
different hardware addresses, any server that keeps a different address for each of
them, any order of its answers, of the cards' own messages and of other traffic: as
long as no device in Discover is reached by the Offer for another card, every address
a device has is its own, and no two devices have the same.
-/
theorem own_addresses_along (cards : List Card) (assigned : Mac → Ip)
    (retQueues : Nat → RetQueue) (h₀ : Handler) (events : List SegmentEvent)
    (hmacs : (cards.map Card.mac).Nodup)
    (hassigned : ∀ c ∈ cards, ∀ c' ∈ cards, assigned c.mac = assigned c'.mac → c.mac = c'.mac)
    (hsetup : Handler.setup (cards.map Card.device) retQueues = .ok h₀)
    (hmeet : Lts.StepsMeet (Segment.step assigned) (fun s e => ownOffer s e = true) ⟨h₀, []⟩
      events) :
    Lts.Along (Segment.step assigned) (OwnAddresses assigned) ⟨h₀, []⟩ events := by
  have hinit : SegmentOK cards assigned ⟨h₀, []⟩ := by
    refine ⟨fun _ hframe => absurd hframe List.not_mem_nil, _, represents_setup hsetup, ?_⟩
    intro i card offer _ hoffer
    cases hoffer
  have hinv := Lts.along_of_stepsMeet (fun s e s' => segmentOK_step) hinit hmeet
  exact hinv.mono fun s => ownAddresses_of_segmentOK hmacs hassigned

/-! ### Two cards -/

def macB : Mac := #v[0x52, 0x54, 0, 0, 0, 2]

def twoCards : List Card := [⟨0, macA⟩, ⟨1, macB⟩]

/-- The addresses a server keeps for them. -/
def kept (mac : Mac) : Ip := if mac = macA then ipA else #v[10, 0, 2, 16]

theorem kept_apart :
    (twoCards.map Card.mac).Nodup ∧
      ∀ c ∈ twoCards, ∀ c' ∈ twoCards, kept c.mac = kept c'.mac → c.mac = c'.mac := by
  decide

/-- What a run of the segment leads to. -/
def segmentFrom (cards : List Card) (assigned : Mac → Ip) (events : List SegmentEvent) :
    Option (Handler × Segment) := do
  let h₀ ← (Handler.setup (cards.map Card.device) noQueues).toOption
  let s ← Lts.run (Segment.step assigned) ⟨h₀, []⟩ events
  return (h₀, s)

theorem exists_of_segmentFrom {cards : List Card} {assigned : Mac → Ip}
    {events : List SegmentEvent} {B : Type} {f : Handler × Segment → B} {b : B}
    (h : (segmentFrom cards assigned events).map f = some b) :
    ∃ h₀ s, Handler.setup (cards.map Card.device) noQueues = .ok h₀ ∧
      Lts.run (Segment.step assigned) ⟨h₀, []⟩ events = some s ∧ f (h₀, s) = b :=
  exists_of_started h

/-- Each card gets the Offer for it first; the other Offer and Ack come too late to hurt. -/
def inOrder : List SegmentEvent :=
  [.answer 0 0 (offerFrame macA (kept macA)), .answer 1 0 (offerFrame macB (kept macB)),
    .deliver 0 0, .deliver 1 1, .deliver 0 1,
    .answer 0 1 (ackFrame macA (kept macA)), .deliver 2 0, .deliver 2 1]

theorem own_addresses_along_inOrder :
    ∃ h₀ s, Handler.setup (twoCards.map Card.device) noQueues = .ok h₀ ∧
      Lts.run (Segment.step kept) ⟨h₀, []⟩ inOrder = some s ∧
      s.handler.devices.map (·.metadata.ip) = [some #v[10, 0, 2, 15], some #v[10, 0, 2, 16]] ∧
      OwnAddresses kept s := by
  obtain ⟨h₀, s, hsetup, hrun, hvalues⟩ := exists_of_segmentFrom (by decide +kernel :
    (segmentFrom twoCards kept inOrder).map (fun r => (r.2.handler.devices.map (·.metadata.ip),
      decide (Lts.StepsMeet (Segment.step kept) (fun s e => ownOffer s e = true) ⟨r.1, []⟩ inOrder)))
      = some ([some #v[10, 0, 2, 15], some #v[10, 0, 2, 16]], true))
  rw [Prod.mk.injEq] at hvalues
  exact ⟨h₀, s, hsetup, hrun, hvalues.1, (own_addresses_along twoCards kept noQueues h₀ inOrder
    kept_apart.1 kept_apart.2 hsetup (of_decide_eq_true hvalues.2)).last hrun⟩

/-- The Offer for the first card reaches the second one as well, before its own does. -/
def crossed : List SegmentEvent :=
  [.answer 0 0 (offerFrame macA (kept macA)), .deliver 0 0, .deliver 0 1,
    .answer 0 1 (ackFrame macA (kept macA)), .deliver 1 0, .deliver 1 1]

/-- Both cards end up with the address of the first. -/
theorem crossed_same_address :
    (twoCards.map Card.mac).Nodup ∧
      (∀ c ∈ twoCards, ∀ c' ∈ twoCards, kept c.mac = kept c'.mac → c.mac = c'.mac) ∧
      ∃ h₀ s, Handler.setup (twoCards.map Card.device) noQueues = .ok h₀ ∧
        Lts.run (Segment.step kept) ⟨h₀, []⟩ crossed = some s ∧
        s.handler.devices.map (·.metadata.ip) = [some #v[10, 0, 2, 15], some #v[10, 0, 2, 15]] ∧
        kept macB = #v[10, 0, 2, 16] ∧ ¬ OwnAddresses kept s := by
  obtain ⟨h₀, s, hsetup, hrun, hips⟩ := exists_of_segmentFrom (by decide +kernel :
    (segmentFrom twoCards kept crossed).map (fun r => r.2.handler.devices.map (·.metadata.ip))
      = some [some #v[10, 0, 2, 15], some #v[10, 0, 2, 15]])
  refine ⟨kept_apart.1, kept_apart.2, h₀, s, hsetup, hrun, hips, by decide, ?_⟩
  intro hown
  have hget : ∀ i : Nat,
      (s.handler.devices.map (·.metadata.ip))[i]? = some (some #v[10, 0, 2, 15]) →
      ∃ d, s.handler.devices[i]? = some d ∧ d.metadata.ip = some #v[10, 0, 2, 15] := by
    intro i hi
    rwa [List.getElem?_map, Option.map_eq_some_iff] at hi
  obtain ⟨d, hd, hip⟩ := hget 0 (by rw [hips]; rfl)
  obtain ⟨d', hd', hip'⟩ := hget 1 (by rw [hips]; rfl)
  exact absurd (hown.2 0 1 d d' _ hd hd' hip hip') (by decide)

end Rucoonos.Net
