/-
Echo requests on the network, and the replies to them.

The network holds the echo requests the handler has sent, one on each card for each ping,
and the replies that are on their way back.  A request is answered at most once, from the
address it was sent to and with its identifier and sequence number; what was sent can
take any time to arrive, in any order, or be lost.  Requests and replies carry the ping
they belong to, which neither the handler nor the frames know.

The handler matches a reply with a ping by the address alone.  `own_replies_along` says
that this is right in every run in which a request is only processed once nothing of an
earlier ping to the same address is under way; `late_reply_completes_next` is a run in
which a second card's reply completes the next ping.
-/
import Rucoonos.Proofs.Net.Pings

namespace Rucoonos.Net

open Slice

/-! ### Echo requests and replies in frames -/

/-- The ICMP message of a frame. -/
def icmpOf (frame : Ethernet.Packet) : Option (Ipv4.PacketHeader × Icmp.Kind) :=
  match frame.etherType, Ipv4.Packet.header ⟨frame⟩, Icmp.Packet.getType ⟨⟨frame⟩⟩ with
  | .ok .ipv4, .ok header, .ok kind => if header.protocol = .icmp then some (header, kind) else none
  | _, _, _ => none

def isEchoReply (frame : Ethernet.Packet) : Bool :=
  match icmpOf frame with
  | some (_, .echoReply _ _) => true
  | _ => false

/-- The frame is a reply to the request. -/
def isReplyTo (request frame : Ethernet.Packet) : Bool :=
  match icmpOf request, icmpOf frame with
  | some (asked, .echoRequest identifier sequence), some (answer, .echoReply identifier' sequence') =>
      answer.sourceIp = asked.destinationIp ∧ identifier' = identifier ∧ sequence' = sequence
  | _, _ => false

/-! ### The network -/

structure EchoNet where
  system : System
  /-- The echo requests that were sent, each with its ping. -/
  requests : List (Nat × Ethernet.Packet)
  /-- The replies that are on their way, each with the ping it answers. -/
  replies : List (Nat × Bytes)

inductive NetEvent
  | act (a : Action)
  | reply (request : Nat) (frame : Bytes)
  | deliver (reply card : Nat)
  | loseRequest (request : Nat)
  | loseReply (reply : Nat)
  deriving DecidableEq, Repr

/-- Echo replies come from the network; other frames may come from anywhere. -/
def fromElsewhere : Action → Bool
  | .receive raw answers => answers = none ∧ isEchoReply ⟨raw.buffer⟩ = false
  | _ => true

/-- The echo requests that an action sends. -/
def echoesSent (s s' : System) : Action → List (Nat × Ethernet.Packet)
  | .handle =>
      match s.mailbox with
      | ⟨.action (.pingRequest _ _ _ result), _⟩ :: _ =>
          (transmitted s.handler s'.handler).map fun packet => (result, packet)
      | _ => []
  | _ => []

def EchoNet.step (n : EchoNet) : NetEvent → Option EchoNet
  | .act a =>
      if fromElsewhere a = true then
        (n.system.step a).map fun s' =>
          { n with system := s', requests := n.requests ++ echoesSent n.system s' a }
      else none
  | .reply k frame =>
      match n.requests[k]? with
      | none => none
      | some (ping, request) =>
          if isReplyTo request ⟨.new frame⟩ = true then
            some { n with
              requests := n.requests.eraseIdx k
              replies := n.replies ++ [(ping, frame)] }
          else none
  | .deliver k card =>
      match n.replies[k]? with
      | none => none
      | some (ping, frame) => some { n with
          system := n.system.post (.packet ⟨card, .new frame⟩) (some ping)
          replies := n.replies.eraseIdx k }
  | .loseRequest k => some { n with requests := n.requests.eraseIdx k }
  | .loseReply k => some { n with replies := n.replies.eraseIdx k }

def EchoNet.start (h : Handler) : EchoNet := ⟨.start h, [], []⟩

/-- The pings that something is under way for: a request, a reply, or a letter with one. -/
def EchoNet.underWay (n : EchoNet) : List Nat :=
  n.requests.map Prod.fst ++ n.replies.map Prod.fst ++ n.system.mailbox.filterMap Letter.answers

/-- Every ping was completed by a reply to one of its own requests. -/
def OwnReplies (n : EchoNet) : Prop :=
  ∀ c ∈ n.system.completions, c.2 = some c.1

/-- The handler takes no request for an address while something of an earlier ping to it is
under way. -/
def Settled (n : EchoNet) : NetEvent → Prop
  | .act .handle =>
      match n.system.mailbox with
      | ⟨.action (.pingRequest _ ip _ _), _⟩ :: _ =>
          ∀ t ∈ n.underWay, (n.system.pings[t]?).map Ping.target ≠ some ip
      | _ => True
  | _ => True

instance (n : EchoNet) (e : NetEvent) : Decidable (Settled n e) := by
  unfold Settled
  split
  · split
    · infer_instance
    · infer_instance
  · infer_instance

/-! ### What frames say -/

/-- Whatever echo reply the frame holds comes from `ip`. -/
def RepliesFrom (ip : Ip) (frame : Ethernet.Packet) : Prop :=
  ∀ header identifier sequence, icmpOf frame = some (header, .echoReply identifier sequence) →
    header.sourceIp = ip

/-- What the handler takes for an echo reply is one. -/
theorem icmpOf_of_echoSource {h : Handler} {raw : RawPacket} {ip : Ip}
    (hsource : echoSource h (.packet raw) = some ip) :
    ∃ header identifier sequence,
      icmpOf ⟨raw.buffer⟩ = some (header, .echoReply identifier sequence) ∧ header.sourceIp = ip := by
  obtain ⟨seen, hseen, hsource⟩ := Option.bind_eq_some_iff.mp hsource
  obtain ⟨device, -, hinspect⟩ := Option.bind_eq_some_iff.mp hseen
  have hreads := inspect_reads (eq_ok_of_toOption hinspect)
  unfold Seen.echoSource at hsource
  split at hsource
  · rename_i packet identifier sequence
    obtain ⟨hty, rfl, hkind, header, hheader, hprotocol⟩ := hreads
    obtain ⟨header', hheader', rfl⟩ := Option.map_eq_some_iff.mp hsource
    have hsame := hheader.symm.trans (eq_ok_of_toOption hheader')
    cases hsame
    refine ⟨header, identifier, sequence, ?_, rfl⟩
    simp only [icmpOf, hty, hheader, hkind, hprotocol, if_true]
  · cases hsource

theorem echoSource_of_repliesFrom {h : Handler} {raw : RawPacket} {ip ip' : Ip}
    (hfrom : RepliesFrom ip ⟨raw.buffer⟩) (hsource : echoSource h (.packet raw) = some ip') :
    ip' = ip := by
  obtain ⟨header, identifier, sequence, hicmp, rfl⟩ := icmpOf_of_echoSource hsource
  exact hfrom header identifier sequence hicmp

theorem echoSource_of_not_reply {h : Handler} {raw : RawPacket}
    (hnot : isEchoReply ⟨raw.buffer⟩ = false) : echoSource h (.packet raw) = none := by
  by_contra hsome
  obtain ⟨ip, hsource⟩ := Option.ne_none_iff_exists'.mp hsome
  obtain ⟨header, identifier, sequence, hicmp, -⟩ := icmpOf_of_echoSource hsource
  rw [isEchoReply, hicmp] at hnot
  cases hnot

/-- A reply comes from where its request was sent. -/
theorem repliesFrom_of_isReplyTo {request frame : Ethernet.Packet} {ip : Ip}
    (hreply : isReplyTo request frame = true)
    (hrequest : ∀ header kind, icmpOf request = some (header, kind) → header.destinationIp = ip) :
    RepliesFrom ip frame := by
  intro header identifier sequence hicmp
  unfold isReplyTo at hreply
  split at hreply
  · rename_i asked _ _ answer _ _ hasked hanswer
    rw [hicmp, Option.some.injEq, Prod.mk.injEq] at hanswer
    rw [hanswer.1, (of_decide_eq_true hreply).1]
    exact hrequest asked _ hasked
  · cases hreply

/-- An echo request goes to the address that was pinged. -/
theorem destination_of_echoRequest {ip : Ip} {mac : Mac} {d : NetworkDevice}
    {packet : Ethernet.Packet} (h : echoRequest ip mac d = .ok (some packet))
    {header : Ipv4.PacketHeader} {kind : Icmp.Kind} (hicmp : icmpOf packet = some (header, kind)) :
    header.destinationIp = ip := by
  obtain ⟨hcarried, -⟩ := Icmp.PacketBuilder.finish_carried (by intro d hd; cases hd) h
  obtain ⟨header', hheader', -, -, -, -, -, -, -, -, hdestination⟩ := hcarried.header
  unfold icmpOf at hicmp
  split at hicmp
  · rename_i header₀ kind₀ _ hheader₀ _
    split at hicmp
    · cases hicmp
      rw [hheader'] at hheader₀
      cases hheader₀
      exact hdestination
    · cases hicmp
  · cases hicmp

/-- What is sent on every device was made for one of them. -/
theorem made_of_transmitted {make : NetworkDevice → Exec (Option Ethernet.Packet)} :
    ∀ {devices devices' : List NetworkDevice}, enqueueAll make devices = .ok devices' →
      ∀ packet ∈ (List.zipWith (fun d d' => d'.packetQueue.drop d.packetQueue.length) devices
        devices').flatten, ∃ d, make d = .ok (some packet) := by
  intro devices
  induction devices with
  | nil =>
      intro devices' h packet hmem
      cases hmem
  | cons d rest ih =>
      intro devices' h packet hmem
      obtain ⟨made, hmade, h⟩ := bind_eq_ok.mp h
      obtain ⟨sent, hsent, h⟩ := bind_eq_ok.mp h
      obtain ⟨rest', hrest, h⟩ := bind_eq_ok.mp h
      cases h
      rw [List.zipWith_cons_cons, List.flatten_cons, List.mem_append] at hmem
      rcases hmem with hmem | hmem
      · rw [NetworkDevice.enqueue, List.drop_left, List.mem_singleton] at hmem
        subst hmem
        exact ⟨d, by rw [hmade, eq_of_unwrap hsent]⟩
      · exact ih hrest packet hmem

/-! ### What an action does to the pings -/

def System.target (s : System) (i : Nat) : Option Ip := s.pings[i]?.map Ping.target

section Target

variable {s s' : System} {a : Action}

/-- A ping keeps its target. -/
theorem target_step (hstep : s.step a = some s') {i : Nat} {ip : Ip} (h : s.target i = some ip) :
    s'.target i = some ip := by
  obtain ⟨p, hp, htarget⟩ := Option.map_eq_some_iff.mp h
  have hkept : ∀ p', s'.pings[i]? = some p' → p'.target = p.target → s'.target i = some ip := by
    intro p' hp' hsame
    rw [System.target, hp', Option.map_some, hsame, htarget]
  cases step_move hstep with
  | rawPing => exact hkept _ (getElem?_concat_eq_some.mpr (.inl hp)) rfl
  | pingPosted hping hsend hip =>
      rename_i k _ ping _ _
      by_cases hki : k = i
      · subst hki
        rw [hping, Option.some.injEq] at hp
        subst hp
        have hlt := (List.getElem?_eq_some_iff.mp hping).1
        exact hkept _ (getElem?_set_eq_some.mpr (.inl ⟨rfl, hlt, rfl⟩)) rfl
      · exact hkept _ (getElem?_set_eq_some.mpr (.inr ⟨Ne.symm hki, hp⟩)) rfl
  | handled hmail hh' =>
      rename_i letter rest h'
      obtain ⟨message, answers⟩ := letter
      cases message with
      | packet raw =>
          rcases packet_slot hh' with ⟨hsource, -⟩ | ⟨ip', hsource, -⟩
          · refine hkept p ?_ rfl
            rw [pings_handled hsource, hp]
          · refine hkept (p.hear ip') ?_ (p.hear_same ip').1
            rw [getElem?_pings_handled hsource, hp, Option.map_some]
      | action request =>
          cases request with
          | sendArpRequest ip' retQueue => exact hkept p hp rfl
          | pingRequest waker ip' mac k =>
              refine hkept _ (getElem?_modify_eq_some.mpr ⟨p, hp, rfl⟩) ?_
              split
              · rfl
              · rfl
  | _ => exact h

/-- Only the handler registers and completes pings; the others post letters that answer
nothing. -/
theorem quiet_step (hquiet : a ≠ .handle) (hfrom : fromElsewhere a = true)
    (hstep : s.step a = some s') :
    s'.handler.ping = s.handler.ping ∧ s'.completions = s.completions ∧
      ∃ new, s'.mailbox = s.mailbox ++ new ∧ ∀ letter ∈ new, letter.answers = none ∧
        ∀ raw, letter.message = .packet raw → isEchoReply ⟨raw.buffer⟩ = false := by
  cases step_move hstep with
  | getMac =>
      refine ⟨rfl, rfl, _, rfl, fun letter hmem => ?_⟩
      rw [List.mem_singleton.mp hmem]
      exact ⟨rfl, fun raw hraw => by cases hraw⟩
  | pingPosted hping hsend hip =>
      refine ⟨rfl, rfl, _, rfl, fun letter hmem => ?_⟩
      rw [List.mem_singleton.mp hmem]
      exact ⟨rfl, fun raw hraw => by cases hraw⟩
  | receive =>
      refine ⟨rfl, rfl, _, rfl, fun letter hmem => ?_⟩
      rw [List.mem_singleton.mp hmem]
      have hfrom := of_decide_eq_true hfrom
      refine ⟨hfrom.1, fun raw hraw => ?_⟩
      cases hraw
      exact hfrom.2
  | handled hmail hh' => exact absurd rfl hquiet
  | _ => exact ⟨rfl, rfl, [], (List.append_nil _).symm, fun letter hmem => by cases hmem⟩

end Target

/-! ### The binding of an address is that of the latest ping -/

/-- A letter that answers a request is a reply from its target, and no other letter is a
reply. -/
def LetterOK (s : System) (letter : Letter) : Prop :=
  match letter.answers with
  | none => ∀ raw, letter.message = .packet raw → isEchoReply ⟨raw.buffer⟩ = false
  | some t => ∃ ip, s.target t = some ip ∧
      ∀ raw, letter.message = .packet raw → RepliesFrom ip ⟨raw.buffer⟩

structure EchoInv (n : EchoNet) : Prop where
  pings : Pings n.system
  requests : ∀ t packet, (t, packet) ∈ n.requests → ∃ ip, n.system.target t = some ip ∧
    ∀ header kind, icmpOf packet = some (header, kind) → header.destinationIp = ip
  replies : ∀ t frame, (t, frame) ∈ n.replies →
    ∃ ip, n.system.target t = some ip ∧ RepliesFrom ip ⟨.new frame⟩
  letters : ∀ letter ∈ n.system.mailbox, LetterOK n.system letter
  latest : ∀ t ∈ n.underWay, ∀ ip waker i, n.system.target t = some ip →
    n.system.handler.ping ip = some (waker, i) → i = t
  own : OwnReplies n

section EchoInv

variable {n n' : EchoNet} {s' : System} {a : Action} {e : NetEvent}

theorem LetterOK.step {s : System} {letter : Letter} (h : LetterOK s letter)
    (hstep : s.step a = some s') : LetterOK s' letter := by
  unfold LetterOK at h ⊢
  split
  · rename_i hnone
    simpa only [hnone] using h
  · rename_i t hsome
    rw [hsome] at h
    obtain ⟨ip, htarget, hfrom⟩ := h
    exact ⟨ip, target_step hstep htarget, hfrom⟩

/-- Something that is under way has a ping. -/
theorem EchoInv.target_of_underWay (h : EchoInv n) {t : Nat} (ht : t ∈ n.underWay) :
    ∃ ip, n.system.target t = some ip := by
  rw [EchoNet.underWay, List.mem_append, List.mem_append] at ht
  rcases ht with (ht | ht) | ht
  · obtain ⟨⟨t, packet⟩, hmem, rfl⟩ := List.mem_map.mp ht
    obtain ⟨ip, htarget, -⟩ := h.requests t packet hmem
    exact ⟨ip, htarget⟩
  · obtain ⟨⟨t, frame⟩, hmem, rfl⟩ := List.mem_map.mp ht
    obtain ⟨ip, htarget, -⟩ := h.replies t frame hmem
    exact ⟨ip, htarget⟩
  · obtain ⟨letter, hmem, hanswers⟩ := List.mem_filterMap.mp ht
    have hok := h.letters letter hmem
    rw [LetterOK, hanswers] at hok
    obtain ⟨ip, htarget, -⟩ := hok
    exact ⟨ip, htarget⟩

/-- A target is known before and after. -/
theorem EchoInv.target_back (h : EchoInv n) (hstep : n.system.step a = some s') {t : Nat} {ip : Ip}
    (ht : t ∈ n.underWay) (htarget : s'.target t = some ip) : n.system.target t = some ip := by
  obtain ⟨ip', htarget'⟩ := h.target_of_underWay ht
  have hsame := target_step hstep htarget'
  rw [htarget] at hsame
  rw [htarget', hsame]

/-- What is on the network still goes to and comes from the same addresses. -/
theorem EchoInv.requests_step (h : EchoInv n) (hstep : n.system.step a = some s') {t : Nat}
    {packet : Ethernet.Packet} (hmem : (t, packet) ∈ n.requests) :
    ∃ ip, s'.target t = some ip ∧
      ∀ header kind, icmpOf packet = some (header, kind) → header.destinationIp = ip := by
  obtain ⟨ip, htarget, hrest⟩ := h.requests t packet hmem
  exact ⟨ip, target_step hstep htarget, hrest⟩

theorem EchoInv.replies_step (h : EchoInv n) (hstep : n.system.step a = some s') {t : Nat}
    {frame : Bytes} (hmem : (t, frame) ∈ n.replies) :
    ∃ ip, s'.target t = some ip ∧ RepliesFrom ip ⟨.new frame⟩ := by
  obtain ⟨ip, htarget, hrest⟩ := h.replies t frame hmem
  exact ⟨ip, target_step hstep htarget, hrest⟩

/-- An action of anyone but the handler. -/
theorem EchoInv.quiet (h : EchoInv n) (hquiet : a ≠ .handle) (hfrom : fromElsewhere a = true)
    (hstep : n.system.step a = some s') : EchoInv { n with system := s' } := by
  obtain ⟨hping, hcompletions, new, hmail, hnew⟩ := quiet_step hquiet hfrom hstep
  have hway : ∀ t, t ∈ EchoNet.underWay { n with system := s' } → t ∈ n.underWay := by
    intro t ht
    have hnone : new.filterMap Letter.answers = [] :=
      List.filterMap_eq_nil_iff.mpr fun letter hmem => (hnew letter hmem).1
    simpa only [EchoNet.underWay, hmail, List.filterMap_append, hnone, List.append_nil] using ht
  refine ⟨h.pings.step hstep, ?_, ?_, ?_, ?_, ?_⟩
  · intro t packet hmem
    exact h.requests_step hstep hmem
  · intro t frame hmem
    exact h.replies_step hstep hmem
  · intro letter hmem
    have hmem : letter ∈ s'.mailbox := hmem
    rw [hmail, List.mem_append] at hmem
    rcases hmem with hmem | hmem
    · exact (h.letters letter hmem).step hstep
    · obtain ⟨hnone, hnot⟩ := hnew letter hmem
      rw [LetterOK, hnone]
      exact hnot
  · intro t ht ip waker i htarget hslot
    have hslot : s'.handler.ping ip = some (waker, i) := hslot
    rw [hping] at hslot
    exact h.latest t (hway t ht) ip waker i (h.target_back hstep (hway t ht) htarget) hslot
  · intro c hc
    have hc : c ∈ s'.completions := hc
    rw [hcompletions] at hc
    exact h.own c hc

/-- What is under way after a message was processed. -/
theorem mem_underWay_of_handled {letter : Letter} {rest : List Letter}
    (hmail : n.system.mailbox = letter :: rest) (hs' : s'.mailbox = rest) {t : Nat}
    {sent : List (Nat × Ethernet.Packet)}
    (ht : t ∈ EchoNet.underWay { n with system := s', requests := n.requests ++ sent }) :
    t ∈ n.underWay ∨ t ∈ sent.map Prod.fst := by
  simp only [EchoNet.underWay, hs', hmail, List.map_append, List.mem_append,
    List.filterMap_cons] at ht ⊢
  split
  · tauto
  · simp only [List.mem_cons]
    tauto

/-- A flag is set only by a reply that finds the ping in the place of its sender. -/
theorem EchoInv.own_packet (h : EchoInv n) {raw : RawPacket} {answers : Option Nat}
    {rest : List Letter} {h' : Handler}
    (hmail : n.system.mailbox = ⟨.packet raw, answers⟩ :: rest)
    (hstep : Net.step n.system.handler (.packet raw) = some h') {i : Nat}
    (hold : n.system.handler.results i = false) (hnew : h'.results i = true) :
    answers = some i := by
  have hmem : ⟨.packet raw, answers⟩ ∈ n.system.mailbox := by
    rw [hmail]
    exact List.mem_cons_self
  rcases packet_ping hstep with ⟨-, -, hresults, -⟩ | ⟨ip, -, -, -, hresults, -⟩ |
    ⟨ip, waker, result, hsource, hslot, -, hresults, -⟩
  · rw [hresults, hold] at hnew
    cases hnew
  · rw [hresults, hold] at hnew
    cases hnew
  · have hi : i = result := by
      by_contra hne
      rw [hresults, Function.update_of_ne hne, hold] at hnew
      cases hnew
    subst hi
    have hok := h.letters _ hmem
    cases answers with
    | none =>
        rw [echoSource_of_not_reply (hok raw rfl)] at hsource
        cases hsource
    | some t =>
        obtain ⟨ip', htarget, hfrom⟩ := hok
        rw [echoSource_of_repliesFrom (hfrom raw rfl) hsource] at hslot
        have ht : t ∈ n.underWay := by
          rw [EchoNet.underWay, List.mem_append]
          exact .inr (List.mem_filterMap.mpr ⟨_, hmem, rfl⟩)
        rw [h.latest t ht ip' waker i htarget hslot]

/-- A message is processed. -/
theorem EchoInv.handled (h : EchoInv n) {letter : Letter} {rest : List Letter} {h' : Handler}
    {sent : List (Nat × Ethernet.Packet)} (hmail : n.system.mailbox = letter :: rest)
    (hstep : Net.step n.system.handler letter.message = some h')
    (hsent : ∀ t packet, (t, packet) ∈ sent →
      ∃ ip, n.system.target t = some ip ∧
        ∀ header kind, icmpOf packet = some (header, kind) → header.destinationIp = ip)
    (hlatest : ∀ t, t ∈ n.underWay ∨ t ∈ sent.map Prod.fst → ∀ ip waker i,
      n.system.target t = some ip → h'.ping ip = some (waker, i) → i = t)
    (hown : ∀ i, n.system.handler.results i = false → h'.results i = true →
      letter.answers = some i) :
    EchoInv { n with system := n.system.handled letter rest h', requests := n.requests ++ sent } := by
  have hmove : n.system.step .handle = some (n.system.handled letter rest h') := by
    simp only [System.step, hmail, hstep, Option.map_some]
  refine ⟨h.pings.step hmove, ?_, ?_, ?_, ?_, ?_⟩
  · intro t packet hmem
    rcases List.mem_append.mp hmem with hmem | hmem
    · exact h.requests_step hmove hmem
    · obtain ⟨ip, htarget, hrest⟩ := hsent t packet hmem
      exact ⟨ip, target_step hmove htarget, hrest⟩
  · intro t frame hmem
    exact h.replies_step hmove hmem
  · intro l hmem
    exact (h.letters l (by rw [hmail]; exact List.mem_cons_of_mem _ hmem)).step hmove
  · intro t ht ip waker i htarget hslot
    have ht := mem_underWay_of_handled hmail rfl ht
    have hknown : ∃ ip', n.system.target t = some ip' := by
      rcases ht with ht | ht
      · exact h.target_of_underWay ht
      · obtain ⟨⟨t, packet⟩, hmem, rfl⟩ := List.mem_map.mp ht
        obtain ⟨ip', htarget', -⟩ := hsent t packet hmem
        exact ⟨ip', htarget'⟩
    obtain ⟨ip', htarget'⟩ := hknown
    have hsame := target_step hmove htarget'
    have htarget : (n.system.handled letter rest h').target t = some ip := htarget
    rw [hsame, Option.some.injEq] at htarget
    exact hlatest t ht ip waker i (htarget ▸ htarget') hslot
  · intro c hc
    rcases List.mem_append.mp hc with hc | hc
    · exact h.own c hc
    · obtain ⟨i, hi, rfl⟩ := List.mem_map.mp hc
      obtain ⟨-, hflags⟩ := List.mem_filter.mp hi
      rw [Bool.and_eq_true, Bool.not_eq_true'] at hflags
      exact hown i hflags.1 hflags.2

/-- A packet frees the place of the ping that it completes, and fills none. -/
theorem EchoInv.packet (h : EchoInv n) {raw : RawPacket} {answers : Option Nat}
    {rest : List Letter} {h' : Handler}
    (hmail : n.system.mailbox = ⟨.packet raw, answers⟩ :: rest)
    (hstep : Net.step n.system.handler (.packet raw) = some h') :
    EchoInv { n with
      system := n.system.handled ⟨.packet raw, answers⟩ rest h'
      requests := n.requests ++ echoesSent n.system
        (n.system.handled ⟨.packet raw, answers⟩ rest h') .handle } := by
  rw [echoesSent, hmail]
  refine h.handled hmail hstep (fun t packet hmem => by cases hmem) ?_ ?_
  · intro t ht ip waker i htarget hslot
    have ht : t ∈ n.underWay := ht.resolve_right fun hc => by cases hc
    rcases packet_slot hstep with ⟨-, hping⟩ | ⟨ip', -, hping⟩
    · rw [hping] at hslot
      exact h.latest t ht ip waker i htarget hslot
    · by_cases hip : ip = ip'
      · rw [hping, hip, Function.update_self] at hslot
        cases hslot
      · rw [hping, Function.update_of_ne hip] at hslot
        exact h.latest t ht ip waker i htarget hslot
  · intro i hold hnew
    exact h.own_packet hmail hstep hold hnew

/-- A request takes the place of its address, for which nothing else is under way. -/
theorem EchoInv.pingRequest (h : EchoInv n) (hsettled : Settled n (.act .handle))
    {waker k : Nat} {ip : Ip} {mac : Mac} {answers : Option Nat} {rest : List Letter}
    {h' : Handler}
    (hmail : n.system.mailbox = ⟨.action (.pingRequest waker ip mac k), answers⟩ :: rest)
    (hstep : Net.step n.system.handler (.action (.pingRequest waker ip mac k)) = some h') :
    EchoInv { n with
      system := n.system.handled ⟨.action (.pingRequest waker ip mac k), answers⟩ rest h'
      requests := n.requests ++ echoesSent n.system
        (n.system.handled ⟨.action (.pingRequest waker ip mac k), answers⟩ rest h') .handle } := by
  rw [echoesSent, hmail]
  rw [Settled, hmail] at hsettled
  obtain ⟨devices, hdevices, rfl⟩ := step_pingRequest hstep
  obtain ⟨ping, hping, -, htarget, -, -⟩ := ping_of_letter h.pings.sound hmail
  have hk : n.system.target k = some ip := by
    rw [System.target, hping, Option.map_some, htarget]
  refine h.handled hmail hstep ?_ ?_ ?_
  · intro t packet hmem
    obtain ⟨packet, hpacket, hpair⟩ := List.mem_map.mp hmem
    cases hpair
    obtain ⟨d, hmade⟩ := made_of_transmitted hdevices packet hpacket
    exact ⟨ip, hk, fun header kind => destination_of_echoRequest hmade⟩
  · intro t ht ip' waker' i htarget' hslot
    have hslot : Function.update n.system.handler.ping ip (some (waker, k)) ip'
        = some (waker', i) := hslot
    rcases ht with ht | ht
    · have hip : ip' ≠ ip := by
        rintro rfl
        exact hsettled t ht htarget'
      rw [Function.update_of_ne hip] at hslot
      exact h.latest t ht ip' waker' i htarget' hslot
    · obtain ⟨⟨t, packet⟩, hmem, rfl⟩ := List.mem_map.mp ht
      obtain ⟨packet, hpacket, hpair⟩ := List.mem_map.mp hmem
      cases hpair
      rw [hk, Option.some.injEq] at htarget'
      rw [htarget', Function.update_self] at hslot
      cases hslot
      rfl
  · intro i hold hnew
    have hnew : n.system.handler.results i = true := hnew
    rw [hold] at hnew
    cases hnew

theorem EchoInv.handle (h : EchoInv n) (hsettled : Settled n (.act .handle))
    (hstep : n.system.step .handle = some s') :
    EchoInv { n with system := s', requests := n.requests ++ echoesSent n.system s' .handle } := by
  cases step_move hstep with
  | handled hmail hh' =>
      rename_i letter rest h'
      obtain ⟨message, answers⟩ := letter
      cases message with
      | packet raw => exact h.packet hmail hh'
      | action request =>
          cases request with
          | sendArpRequest ip retQueue =>
              rw [echoesSent, hmail]
              obtain ⟨devices, rfl⟩ := step_sendArpRequest hh'
              refine h.handled hmail hh' (fun t packet hmem => by cases hmem) ?_ ?_
              · intro t ht
                exact h.latest t (ht.resolve_right fun hc => by cases hc)
              · intro i hold hnew
                have hnew : n.system.handler.results i = true := hnew
                rw [hold] at hnew
                cases hnew
          | pingRequest waker ip mac k => exact h.pingRequest hsettled hmail hh'

/-- Requests are lost or answered, and replies are lost. -/
theorem EchoInv.network (h : EchoInv n) {requests : List (Nat × Ethernet.Packet)}
    {replies : List (Nat × Bytes)} (hrequests : ∀ r ∈ requests, r ∈ n.requests)
    (hreplies : ∀ t frame, (t, frame) ∈ replies → (t, frame) ∈ n.replies ∨
      ∃ request, (t, request) ∈ n.requests ∧ isReplyTo request ⟨.new frame⟩ = true) :
    EchoInv { n with requests, replies } := by
  refine ⟨h.pings, fun t packet hmem => h.requests t packet (hrequests _ hmem), ?_, h.letters, ?_,
    h.own⟩
  · intro t frame hmem
    rcases hreplies t frame hmem with hmem | ⟨request, hmem, hreply⟩
    · exact h.replies t frame hmem
    · obtain ⟨ip, htarget, hrequest⟩ := h.requests t request hmem
      exact ⟨ip, htarget, repliesFrom_of_isReplyTo hreply hrequest⟩
  · intro t ht
    refine h.latest t ?_
    simp only [EchoNet.underWay, List.mem_append] at ht ⊢
    rcases ht with (ht | ht) | ht
    · obtain ⟨r, hmem, rfl⟩ := List.mem_map.mp ht
      exact .inl (.inl (List.mem_map_of_mem (hrequests r hmem)))
    · obtain ⟨⟨t, frame⟩, hmem, rfl⟩ := List.mem_map.mp ht
      rcases hreplies t frame hmem with hmem | ⟨request, hmem, -⟩
      · exact .inl (.inr (List.mem_map.mpr ⟨_, hmem, rfl⟩))
      · exact .inl (.inl (List.mem_map.mpr ⟨_, hmem, rfl⟩))
    · exact .inr ht

/-- A reply reaches a card. -/
theorem EchoInv.arrive (h : EchoInv n) {t card : Nat} {frame : Bytes}
    (hmem : (t, frame) ∈ n.replies) :
    EchoInv { n with system := n.system.post (.packet ⟨card, .new frame⟩) (some t) } := by
  obtain ⟨ip, htarget, hfrom⟩ := h.replies t frame hmem
  have hmove : n.system.step (.receive ⟨card, .new frame⟩ (some t))
      = some (n.system.post (.packet ⟨card, .new frame⟩) (some t)) := rfl
  refine ⟨h.pings.step hmove, h.requests, h.replies, ?_, ?_, h.own⟩
  · intro letter hletter
    rcases List.mem_append.mp hletter with hletter | hletter
    · exact (h.letters letter hletter).step hmove
    · rw [List.mem_singleton.mp hletter]
      refine ⟨ip, htarget, fun raw hraw => ?_⟩
      cases hraw
      exact hfrom
  · intro t' ht'
    refine h.latest t' ?_
    simp only [EchoNet.underWay, System.post, List.filterMap_append, List.mem_append] at ht' ⊢
    rcases ht' with ht' | ht' | ht'
    · exact .inl ht'
    · exact .inr ht'
    · rw [show t' = t by simpa using ht']
      exact .inl (.inr (List.mem_map.mpr ⟨_, hmem, rfl⟩))

theorem EchoInv.step (h : EchoInv n) (hsettled : Settled n e) (hstep : n.step e = some n') :
    EchoInv n' := by
  cases e with
  | act a =>
      rw [EchoNet.step] at hstep
      split at hstep
      · rename_i hfrom
        obtain ⟨s', hs', rfl⟩ := Option.map_eq_some_iff.mp hstep
        by_cases hquiet : a = .handle
        · subst hquiet
          exact h.handle hsettled hs'
        · have hsent : echoesSent n.system s' a = [] := by
            cases a with
            | handle => exact absurd rfl hquiet
            | _ => rfl
          rw [hsent, List.append_nil]
          exact h.quiet hquiet hfrom hs'
      · cases hstep
  | reply k frame =>
      rw [EchoNet.step] at hstep
      split at hstep
      · cases hstep
      · rename_i ping request hrequest
        split at hstep
        · rename_i hreply
          cases hstep
          refine h.network (fun r hr => List.mem_of_mem_eraseIdx hr) fun t frame' hmem => ?_
          rcases List.mem_append.mp hmem with hmem | hmem
          · exact .inl hmem
          · cases List.mem_singleton.mp hmem
            exact .inr ⟨request, List.mem_of_getElem? hrequest, hreply⟩
        · cases hstep
  | deliver k card =>
      rw [EchoNet.step] at hstep
      split at hstep
      · cases hstep
      · rename_i ping frame hreply
        cases hstep
        exact (h.arrive (List.mem_of_getElem? hreply)).network (fun r hr => hr)
          fun t frame' hmem => .inl (List.mem_of_mem_eraseIdx hmem)
  | loseRequest k =>
      cases hstep
      exact h.network (fun r hr => List.mem_of_mem_eraseIdx hr) fun t frame hmem => .inl hmem
  | loseReply k =>
      cases hstep
      exact h.network (fun r hr => hr) fun t frame hmem => .inl (List.mem_of_mem_eraseIdx hmem)

theorem EchoInv.start {h : Handler} (hping : ∀ ip, h.ping ip = none) :
    EchoInv (EchoNet.start h) where
  pings := .start hping
  requests := fun t packet hmem => by cases hmem
  replies := fun t frame hmem => by cases hmem
  letters := fun letter hmem => by cases hmem
  latest := fun t ht => by cases ht
  own := fun c hc => by cases hc

end EchoInv

/--
**When a ping completes on its own reply.**  Any number of devices and pings, any delays,
losses and orders of delivery: in every run in which the handler takes a request for an
address only when no request or reply of an earlier ping to that address is under way,
every ping that was completed was completed by a reply to a request sent for it.
-/
theorem own_replies_along (devices : List NetworkDevice) (retQueues : Nat → RetQueue)
    (h₀ : Handler) (hsetup : Handler.setup devices retQueues = .ok h₀) (events : List NetEvent)
    (hsettled : Lts.StepsMeet EchoNet.step Settled (EchoNet.start h₀) events) :
    Lts.Along EchoNet.step OwnReplies (EchoNet.start h₀) events :=
  (Lts.along_of_stepsMeet (fun _ _ _ h hsettled hstep => EchoInv.step h hsettled hstep)
    (EchoInv.start (bindings_of_setup hsetup).2.1) hsettled).mono fun _ h => h.own

/-- What a run of the network leads to. -/
def netFrom (devices : List NetworkDevice) (events : List NetEvent) :
    Option (Handler × EchoNet) := do
  let h₀ ← (Handler.setup devices (fun _ => .new)).toOption
  let n ← Lts.run EchoNet.step (EchoNet.start h₀) events
  return (h₀, n)

theorem exists_of_netFrom {devices : List NetworkDevice} {events : List NetEvent} {B : Type}
    {f : Handler × EchoNet → B} {b : B} (h : (netFrom devices events).map f = some b) :
    ∃ h₀ n, Handler.setup devices (fun _ => .new) = .ok h₀ ∧
      Lts.run EchoNet.step (EchoNet.start h₀) events = some n ∧ f (h₀, n) = b :=
  exists_of_started h

def twoDevices : List NetworkDevice := [.new 0 someMac, .new 1 hostMac]

/-- A ping to the host is made and its request processed. -/
def pingHost (i : Nat) : List NetEvent :=
  [.act (.rawPing hostIp hostMac), .act (.pollPing i (7 + i)), .act .handle]

/-- Both requests of the first ping are answered, and both replies processed, before the
second ping. -/
def bothRepliesFirst : List NetEvent :=
  pingHost 0 ++ [.reply 0 (echoReplyFrame hostIp), .reply 0 (echoReplyFrame hostIp), .deliver 0 0,
    .deliver 0 1, .act .handle, .act .handle] ++ pingHost 1 ++
    [.reply 1 (echoReplyFrame hostIp), .deliver 0 1, .act .handle]

/-- The second reply to the first ping is still on its way when the second ping is made. -/
def oneReplyLate : List NetEvent :=
  pingHost 0 ++ [.reply 0 (echoReplyFrame hostIp), .reply 0 (echoReplyFrame hostIp), .deliver 0 0,
    .act .handle] ++ pingHost 1 ++ [.deliver 0 1, .act .handle]

theorem own_replies_along_settled :
    ∃ h₀ n, Handler.setup twoDevices (fun _ => .new) = .ok h₀ ∧
      Lts.run EchoNet.step (EchoNet.start h₀) bothRepliesFirst = some n ∧
      n.system.completions = [(0, some 0), (1, some 1)] ∧
      Lts.Along EchoNet.step OwnReplies (EchoNet.start h₀) bothRepliesFirst := by
  obtain ⟨h₀, n, hsetup, hrun, hvalues⟩ := exists_of_netFrom (by decide +kernel :
    (netFrom twoDevices bothRepliesFirst).map (fun r => (r.2.system.completions,
      decide (Lts.StepsMeet EchoNet.step Settled (EchoNet.start r.1) bothRepliesFirst)))
      = some ([(0, some 0), (1, some 1)], true))
  rw [Prod.mk.injEq] at hvalues
  exact ⟨h₀, n, hsetup, hrun, hvalues.1, own_replies_along twoDevices _ h₀ hsetup
    bothRepliesFirst (of_decide_eq_true hvalues.2)⟩

/-- The late reply completes the second ping, none of whose requests was answered. -/
theorem late_reply_completes_next :
    ∃ h₀ n, Handler.setup twoDevices (fun _ => .new) = .ok h₀ ∧
      Lts.run EchoNet.step (EchoNet.start h₀) oneReplyLate = some n ∧
      n.requests.map Prod.fst = [1, 1] ∧
      n.system.completions = [(0, some 0), (1, some 0)] ∧ ¬ OwnReplies n := by
  obtain ⟨h₀, n, hsetup, hrun, hvalues⟩ := exists_of_netFrom (by decide +kernel :
    (netFrom twoDevices oneReplyLate).map (fun r =>
      (r.2.requests.map Prod.fst, r.2.system.completions))
      = some ([1, 1], [(0, some 0), (1, some 0)]))
  rw [Prod.mk.injEq] at hvalues
  refine ⟨h₀, n, hsetup, hrun, hvalues.1, hvalues.2, fun hown => ?_⟩
  have hlast := hown (1, some 0) (by rw [hvalues.2]; simp)
  cases hlast

end Rucoonos.Net
