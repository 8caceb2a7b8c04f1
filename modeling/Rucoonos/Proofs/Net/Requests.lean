/-
Callers and the handler.

Any number of `get_mac` calls and of pings run beside the handler.  They post requests
into the handler's queue, between the frames the cards receive, and the handler takes
messages off it one by one.  An action of the system is one move of one party: a call is
made, polled or dropped, a frame arrives, or the handler processes its next message.

Some fields are there for the statements only.  A call remembers whether its request was
processed and what the first response since then said; a ping remembers the same of its
reply.  A letter that answers an echo request says which ping had it sent.

Both kinds of requests wait in a map that has one place for each address, so both are
instances of `Lib/Pending.lean`: `arpDesk` and `pingDesk` are what the desk sees of the
system.
-/
import Rucoonos.Lib.Pending
import Rucoonos.Net.Api
import Rucoonos.Proofs.Net.Exchange

namespace Rucoonos.Net

open Slice

/-! ### Positions in a list -/

theorem getElem?_concat_eq_some {A : Type} {l : List A} {x a : A} {j : Nat} :
    (l ++ [x])[j]? = some a ↔ l[j]? = some a ∨ (j = l.length ∧ x = a) := by
  by_cases hj : j < l.length
  · rw [List.getElem?_append_left hj]
    exact ⟨.inl, fun h => h.elim id fun h => absurd h.1 (Nat.ne_of_lt hj)⟩
  · rw [List.getElem?_append_right (by omega), List.getElem?_eq_none (show l.length ≤ j by omega)]
    by_cases hlast : j = l.length
    · subst hlast
      simp
    · rw [List.getElem?_eq_none (by simp; omega)]
      simp [hlast]

theorem getElem?_set_eq_some {A : Type} {l : List A} {x a : A} {i j : Nat} :
    (l.set i x)[j]? = some a ↔ (i = j ∧ j < l.length ∧ x = a) ∨ (j ≠ i ∧ l[j]? = some a) := by
  by_cases hij : i = j
  · subst hij
    by_cases hlt : i < l.length
    · simp [hlt]
    · simp [hlt]
  · rw [List.getElem?_set_ne hij]
    simp [hij, Ne.symm hij]

theorem getElem?_modify_eq_some {A : Type} {l : List A} {f : A → A} {i j : Nat} {a' : A} :
    (l.modify i f)[j]? = some a' ↔ ∃ a, l[j]? = some a ∧ (if i = j then f a else a) = a' := by
  rw [List.getElem?_modify]
  exact Option.map_eq_some_iff

/-! ### What a message says -/

/-- What the handler sees of a message, on the device it came in on. -/
def seenBy (h : Handler) : HandlerMessage → Option Seen
  | .packet raw => (h.devices.find? (fun d => d.id == raw.id)).bind fun device =>
      (inspect device.metadata.mac ⟨raw.buffer⟩).toOption
  | .action _ => none

/-- The sender of an ARP response. -/
def Seen.response : Seen → Option (Ip × Mac)
  | .arp packet => if packet.operation = .response then some (packet.srcIp, packet.srcMac) else none
  | _ => none

/-- The sender of an echo reply. -/
def Seen.echoSource : Seen → Option Ip
  | .icmp packet (.echoReply _ _) => packet.ipPacket.header.toOption.map (·.sourceIp)
  | _ => none

def response (h : Handler) (m : HandlerMessage) : Option (Ip × Mac) :=
  (seenBy h m).bind Seen.response

def echoSource (h : Handler) (m : HandlerMessage) : Option Ip := (seenBy h m).bind Seen.echoSource

/-! ### The system -/

/-- A call of `get_mac`; its queue has the number of the call. -/
structure Call where
  ip : Ip
  returned : Option (Option Mac)
  /-- The caller has dropped the future before it returned. -/
  cancelled : Bool
  /-- The handler has processed the request. -/
  requested : Bool
  /-- The sender of the first response from `ip` since then. -/
  owed : Option Mac
  deriving DecidableEq, Repr

/-- A ping; its flag has the number of the ping. -/
structure Ping where
  target : Ip
  future : PingFuture
  /-- The handler has processed the request, with this waker. -/
  requested : Option Nat
  /-- An echo reply from `target` was processed since then. -/
  replied : Bool
  deriving DecidableEq, Repr

/-- A message, with the ping whose echo request it answers. -/
structure Letter where
  message : HandlerMessage
  answers : Option Nat
  deriving DecidableEq, Repr

structure System where
  handler : Handler
  /-- `HANDLE_QUEUE`. -/
  mailbox : List Letter
  calls : List Call
  pings : List Ping
  /-- The pings whose flags were set, each with the ping that was answered by the letter
  being processed. -/
  completions : List (Nat × Option Nat)

inductive Action
  | getMac (ip : Ip)
  | pollMac (call : Nat)
  | cancelMac (call : Nat)
  | rawPing (ip : Ip) (mac : Mac)
  | pollPing (ping waker : Nat)
  | receive (raw : RawPacket) (answers : Option Nat)
  | handle
  deriving DecidableEq, Repr

def Call.new (ip : Ip) : Call := ⟨ip, none, false, false, none⟩

def Call.request (c : Call) : Call := { c with requested := true }

/-- A response goes by. -/
def Call.hear (ip : Ip) (mac : Mac) (c : Call) : Call :=
  if c.ip = ip ∧ c.requested = true ∧ c.owed = none then { c with owed := some mac } else c

/-- The future has posted its request. -/
def Ping.posted (p : Ping) : Ping :=
  { p with future := { p.future with mac := none, ip := none, send := true } }

def Ping.request (waker : Nat) (p : Ping) : Ping := { p with requested := some waker }

/-- An echo reply goes by. -/
def Ping.hear (ip : Ip) (p : Ping) : Ping :=
  if p.target = ip ∧ p.requested.isSome = true then { p with replied := true } else p

/-- What processing a message means for the calls. -/
def noteCalls (h : Handler) (m : HandlerMessage) (calls : List Call) : List Call :=
  match m with
  | .action (.sendArpRequest _ retQueue) => calls.modify retQueue Call.request
  | .action (.pingRequest ..) => calls
  | .packet raw =>
      match response h (.packet raw) with
      | some (ip, mac) => calls.map (Call.hear ip mac)
      | none => calls

/-- What it means for the pings. -/
def notePings (h : Handler) (m : HandlerMessage) (pings : List Ping) : List Ping :=
  match m with
  | .action (.sendArpRequest ..) => pings
  | .action (.pingRequest waker _ _ result) => pings.modify result (Ping.request waker)
  | .packet raw =>
      match echoSource h (.packet raw) with
      | some ip => pings.map (Ping.hear ip)
      | none => pings

/-- The flags, of the first `n`, that were set between two states. -/
def newlySet (h h' : Handler) (n : Nat) : List Nat :=
  (List.range n).filter fun i => !h.results i && h'.results i

def System.post (s : System) (message : HandlerMessage) (answers : Option Nat) : System :=
  { s with mailbox := s.mailbox ++ [⟨message, answers⟩] }

def System.setQueue (s : System) (i : Nat) (q : RetQueue) : System :=
  { s with handler := { s.handler with retQueues := Function.update s.handler.retQueues i q } }

/-- The handler has processed a message. -/
def System.handled (s : System) (letter : Letter) (rest : List Letter) (h' : Handler) : System where
  handler := h'
  mailbox := rest
  calls := noteCalls s.handler letter.message s.calls
  pings := notePings s.handler letter.message s.pings
  completions := s.completions ++
    (newlySet s.handler h' s.pings.length).map fun i => (i, letter.answers)

def System.step (s : System) : Action → Option System
  | .getMac ip =>
      let i := s.calls.length
      let s := { s with calls := s.calls ++ [Call.new ip] }
      some ((s.setQueue i .new).post (.action (getMacRequest ip i)) none)
  | .pollMac i =>
      match s.calls[i]? with
      | none => none
      | some call =>
          if call.returned = none ∧ call.cancelled = false then
            match getMacPoll (s.handler.retQueues i) with
            | none => some s
            | some (result, queue) =>
                let s := { s with calls := s.calls.set i { call with returned := some result } }
                some (s.setQueue i queue)
          else none
  | .cancelMac i =>
      match s.calls[i]? with
      | none => none
      | some call =>
          if call.returned = none ∧ call.cancelled = false then
            let s := { s with calls := s.calls.set i { call with cancelled := true } }
            some (s.setQueue i (s.handler.retQueues i).dropReceiver)
          else none
  | .rawPing ip mac =>
      some { s with pings := s.pings ++ [⟨ip, rawPing ip mac s.pings.length, none, false⟩] }
  | .pollPing i waker =>
      match s.pings[i]? with
      | none => none
      | some ping =>
          match ping.future.poll waker (s.handler.results ping.future.returned) with
          | .error _ => none
          | .ok (future, request, _) =>
              let s := { s with pings := s.pings.set i { ping with future } }
              some (match request with
                | none => s
                | some request => s.post (.action request) none)
  | .receive raw answers => some (s.post (.packet raw) answers)
  | .handle =>
      match s.mailbox with
      | [] => none
      | letter :: rest => (Net.step s.handler letter.message).map (s.handled letter rest)

/-- The system when the handler enters its loop. -/
def System.start (h : Handler) : System := ⟨h, [], [], [], []⟩

/-- Nobody is registered when the handler enters its loop. -/
theorem bindings_of_setup {devices : List NetworkDevice} {retQueues : Nat → RetQueue}
    {h : Handler} (hsetup : Handler.setup devices retQueues = .ok h) :
    (∀ ip, h.arp ip = none) ∧ (∀ ip, h.ping ip = none) ∧ (∀ i, h.results i = false) := by
  obtain ⟨devices', -, hsetup⟩ := bind_eq_ok.mp hsetup
  cases hsetup
  exact ⟨fun _ => rfl, fun _ => rfl, fun _ => rfl⟩

/-- A poll either posts the request, which it does once, or changes nothing. -/
theorem PingFuture.poll_cases {f f' : PingFuture} {waker : Nat} {flag ready : Bool}
    {request : Option ActionRequest} (hpoll : f.poll waker flag = .ok (f', request, ready)) :
    (f' = f ∧ request = none) ∨
      ∃ ip mac, f.send = false ∧ f.ip = some ip ∧
        f' = { f with mac := none, ip := none, send := true } ∧
        request = some (.pingRequest waker ip mac f.returned) := by
  unfold PingFuture.poll at hpoll
  split at hpoll
  · cases hpoll
    exact .inl ⟨rfl, rfl⟩
  · split at hpoll
    · rename_i hsend
      obtain ⟨mac, hmac, hpoll⟩ := bind_eq_ok.mp hpoll
      obtain ⟨ip, hip, hpoll⟩ := bind_eq_ok.mp hpoll
      cases hpoll
      exact .inr ⟨ip, mac, hsend, eq_of_unwrap hip, rfl, rfl⟩
    · cases hpoll
      exact .inl ⟨rfl, rfl⟩

/-- Everything an action can come to. -/
inductive Move (s : System) : Action → System → Prop
  | getMac {ip : Ip} : Move s (.getMac ip)
      (System.post (System.setQueue { s with calls := s.calls ++ [Call.new ip] } s.calls.length .new)
        (.action (.sendArpRequest ip s.calls.length)) none)
  | pending {i : Nat} {call : Call} (hcall : s.calls[i]? = some call)
      (hpoll : getMacPoll (s.handler.retQueues i) = none) : Move s (.pollMac i) s
  | returned {i : Nat} {call : Call} {result : Option Mac} {queue : RetQueue}
      (hcall : s.calls[i]? = some call) (hopen : call.returned = none ∧ call.cancelled = false)
      (hpoll : getMacPoll (s.handler.retQueues i) = some (result, queue)) :
      Move s (.pollMac i) (System.setQueue
        { s with calls := s.calls.set i { call with returned := some result } } i queue)
  | cancelled {i : Nat} {call : Call} (hcall : s.calls[i]? = some call)
      (hopen : call.returned = none ∧ call.cancelled = false) :
      Move s (.cancelMac i) (System.setQueue
        { s with calls := s.calls.set i { call with cancelled := true } } i
        (s.handler.retQueues i).dropReceiver)
  | rawPing {ip : Ip} {mac : Mac} : Move s (.rawPing ip mac)
      { s with pings := s.pings ++ [⟨ip, rawPing ip mac s.pings.length, none, false⟩] }
  | pingPolled {i waker : Nat} : Move s (.pollPing i waker) s
  | pingPosted {i waker : Nat} {ping : Ping} {ip : Ip} {mac : Mac}
      (hping : s.pings[i]? = some ping) (hsend : ping.future.send = false)
      (hip : ping.future.ip = some ip) :
      Move s (.pollPing i waker) (System.post
        { s with pings := s.pings.set i ping.posted }
        (.action (.pingRequest waker ip mac ping.future.returned)) none)
  | receive {raw : RawPacket} {answers : Option Nat} :
      Move s (.receive raw answers) (s.post (.packet raw) answers)
  | handled {letter : Letter} {rest : List Letter} {h' : Handler}
      (hmail : s.mailbox = letter :: rest) (hstep : Net.step s.handler letter.message = some h') :
      Move s .handle (s.handled letter rest h')

/-- **One move of one party.** -/
theorem step_move {s s' : System} {a : Action} (hstep : s.step a = some s') : Move s a s' := by
  cases a with
  | getMac ip =>
      cases hstep
      exact .getMac
  | pollMac i =>
      rw [System.step] at hstep
      split at hstep
      · cases hstep
      · rename_i call hcall
        split at hstep
        · rename_i hopen
          split at hstep
          · rename_i hpoll
            cases hstep
            exact .pending hcall hpoll
          · rename_i result queue hpoll
            cases hstep
            exact .returned hcall hopen hpoll
        · cases hstep
  | cancelMac i =>
      rw [System.step] at hstep
      split at hstep
      · cases hstep
      · rename_i call hcall
        split at hstep
        · rename_i hopen
          cases hstep
          exact .cancelled hcall hopen
        · cases hstep
  | rawPing ip mac =>
      cases hstep
      exact .rawPing
  | pollPing i waker =>
      rw [System.step] at hstep
      split at hstep
      · cases hstep
      · rename_i ping hping
        split at hstep
        · cases hstep
        · rename_i future request ready hpoll
          rcases PingFuture.poll_cases hpoll with ⟨rfl, rfl⟩ | ⟨ip, mac, hsend, hip, rfl, rfl⟩
          · have hsame : s.pings.set i ping = s.pings := by
              obtain ⟨hlt, rfl⟩ := List.getElem?_eq_some_iff.mp hping
              exact List.set_getElem_self hlt
            cases hstep
            rw [hsame]
            exact .pingPolled
          · cases hstep
            exact .pingPosted hping hsend hip
  | receive raw answers =>
      cases hstep
      exact .receive
  | handle =>
      rw [System.step] at hstep
      split at hstep
      · cases hstep
      · rename_i letter rest hmail
        obtain ⟨h', hh', rfl⟩ := Option.map_eq_some_iff.mp hstep
        exact .handled hmail hh'

/-! ### What the handler does to the maps -/

section Maps

variable {h h' : Handler}

theorem step_packet {raw : RawPacket} (hstep : Net.step h (.packet raw) = some h') :
    ∃ device seen, seenBy h (.packet raw) = some seen ∧ Reads ⟨raw.buffer⟩ seen ∧
      Effect device h seen h' := by
  obtain ⟨j, device, seen, hid, hj, hd, hseen, hact⟩ := handlePacket_found (handle_of_step hstep)
  refine ⟨device, seen, ?_, inspect_reads hseen, act_effect hseen hact⟩
  rw [seenBy, List.find?_eq_bind_findIdx?_getElem?, ← hid, hj, Option.bind_some, hd,
    Option.bind_some, hseen]
  rfl

/-- A packet answers the call registered for its sender if it is an ARP response, and does
nothing to the registered calls otherwise. -/
theorem packet_arp {raw : RawPacket} (hstep : Net.step h (.packet raw) = some h') :
    (response h (.packet raw) = none ∧ h'.arp = h.arp ∧ h'.retQueues = h.retQueues) ∨
    (∃ ip mac, response h (.packet raw) = some (ip, mac) ∧ h.arp ip = none ∧
      h'.arp = h.arp ∧ h'.retQueues = h.retQueues) ∨
    (∃ ip mac listeners queue, response h (.packet raw) = some (ip, mac) ∧
      h.arp ip = some listeners ∧ (h.retQueues listeners).tryEnqueue mac = some queue ∧
      h'.arp = Function.update h.arp ip none ∧
      h'.retQueues = Function.update h.retQueues listeners queue.dropSender) := by
  obtain ⟨device, seen, hseen, -, heffect⟩ := step_packet hstep
  have hresponse : response h (.packet raw) = seen.response := by
    rw [response, hseen, Option.bind_some]
  rw [hresponse]
  cases heffect with
  | arpIgnored hop => exact .inl ⟨if_neg hop, rfl, rfl⟩
  | arpReplied hop hreply => exact .inl ⟨if_neg hop, rfl, rfl⟩
  | arpHeard hop hnone => exact .inr (.inl ⟨_, _, if_pos hop, hnone, rfl, rfl⟩)
  | arpAnswered hop hsome hqueue =>
      exact .inr (.inr ⟨_, _, _, _, if_pos hop, hsome, hqueue, rfl, rfl⟩)
  | dhcp hdhcp hrun =>
      have hsame := handleDhcp_bindings hrun
      exact .inl ⟨rfl, hsame.arp, hsame.retQueues⟩
  | _ => exact .inl ⟨rfl, rfl, rfl⟩

theorem Seen.response_eq_some {seen : Seen} {ip : Ip} {mac : Mac}
    (hresponse : seen.response = some (ip, mac)) : ∃ packet, seen = .arp packet ∧
      packet.operation = .response ∧ packet.srcIp = ip ∧ packet.srcMac = mac := by
  cases seen with
  | arp packet =>
      rw [Seen.response] at hresponse
      split at hresponse
      · rename_i hop
        cases hresponse
        exact ⟨packet, rfl, hop, rfl, rfl⟩
      · cases hresponse
  | _ => cases hresponse

/-- A message that could be read is acted on, on the device it came in on. -/
theorem handle_of_seenBy {m : HandlerMessage} {seen : Seen} (hseen : seenBy h m = some seen) :
    ∃ device, handle h m = act device h seen := by
  cases m with
  | action request => cases hseen
  | packet raw =>
      obtain ⟨device, hfound, hinspect⟩ := Option.bind_eq_some_iff.mp hseen
      refine ⟨device, ?_⟩
      rw [handle, handlePacket, hfound]
      show handleFrame device ⟨raw.buffer⟩ h = _
      rw [handleFrame_eq, eq_ok_of_toOption hinspect]
      rfl

theorem handleArp_response {device : NetworkDevice} {packet : Arp.Packet}
    (hop : packet.operation = .response) : (∃ h', handleArp device packet h = .ok h') ↔
      ∀ i, h.arp packet.srcIp = some i →
        ((h.retQueues i).tryEnqueue packet.srcMac).isSome = true := by
  rw [handleArp, hop]
  simp only
  cases h.arp packet.srcIp with
  | none =>
      constructor
      · intro _ i hi
        cases hi
      · intro _
        exact ⟨_, rfl⟩
  | some listeners =>
      simp only [Option.some.injEq, forall_eq']
      cases (h.retQueues listeners).tryEnqueue packet.srcMac with
      | none =>
          constructor
          · rintro ⟨h', hok⟩
            cases hok
          · intro hnone
            cases hnone
      | some queue =>
          constructor
          · intro _
            rfl
          · intro _
            exact ⟨_, rfl⟩

/-- An ARP response that could be read is handled unless the send to the call registered
for its sender fails. -/
theorem handle_response {m : HandlerMessage} {ip : Ip} {mac : Mac}
    (hresponse : response h m = some (ip, mac)) :
    (∃ h', handle h m = .ok h') ↔
      ∀ i, h.arp ip = some i → ((h.retQueues i).tryEnqueue mac).isSome = true := by
  obtain ⟨seen, hseen, hresponse⟩ := Option.bind_eq_some_iff.mp hresponse
  obtain ⟨packet, rfl, hop, rfl, rfl⟩ := Seen.response_eq_some hresponse
  obtain ⟨device, hhandle⟩ := handle_of_seenBy hseen
  rw [hhandle, act]
  exact handleArp_response hop

/-- A packet completes the ping registered for its sender if it is an echo reply, and does
nothing to the registered pings otherwise. -/
theorem packet_ping {raw : RawPacket} (hstep : Net.step h (.packet raw) = some h') :
    (echoSource h (.packet raw) = none ∧ h'.ping = h.ping ∧ h'.results = h.results ∧
      h'.woken = h.woken) ∨
    (∃ ip, echoSource h (.packet raw) = some ip ∧ h.ping ip = none ∧ h'.ping = h.ping ∧
      h'.results = h.results ∧ h'.woken = h.woken) ∨
    (∃ ip waker result, echoSource h (.packet raw) = some ip ∧
      h.ping ip = some (waker, result) ∧ h'.ping = Function.update h.ping ip none ∧
      h'.results = Function.update h.results result true ∧ h'.woken = h.woken ++ [waker]) := by
  obtain ⟨device, seen, hseen, -, heffect⟩ := step_packet hstep
  have hsource : echoSource h (.packet raw) = seen.echoSource := by
    rw [echoSource, hseen, Option.bind_some]
  rw [hsource]
  cases heffect with
  | replyUnclaimed hheader hnone =>
      refine .inr (.inl ⟨_, ?_, hnone, rfl, rfl, rfl⟩)
      rw [Seen.echoSource, hheader]
      rfl
  | replyTaken hheader hsome =>
      refine .inr (.inr ⟨_, _, _, ?_, hsome, rfl, rfl, rfl⟩)
      rw [Seen.echoSource, hheader]
      rfl
  | dhcp hdhcp hrun =>
      have hsame := handleDhcp_bindings hrun
      exact .inl ⟨rfl, hsame.ping, hsame.results, hsame.woken⟩
  | _ => exact .inl ⟨rfl, rfl, rfl, rfl⟩

/-- The queues when a request for `ip` takes the place of an earlier one. -/
def dropOld (h : Handler) (ip : Ip) : Nat → RetQueue :=
  match h.arp ip with
  | none => h.retQueues
  | some old => Function.update h.retQueues old (h.retQueues old).dropSender

theorem dropOld_self {ip : Ip} {i : Nat} (hi : h.arp ip = some i) :
    dropOld h ip i = (h.retQueues i).dropSender := by
  simp only [dropOld, hi, Function.update_self]

theorem dropOld_of_ne {ip : Ip} {i : Nat} (hi : h.arp ip ≠ some i) :
    dropOld h ip i = h.retQueues i := by
  cases hold : h.arp ip with
  | none => simp only [dropOld, hold]
  | some old =>
      have hne : i ≠ old := by
        rintro rfl
        exact hi hold
      simp only [dropOld, hold, Function.update_of_ne hne]

/-- The half that a request does not touch. -/
theorem dropOld_receiver (h : Handler) (ip : Ip) (i : Nat) :
    (dropOld h ip i).capacity = (h.retQueues i).capacity ∧
      (dropOld h ip i).items = (h.retQueues i).items ∧
      (dropOld h ip i).receiverAlive = (h.retQueues i).receiverAlive := by
  by_cases hi : h.arp ip = some i
  · rw [dropOld_self hi]
    exact ⟨rfl, rfl, rfl⟩
  · rw [dropOld_of_ne hi]
    exact ⟨rfl, rfl, rfl⟩

theorem step_sendArpRequest {ip : Ip} {retQueue : Nat}
    (hstep : Net.step h (.action (.sendArpRequest ip retQueue)) = some h') :
    ∃ devices, h' = { h with
      devices
      retQueues := dropOld h ip
      arp := Function.update h.arp ip (some retQueue) } := by
  obtain ⟨devices, -, hrun⟩ := bind_eq_ok.mp (handle_of_step hstep)
  cases hrun
  exact ⟨devices, rfl⟩

theorem step_pingRequest {waker result : Nat} {ip : Ip} {mac : Mac}
    (hstep : Net.step h (.action (.pingRequest waker ip mac result)) = some h') :
    ∃ devices, enqueueAll (echoRequest ip mac) h.devices = .ok devices ∧
      h' = { h with devices, ping := Function.update h.ping ip (some (waker, result)) } := by
  obtain ⟨devices, hdevices, hrun⟩ := bind_eq_ok.mp (handle_of_step hstep)
  cases hrun
  exact ⟨devices, hdevices, rfl⟩

end Maps

end Rucoonos.Net
