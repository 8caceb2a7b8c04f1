/-
Callers of `get_mac` and the responses they wait for.

The handler keeps the sending half of a call's queue under the address the call asked
about, one call for each address.  `Queues` says what is known of the queues in every
run: the half in a letter or in the map has not been used, and the other half is there
unless the call has returned or its caller dropped it.  That makes the send in the
response arm fail exactly for a dropped call (`response_handled_iff`).

Whether every call is answered is a matter of the map.  `no_waiter_lost_along` says that
it is so in a run exactly when the handler takes no request for an address that an
earlier call still waits for; such a request drops the earlier call's sender, and the
call returns without an answer.
-/
import Rucoonos.Proofs.Net.Requests

namespace Rucoonos.Net

open Pending

/-! ### The desk of the calls -/

def arpLetter : Letter → Option (Ip × Nat)
  | ⟨.action (.sendArpRequest ip retQueue), _⟩ => some (ip, retQueue)
  | _ => none

def Call.client (c : Call) : Client Ip := ⟨c.ip, c.requested, c.owed.isSome, !c.cancelled⟩

def Call.view (c : Call) : Option (Client Ip) := some c.client

def System.arpDesk (s : System) : Desk Ip Nat where
  letters := s.mailbox.filterMap arpLetter
  slot := s.handler.arp
  clients := clientsOf Call.view s.calls

/-- What an action is to the desk. -/
def arpOp (s : System) : Action → Option (Op Ip Nat)
  | .getMac ip => some (.post ip s.calls.length)
  | .cancelMac i => some (.cancel i)
  | .handle =>
      match s.mailbox with
      | ⟨.action (.sendArpRequest _ _), _⟩ :: _ => some .take
      | ⟨.packet raw, _⟩ :: _ => (response s.handler (.packet raw)).map fun r => .answer r.1
      | _ => none
  | _ => none

theorem Call.client_hear (ip : Ip) (mac : Mac) (c : Call) :
    (c.hear ip mac).client = c.client.hear ip := by
  by_cases hask : c.client.key = ip ∧ c.client.asked = true
  · rw [Client.hear, if_pos hask]
    by_cases howed : c.owed = none
    · rw [Call.hear, if_pos ⟨hask.1, hask.2, howed⟩]
      rfl
    · rw [Call.hear, if_neg (fun hc => howed hc.2.2)]
      obtain ⟨mac', hmac⟩ := Option.ne_none_iff_exists'.mp howed
      rw [Call.client, hmac]
      rfl
  · rw [Client.hear_of_not hask, Call.hear, if_neg (fun hc => hask ⟨hc.1, hc.2.1⟩)]

/-- A response changes what a call is owed, and nothing else. -/
theorem Call.hear_same (ip : Ip) (mac : Mac) (c : Call) :
    (c.hear ip mac).ip = c.ip ∧ (c.hear ip mac).returned = c.returned ∧
      (c.hear ip mac).cancelled = c.cancelled ∧ (c.hear ip mac).requested = c.requested := by
  unfold Call.hear
  split
  · exact ⟨rfl, rfl, rfl, rfl⟩
  · exact ⟨rfl, rfl, rfl, rfl⟩

theorem Call.owed_of_hear {ip : Ip} {mac m : Mac} {c : Call} (h : (c.hear ip mac).owed = some m) :
    c.owed = some m ∨ (c.owed = none ∧ c.ip = ip ∧ c.requested = true ∧ m = mac) := by
  unfold Call.hear at h
  split at h
  · rename_i hwaits
    exact .inr ⟨hwaits.2.2, hwaits.1, hwaits.2.1, (Option.some.inj h).symm⟩
  · exact .inl h

theorem Call.view_hear (ip : Ip) (mac : Mac) (c : Call) :
    (c.hear ip mac).view = c.view.map (Client.hear ip) :=
  congrArg some (c.client_hear ip mac)

theorem Call.view_request (c : Call) : c.request.view = c.view.map Client.ask := rfl

section Desk

variable {s s' : System} {a : Action}

theorem client_of_getElem? {i : Nat} {c : Call} (hc : s.calls[i]? = some c) :
    s.arpDesk.clients i = some c.client := by
  show s.calls[i]?.bind _ = _
  rw [hc]
  rfl

theorem getElem?_of_client {i : Nat} {client : Client Ip}
    (h : s.arpDesk.clients i = some client) : ∃ c, s.calls[i]? = some c ∧ c.client = client := by
  obtain ⟨c, hc, hclient⟩ := Option.bind_eq_some_iff.mp h
  exact ⟨c, hc, Option.some.inj hclient⟩

/-- A call keeps its client when neither its history nor its caller is concerned. -/
theorem clientsOf_set_same {calls : List Call} {i : Nat} {c c' : Call}
    (hc : calls[i]? = some c) (hsame : c'.client = c.client) :
    clientsOf Call.view (calls.set i c') = clientsOf Call.view calls := by
  rw [clientsOf_set hc, Call.view, hsame]
  refine Function.update_eq_self_iff.mpr ?_
  rw [clientsOf, hc]
  rfl

/-- The desk does not see a letter that is no request of a call. -/
theorem arpDesk_post {message : HandlerMessage} {answers : Option Nat}
    (hother : arpLetter ⟨message, answers⟩ = none) :
    (s.post message answers).arpDesk = s.arpDesk := by
  simp only [System.arpDesk, System.post, List.filterMap_append]
  rw [List.filterMap_cons_none hother, List.filterMap_nil, List.append_nil]

/-- The desk sees a packet as an answer if it is an ARP response, and not at all otherwise. -/
theorem arpDesk_packet {raw : RawPacket} {answers : Option Nat} {rest : List Letter}
    {h' : Handler} (hmail : s.mailbox = ⟨.packet raw, answers⟩ :: rest)
    (hstep : Net.step s.handler (.packet raw) = some h') :
    s.arpDesk.move ((response s.handler (.packet raw)).map fun r => .answer r.1)
      = some (s.handled ⟨.packet raw, answers⟩ rest h').arpDesk := by
  have hletters : s.mailbox.filterMap arpLetter = rest.filterMap arpLetter := by rw [hmail]; rfl
  have hclients : ∀ ip mac, clientsOf Call.view (s.calls.map (Call.hear ip mac))
      = fun i => (clientsOf Call.view s.calls i).map (Client.hear ip) :=
    fun ip mac => clientsOf_map (Call.view_hear ip mac) s.calls
  rcases packet_arp hstep with ⟨hresponse, harp, -⟩ | ⟨ip, mac, hresponse, hnone, harp, -⟩ |
    ⟨ip, mac, listeners, queue, hresponse, -, -, harp, -⟩
  · rw [hresponse]
    show some s.arpDesk = _
    simp only [System.arpDesk, System.handled, noteCalls, hresponse, harp, hletters]
  · rw [hresponse]
    show s.arpDesk.step (.answer ip) = _
    have hslot : Function.update s.handler.arp ip none = s.handler.arp :=
      Function.update_eq_self_iff.mpr hnone.symm
    simp only [System.arpDesk, System.handled, noteCalls, hresponse, harp, hletters, Desk.step,
      hclients, hslot]
  · rw [hresponse]
    show s.arpDesk.step (.answer ip) = _
    simp only [System.arpDesk, System.handled, noteCalls, hresponse, harp, hletters, Desk.step,
      hclients]

/-- **The desk of the calls follows the system.** -/
theorem arpDesk_step (hstep : s.step a = some s') : s.arpDesk.move (arpOp s a) = some s'.arpDesk := by
  cases step_move hstep with
  | getMac =>
      rename_i ip
      have hnew : s.arpDesk.clients s.calls.length = none := clientsOf_length Call.view s.calls
      show s.arpDesk.step (.post ip s.calls.length) = _
      simp only [Desk.step, hnew]
      simp only [System.arpDesk, System.post, System.setQueue, clientsOf_append,
        List.filterMap_append]
      rfl
  | pending hcall hpoll => rfl
  | returned hcall hopen hpoll =>
      rename_i i call result queue
      have hclients : clientsOf Call.view (s.calls.set i { call with returned := some result })
          = clientsOf Call.view s.calls := clientsOf_set_same hcall rfl
      show some s.arpDesk = _
      simp only [System.arpDesk, System.setQueue, hclients]
  | cancelled hcall hopen =>
      rename_i i call
      show s.arpDesk.step (.cancel i) = _
      have hclient := client_of_getElem? hcall
      simp only [Desk.step, hclient]
      simp only [System.arpDesk, System.setQueue, clientsOf_set hcall]
      rfl
  | rawPing => rfl
  | pingPolled => rfl
  | pingPosted hping hsend hip =>
      rw [arpDesk_post rfl]
      rfl
  | receive =>
      rw [arpDesk_post rfl]
      rfl
  | handled hmail hh' =>
      rename_i letter rest h'
      obtain ⟨message, answers⟩ := letter
      cases message with
      | packet raw =>
          unfold arpOp
          rw [hmail]
          exact arpDesk_packet hmail hh'
      | action request =>
          cases request with
          | sendArpRequest ip retQueue =>
              obtain ⟨devices, rfl⟩ := step_sendArpRequest hh'
              unfold arpOp
              rw [hmail]
              have hletters : s.arpDesk.letters = (ip, retQueue) :: rest.filterMap arpLetter := by
                show s.mailbox.filterMap arpLetter = _
                rw [hmail]
                rfl
              show s.arpDesk.step .take = _
              simp only [Desk.step, hletters]
              simp only [System.arpDesk, System.handled, noteCalls]
              rw [clientsOf_modify Call.view_request]
          | pingRequest waker ip mac result =>
              obtain ⟨devices, -, rfl⟩ := step_pingRequest hh'
              unfold arpOp
              rw [hmail]
              show some s.arpDesk = _
              simp only [System.arpDesk, System.handled, noteCalls, hmail]
              rfl

end Desk

/-! ### The queues -/

/-- What is known of a call's queue.  `held` says that its sender is still in a letter or in
the map. -/
structure QueueOK (q : RetQueue) (c : Call) (held : Prop) : Prop where
  capacity : q.capacity = 2
  receiver : q.receiverAlive = true ↔ c.returned = none ∧ c.cancelled = false
  unused : held → q.items = [] ∧ q.senderAlive = true ∧ c.returned = none

def System.held (s : System) (i : Nat) (c : Call) : Prop :=
  c.requested = false ∨ s.handler.arp c.ip = some i

def Queues (s : System) : Prop :=
  ∀ i c, s.calls[i]? = some c → QueueOK (s.handler.retQueues i) c (s.held i c)

/-- An unused queue has nothing for its call yet. -/
theorem QueueOK.pollDequeue {q : RetQueue} {c : Call} {held : Prop} (h : QueueOK q c held)
    (hheld : held) : getMacPoll q = none := by
  obtain ⟨hitems, hsender, -⟩ := h.unused hheld
  rw [getMacPoll, RetQueue.pollDequeue, hitems]
  simp only [hsender, if_true, Option.map_none]

/-- The queue of another call, or of one whose sender is no longer held. -/
theorem QueueOK.change {q q' : RetQueue} {c c' : Call} {held held' : Prop} (h : QueueOK q c held)
    (hcapacity : q'.capacity = q.capacity) (hreceiver : q'.receiverAlive = q.receiverAlive)
    (hreturned : c'.returned = c.returned) (hcancelled : c'.cancelled = c.cancelled)
    (hheld : held' → held ∧ q' = q) : QueueOK q' c' held' := by
  refine ⟨hcapacity.trans h.capacity, ?_, ?_⟩
  · rw [hreceiver, hreturned, hcancelled]
    exact h.receiver
  · intro hh
    obtain ⟨hh, rfl⟩ := hheld hh
    rw [hreturned]
    exact h.unused hh

theorem tryEnqueue_eq_some {q q' : RetQueue} {mac : Mac} : q.tryEnqueue mac = some q' ↔
    (q.receiverAlive = true ∧ q.items.length < q.capacity) ∧
      q' = { q with items := q.items ++ [mac] } := by
  unfold RetQueue.tryEnqueue
  split
  · rename_i h
    simp only [Option.some.injEq, h, true_and, and_self]
    exact eq_comm
  · rename_i h
    simp only [reduceCtorEq, h, false_and]

/-- A call returns the first address in its queue, or nothing if there is none to come. -/
theorem getMacPoll_eq_some {q q' : RetQueue} {result : Option Mac}
    (h : getMacPoll q = some (result, q')) :
    q'.capacity = q.capacity ∧ q'.receiverAlive = false ∧ result = q.items.head? ∧
      q'.items = q.items.tail := by
  obtain ⟨⟨result', q''⟩, hdequeue, hq⟩ := Option.map_eq_some_iff.mp h
  cases hq
  unfold RetQueue.pollDequeue at hdequeue
  split at hdequeue
  · rename_i hitems
    cases hdequeue
    rw [hitems]
    exact ⟨rfl, rfl, rfl, rfl⟩
  · rename_i hitems
    split at hdequeue
    · cases hdequeue
    · cases hdequeue
      rw [hitems]
      exact ⟨rfl, rfl, rfl, hitems⟩

section Queues

variable {s s' : System} {a : Action}

/-- The call in the place of an address. -/
theorem registered_of_slot (hs : Sound s.arpDesk) {ip : Ip} {i : Nat}
    (hslot : s.handler.arp ip = some i) :
    ∃ c, s.calls[i]? = some c ∧ c.ip = ip ∧ c.requested = true ∧ c.owed = none := by
  obtain ⟨client, hclient, hkey, hasked, hanswered⟩ := hs.slot ip i hslot
  obtain ⟨c, hc, rfl⟩ := getElem?_of_client hclient
  refine ⟨c, hc, hkey, hasked, ?_⟩
  simpa using (show c.owed.isSome = false from hanswered)

/-- The call of a letter. -/
theorem posted_of_letter (hs : Sound s.arpDesk) {ip : Ip} {i : Nat} {answers : Option Nat}
    {rest : List Letter} (hmail : s.mailbox = ⟨.action (.sendArpRequest ip i), answers⟩ :: rest) :
    ∃ c, s.calls[i]? = some c ∧ c.ip = ip ∧ c.requested = false := by
  have hmem : (ip, i) ∈ s.arpDesk.letters := by
    show (ip, i) ∈ s.mailbox.filterMap arpLetter
    rw [hmail]
    exact List.mem_cons_self
  obtain ⟨client, hclient, hkey, hasked⟩ := hs.letters ip i hmem
  obtain ⟨c, hc, rfl⟩ := getElem?_of_client hclient
  exact ⟨c, hc, hkey, hasked⟩

/-- Two places never hold the same call. -/
theorem eq_of_slot (hs : Sound s.arpDesk) {ip ip' : Ip} {i : Nat}
    (h : s.handler.arp ip = some i) (h' : s.handler.arp ip' = some i) : ip = ip' := by
  obtain ⟨c, hc, rfl, -⟩ := registered_of_slot hs h
  obtain ⟨c', hc', rfl, -⟩ := registered_of_slot hs h'
  rw [hc, Option.some.injEq] at hc'
  rw [hc']

/-- A call whose request is still a letter has no place yet. -/
theorem ne_slot_of_new (hs : Sound s.arpDesk) {i : Nat} {c : Call} (hc : s.calls[i]? = some c)
    (hnew : c.requested = false) (ip : Ip) : s.handler.arp ip ≠ some i := by
  intro hslot
  obtain ⟨c', hc', -, hasked, -⟩ := registered_of_slot hs hslot
  rw [hc, Option.some.injEq] at hc'
  rw [← hc', hnew] at hasked
  cases hasked

/-- A packet that is no response leaves the calls alone. -/
theorem calls_handled {raw : RawPacket} {answers : Option Nat} {rest : List Letter} {h' : Handler}
    (hresponse : response s.handler (.packet raw) = none) :
    (s.handled ⟨.packet raw, answers⟩ rest h').calls = s.calls := by
  simp only [System.handled, noteCalls, hresponse]

/-- A response goes by every call. -/
theorem getElem?_calls_handled {raw : RawPacket} {answers : Option Nat} {rest : List Letter}
    {h' : Handler} {ip : Ip} {mac : Mac} {j : Nat} {c' : Call}
    (hresponse : response s.handler (.packet raw) = some (ip, mac))
    (hc' : (s.handled ⟨.packet raw, answers⟩ rest h').calls[j]? = some c') :
    ∃ c, s.calls[j]? = some c ∧ c.hear ip mac = c' := by
  simp only [System.handled, noteCalls, hresponse, List.getElem?_map] at hc'
  exact Option.map_eq_some_iff.mp hc'

theorem held_handled {letter : Letter} {rest : List Letter} {h' : Handler} {j : Nat} {c : Call} :
    (s.handled letter rest h').held j c ↔ c.requested = false ∨ h'.arp c.ip = some j := Iff.rfl

/-- Processing a request uses the queue of the call it puts out of its place, if any, and
leaves that call without a sender. -/
theorem Queues.sendArpRequest (hs : Sound s.arpDesk) (hq : Queues s) {ip : Ip} {i : Nat}
    {answers : Option Nat} {rest : List Letter} {h' : Handler}
    (hmail : s.mailbox = ⟨.action (.sendArpRequest ip i), answers⟩ :: rest)
    (hstep : Net.step s.handler (.action (.sendArpRequest ip i)) = some h') :
    Queues (s.handled ⟨.action (.sendArpRequest ip i), answers⟩ rest h') := by
  obtain ⟨devices, rfl⟩ := step_sendArpRequest hstep
  obtain ⟨posted, hposted, hpostedIp, hpostedNew⟩ := posted_of_letter hs hmail
  intro j c' hc'
  obtain ⟨c, hc, rfl⟩ := getElem?_modify_eq_some.mp hc'
  obtain ⟨hcapacity, -, hreceiver⟩ := dropOld_receiver s.handler ip j
  refine (hq j c hc).change hcapacity hreceiver ?_ ?_ ?_
  · split
    · rfl
    · rfl
  · split
    · rfl
    · rfl
  · intro hheld
    suffices h : s.held j c ∧ s.handler.arp ip ≠ some j from ⟨h.1, dropOld_of_ne h.2⟩
    by_cases hij : i = j
    · subst hij
      rw [hc, Option.some.injEq] at hposted
      subst hposted
      exact ⟨.inl hpostedNew, ne_slot_of_new hs hc hpostedNew ip⟩
    · rw [if_neg hij] at hheld
      rcases hheld with hnew | hslot
      · exact ⟨.inl hnew, ne_slot_of_new hs hc hnew ip⟩
      · have hslot : Function.update s.handler.arp ip (some i) c.ip = some j := hslot
        by_cases hip : c.ip = ip
        · rw [hip, Function.update_self, Option.some.injEq] at hslot
          exact absurd hslot hij
        · rw [Function.update_of_ne hip] at hslot
          exact ⟨.inr hslot, fun hc => hip (eq_of_slot hs hslot hc)⟩

/-- A packet uses the queue of the call that it answers, and no other. -/
theorem Queues.packet (hs : Sound s.arpDesk) (hq : Queues s) {raw : RawPacket}
    {answers : Option Nat} {rest : List Letter} {h' : Handler}
    (hstep : Net.step s.handler (.packet raw) = some h') :
    Queues (s.handled ⟨.packet raw, answers⟩ rest h') := by
  intro j c' hc'
  rcases packet_arp hstep with ⟨hresponse, harp, hqueues⟩ |
    ⟨ip, mac, hresponse, -, harp, hqueues⟩ |
    ⟨ip, mac, listeners, queue, hresponse, hslot, hqueue, harp, hqueues⟩
  · rw [calls_handled hresponse] at hc'
    refine (hq j c' hc').change (by rw [← hqueues]; rfl) (by rw [← hqueues]; rfl) rfl rfl ?_
    intro hheld
    rw [held_handled, harp] at hheld
    exact ⟨hheld, congrFun hqueues j⟩
  · obtain ⟨c, hc, rfl⟩ := getElem?_calls_handled hresponse hc'
    obtain ⟨hip, hreturned, hcancelled, hrequested⟩ := c.hear_same ip mac
    refine (hq j c hc).change (by rw [← hqueues]; rfl) (by rw [← hqueues]; rfl) hreturned
      hcancelled ?_
    intro hheld
    rw [held_handled, harp, hip, hrequested] at hheld
    exact ⟨hheld, congrFun hqueues j⟩
  · obtain ⟨c, hc, rfl⟩ := getElem?_calls_handled hresponse hc'
    obtain ⟨hip, hreturned, hcancelled, hrequested⟩ := c.hear_same ip mac
    obtain ⟨-, rfl⟩ := tryEnqueue_eq_some.mp hqueue
    show QueueOK (h'.retQueues j) _ _
    rw [hqueues]
    by_cases hj : j = listeners
    · subst hj
      rw [Function.update_self]
      refine (hq j c hc).change rfl rfl hreturned hcancelled ?_
      -- The sender was in the place that the response empties.
      intro hheld
      obtain ⟨c₀, hc₀, hip₀, hasked, -⟩ := registered_of_slot hs hslot
      rw [hc, Option.some.injEq] at hc₀
      subst hc₀
      rw [held_handled, harp, hip, hrequested, hip₀, Function.update_self, hasked] at hheld
      simp at hheld
    · rw [Function.update_of_ne hj]
      refine (hq j c hc).change rfl rfl hreturned hcancelled ?_
      intro hheld
      rw [held_handled, harp, hip, hrequested] at hheld
      refine ⟨hheld.imp id fun hslot' => ?_, rfl⟩
      by_cases hip' : c.ip = ip
      · rw [hip', Function.update_self] at hslot'
        cases hslot'
      · rwa [Function.update_of_ne hip'] at hslot'

/-- A move that concerns the queue and the record of one call. -/
theorem Queues.set (hq : Queues s) {i : Nat} {c' : Call} {q : RetQueue}
    (hok : QueueOK q c' (s.held i c')) :
    Queues (System.setQueue { s with calls := s.calls.set i c' } i q) := by
  intro j d hd
  show QueueOK (Function.update s.handler.retQueues i q j) _ _
  rcases getElem?_set_eq_some.mp hd with ⟨rfl, -, rfl⟩ | ⟨hj, hd⟩
  · rw [Function.update_self]
    exact hok
  · rw [Function.update_of_ne hj]
    exact hq j d hd

theorem Queues.step (hs : Sound s.arpDesk) (hq : Queues s) (hstep : s.step a = some s') :
    Queues s' := by
  cases step_move hstep with
  | getMac =>
      rename_i ip
      intro j c hc
      show QueueOK (Function.update s.handler.retQueues s.calls.length .new j) _ _
      rcases getElem?_concat_eq_some.mp hc with hc | ⟨rfl, rfl⟩
      · have hj : j ≠ s.calls.length := Nat.ne_of_lt (List.getElem?_eq_some_iff.mp hc).1
        rw [Function.update_of_ne hj]
        exact hq j c hc
      · rw [Function.update_self]
        exact ⟨rfl, ⟨fun _ => ⟨rfl, rfl⟩, fun _ => rfl⟩, fun _ => ⟨rfl, rfl, rfl⟩⟩
  | pending hcall hpoll => exact hq
  | returned hcall hopen hpoll =>
      rename_i i call result queue
      have hold := hq i call hcall
      obtain ⟨hcapacity, hreceiver, -⟩ := getMacPoll_eq_some hpoll
      refine hq.set ⟨hcapacity.trans hold.capacity, ?_, ?_⟩
      · simp [hreceiver]
      · intro hheld
        rw [hold.pollDequeue hheld] at hpoll
        cases hpoll
  | cancelled hcall hopen =>
      have hold := hq _ _ hcall
      refine hq.set ⟨hold.capacity, ?_, hold.unused⟩
      simp [RetQueue.dropReceiver]
  | rawPing => exact hq
  | pingPolled => exact hq
  | pingPosted hping hsend hip => exact hq
  | receive => exact hq
  | handled hmail hh' =>
      rename_i letter rest h'
      obtain ⟨message, answers⟩ := letter
      cases message with
      | packet raw => exact Queues.packet hs hq hh'
      | action request =>
          cases request with
          | sendArpRequest ip retQueue => exact Queues.sendArpRequest hs hq hmail hh'
          | pingRequest waker ip mac result =>
              obtain ⟨devices, -, rfl⟩ := step_pingRequest hh'
              exact hq

end Queues

/-! ### Nobody is forgotten -/

/-- What a call has returned, or returns when it is polled next. -/
def System.outcome (s : System) (i : Nat) (c : Call) : Option (Option Mac) :=
  match c.returned with
  | some result => some result
  | none => (getMacPoll (s.handler.retQueues i)).map Prod.fst

/-- Every call that was not dropped has what it is owed: the address of the first response
since its request was processed, and nothing before that. -/
def NoWaiterLost (s : System) : Prop :=
  ∀ i c, s.calls[i]? = some c → c.cancelled = false → s.outcome i c = c.owed.map some

/-- The handler takes no request for an address that an earlier call still waits for. -/
def Unrivalled (s : System) : Action → Prop
  | .handle =>
      match s.mailbox with
      | ⟨.action (.sendArpRequest ip _), _⟩ :: _ =>
          ∀ c ∈ s.calls, c.ip = ip → c.requested = true → c.owed = none → c.cancelled = true
      | _ => True
  | _ => True

instance (s : System) (a : Action) : Decidable (Unrivalled s a) := by
  unfold Unrivalled
  split
  · split
    · infer_instance
    · infer_instance
  · infer_instance

/-- What a call was answered is in its queue until it is polled. -/
def Answered (s : System) : Prop :=
  ∀ i c mac, s.calls[i]? = some c → c.cancelled = false → c.owed = some mac →
    c.returned = some (some mac) ∨
      c.returned = none ∧ (s.handler.retQueues i).items = [mac]

structure Kept (s : System) : Prop where
  sound : Sound s.arpDesk
  queues : Queues s
  complete : Complete s.arpDesk
  answered : Answered s

section Kept

variable {s s' : System} {a : Action}

theorem Kept.waiting (hk : Kept s) {i : Nat} {c : Call} (hc : s.calls[i]? = some c)
    (hlive : c.cancelled = false) (hasked : c.requested = true) (howed : c.owed = none) :
    s.handler.arp c.ip = some i := by
  refine hk.complete i c.client (client_of_getElem? hc) ⟨?_, hasked, ?_⟩
  · show (!c.cancelled) = true
    rw [hlive]
    rfl
  · show c.owed.isSome = false
    rw [howed]
    rfl

theorem Kept.noWaiterLost (hk : Kept s) : NoWaiterLost s := by
  intro i c hc hlive
  rw [System.outcome]
  cases howed : c.owed with
  | none =>
      have hheld : s.held i c := by
        by_cases hasked : c.requested = true
        · exact .inr (hk.waiting hc hlive hasked howed)
        · exact .inl (Bool.not_eq_true _ ▸ hasked)
      have hq := hk.queues i c hc
      rw [(hq.unused hheld).2.2, hq.pollDequeue hheld]
      rfl
  | some mac =>
      rcases hk.answered i c mac hc hlive howed with hreturned | ⟨hreturned, hitems⟩
      · rw [hreturned]
        rfl
      · rw [hreturned, getMacPoll, RetQueue.pollDequeue, hitems]
        rfl

/-- A response reaches whoever waits for it. -/
theorem Kept.answered_packet (hk : Kept s) {raw : RawPacket} {answers : Option Nat}
    {rest : List Letter} {h' : Handler} (hstep : Net.step s.handler (.packet raw) = some h') :
    Answered (s.handled ⟨.packet raw, answers⟩ rest h') := by
  intro j c' m hc' hlive howed
  show c'.returned = some (some m) ∨ c'.returned = none ∧ (h'.retQueues j).items = [m]
  rcases packet_arp hstep with ⟨hresponse, -, hqueues⟩ |
    ⟨ip, mac, hresponse, hnone, -, hqueues⟩ |
    ⟨ip, mac, listeners, queue, hresponse, hslot, hqueue, -, hqueues⟩
  · rw [calls_handled hresponse] at hc'
    rw [hqueues]
    exact hk.answered j c' m hc' hlive howed
  · obtain ⟨c, hc, rfl⟩ := getElem?_calls_handled hresponse hc'
    obtain ⟨-, hreturned, hcancelled, -⟩ := c.hear_same ip mac
    rw [hcancelled] at hlive
    rw [hqueues, hreturned]
    rcases Call.owed_of_hear howed with howed | ⟨hnew, rfl, hasked, -⟩
    · exact hk.answered j c m hc hlive howed
    · rw [hk.waiting hc hlive hasked hnew] at hnone
      cases hnone
  · obtain ⟨c, hc, rfl⟩ := getElem?_calls_handled hresponse hc'
    obtain ⟨-, hreturned, hcancelled, -⟩ := c.hear_same ip mac
    obtain ⟨-, rfl⟩ := tryEnqueue_eq_some.mp hqueue
    rw [hcancelled] at hlive
    rw [hqueues, hreturned]
    rcases Call.owed_of_hear howed with howed | ⟨hnew, rfl, hasked, rfl⟩
    · have hj : j ≠ listeners := by
        rintro rfl
        obtain ⟨c₀, hc₀, -, -, howed₀⟩ := registered_of_slot hk.sound hslot
        rw [hc, Option.some.injEq] at hc₀
        rw [hc₀, howed₀] at howed
        cases howed
      rw [Function.update_of_ne hj]
      exact hk.answered j c m hc hlive howed
    · have hslot' := hk.waiting hc hlive hasked hnew
      rw [hslot, Option.some.injEq] at hslot'
      subst hslot'
      obtain ⟨hitems, -, hopen⟩ := (hk.queues listeners c hc).unused (.inr hslot)
      rw [Function.update_self]
      refine .inr ⟨hopen, ?_⟩
      show (s.handler.retQueues listeners).items ++ [m] = [m]
      rw [hitems]
      rfl

/-- A move that concerns the queue and the record of one call. -/
theorem Answered.set (h : Answered s) {i : Nat} {c' : Call} {q : RetQueue}
    (hown : ∀ mac, c'.cancelled = false → c'.owed = some mac →
      c'.returned = some (some mac) ∨ c'.returned = none ∧ q.items = [mac]) :
    Answered (System.setQueue { s with calls := s.calls.set i c' } i q) := by
  intro j c mac hc hlive howed
  show c.returned = _ ∨ c.returned = none ∧
    (Function.update s.handler.retQueues i q j).items = [mac]
  rcases getElem?_set_eq_some.mp hc with ⟨rfl, -, rfl⟩ | ⟨hj, hc⟩
  · rw [Function.update_self]
    exact hown mac hlive howed
  · rw [Function.update_of_ne hj]
    exact h j c mac hc hlive howed

theorem Kept.answered_step (hk : Kept s) (hstep : s.step a = some s') : Answered s' := by
  cases step_move hstep with
  | getMac =>
      rename_i ip
      intro j c mac hc hlive howed
      have hc : (s.calls ++ [Call.new ip])[j]? = some c := hc
      show c.returned = _ ∨ c.returned = none ∧
        (Function.update s.handler.retQueues s.calls.length .new j).items = [mac]
      rcases getElem?_concat_eq_some.mp hc with hc | ⟨-, rfl⟩
      · have hj : j ≠ s.calls.length := Nat.ne_of_lt (List.getElem?_eq_some_iff.mp hc).1
        rw [Function.update_of_ne hj]
        exact hk.answered j c mac hc hlive howed
      · cases howed
  | pending hcall hpoll => exact hk.answered
  | returned hcall hopen hpoll =>
      rename_i i call result queue
      obtain ⟨-, -, hresult, -⟩ := getMacPoll_eq_some hpoll
      refine hk.answered.set fun mac hlive howed => ?_
      rcases hk.answered i call mac hcall hlive howed with hreturned | ⟨-, hitems⟩
      · rw [hopen.1] at hreturned
        cases hreturned
      · rw [hitems] at hresult
        exact .inl (congrArg some hresult)
  | cancelled hcall hopen =>
      refine hk.answered.set fun mac hlive _ => ?_
      cases hlive
  | rawPing => exact hk.answered
  | pingPolled => exact hk.answered
  | pingPosted hping hsend hip => exact hk.answered
  | receive => exact hk.answered
  | handled hmail hh' =>
      rename_i letter rest h'
      obtain ⟨message, answers⟩ := letter
      cases message with
      | packet raw => exact hk.answered_packet hh'
      | action request =>
          cases request with
          | sendArpRequest ip retQueue =>
              obtain ⟨devices, rfl⟩ := step_sendArpRequest hh'
              intro j c' mac hc' hlive howed
              obtain ⟨c, hc, rfl⟩ := getElem?_modify_eq_some.mp hc'
              have hold := hk.answered j c mac hc
              rw [← (dropOld_receiver s.handler ip j).2.1] at hold
              split at hlive
              · rename_i hij
                rw [if_pos hij] at howed ⊢
                exact hold hlive howed
              · rename_i hij
                rw [if_neg hij] at howed ⊢
                exact hold hlive howed
          | pingRequest waker ip mac result =>
              obtain ⟨devices, -, rfl⟩ := step_pingRequest hh'
              exact hk.answered

/-- The desk takes a letter when the handler takes a request for an address. -/
theorem mailbox_of_take (hop : arpOp s a = some .take) :
    a = .handle ∧ ∃ ip k answers rest,
      s.mailbox = ⟨.action (.sendArpRequest ip k), answers⟩ :: rest := by
  cases a with
  | handle =>
      unfold arpOp at hop
      dsimp only at hop
      split at hop
      · rename_i ip k answers rest hmail
        exact ⟨rfl, ip, k, answers, rest, hmail⟩
      · obtain ⟨r, -, hr⟩ := Option.map_eq_some_iff.mp hop
        cases hr
      · cases hop
  | _ => cases hop

/-- To the desk, a letter that is taken then is for a key that nobody waits for. -/
theorem Unrivalled.clear (h : Unrivalled s a) {op : Op Ip Nat} (hop : arpOp s a = some op) :
    Clear s.arpDesk op := by
  cases op with
  | take =>
      intro key i hhead j client hclient hwaiting hkey
      obtain ⟨c, hc, rfl⟩ := getElem?_of_client hclient
      obtain ⟨rfl, ip, k, answers, rest, hmail⟩ := mailbox_of_take hop
      have hhead : (s.mailbox.filterMap arpLetter).head? = some (key, i) := hhead
      rw [hmail] at hhead
      cases hhead
      rw [Unrivalled, hmail] at h
      have hcancelled := h c (List.mem_of_getElem? hc) hkey hwaiting.2.1
        (by simpa using (show c.owed.isSome = false from hwaiting.2.2))
      have hlive : (!c.cancelled) = true := hwaiting.1
      rw [hcancelled] at hlive
      cases hlive
  | post key i => trivial
  | answer key => trivial
  | cancel i => trivial

theorem Kept.step (hk : Kept s) (hclear : Unrivalled s a) (hstep : s.step a = some s') :
    Kept s' :=
  have hmove := arpDesk_step hstep
  ⟨hk.sound.move hmove, hk.queues.step hk.sound hstep,
    hk.complete.move hk.sound (fun _ hop => hclear.clear hop) hmove, hk.answered_step hstep⟩

/-- A request that is taken too early costs the earlier call its sender. -/
theorem Kept.lost (hk : Kept s) (hrival : ¬ Unrivalled s a) (hstep : s.step a = some s') :
    ¬ NoWaiterLost s' := by
  intro hnone
  cases step_move hstep with
  | handled hmail hh' =>
      rename_i letter rest h'
      obtain ⟨message, answers⟩ := letter
      rw [Unrivalled, hmail] at hrival
      cases message with
      | packet raw => exact hrival trivial
      | action request =>
          cases request with
          | pingRequest waker ip mac result => exact hrival trivial
          | sendArpRequest ip i =>
              simp only [not_forall] at hrival
              obtain ⟨c, hmem, rfl, hasked, howed, hlive⟩ := hrival
              have hlive := Bool.not_eq_true _ ▸ hlive
              obtain ⟨j, hc⟩ := List.getElem?_of_mem hmem
              have hslot := hk.waiting hc hlive hasked howed
              obtain ⟨hitems, -, hopen⟩ := (hk.queues j c hc).unused (.inr hslot)
              obtain ⟨c₀, hc₀, -, hnew⟩ := posted_of_letter hk.sound hmail
              have hij : i ≠ j := by
                rintro rfl
                rw [hc, Option.some.injEq] at hc₀
                rw [← hc₀, hasked] at hnew
                cases hnew
              obtain ⟨devices, rfl⟩ := step_sendArpRequest hh'
              have houtcome := hnone j c
                (getElem?_modify_eq_some.mpr ⟨c, hc, if_neg hij⟩) hlive
              simp only [System.outcome, System.handled, hopen, howed, dropOld_self hslot,
                getMacPoll, RetQueue.pollDequeue, RetQueue.dropSender, hitems] at houtcome
              simp at houtcome
  | _ => exact hrival trivial

theorem Kept.start {h : Handler} (harp : ∀ ip, h.arp ip = none) : Kept (System.start h) where
  sound := .empty rfl harp fun _ => rfl
  queues := fun i c hc => by cases hc
  complete := fun i c hc => by cases hc
  answered := fun i c mac hc => by cases hc

end Kept

/--
**When no caller is forgotten.**  Whatever calls are made, polled and dropped, whatever
frames arrive and however they interleave with the handler: every call that was not
dropped gets the address in the first response from its IP address since its request was
processed, and waits until then, exactly if the handler never takes a request for an
address that an earlier call is still waiting for.
-/
theorem no_waiter_lost_along (devices : List NetworkDevice) (retQueues : Nat → RetQueue)
    (h₀ : Handler) (hsetup : Handler.setup devices retQueues = .ok h₀) (as : List Action) :
    Lts.Along System.step NoWaiterLost (System.start h₀) as ↔
      Lts.StepsMeet System.step Unrivalled (System.start h₀) as :=
  Lts.along_iff_stepsMeet (fun _ _ _ hk hclear hstep => Kept.step hk hclear hstep)
    (fun _ hk => hk.noWaiterLost) (fun _ _ _ hk hrival hstep => hk.lost hrival hstep)
    (Kept.start (bindings_of_setup hsetup).1)

/-- What a run from the set-up of some devices leads to. -/
def systemFrom (devices : List NetworkDevice) (as : List Action) : Option (Handler × System) := do
  let h₀ ← (Handler.setup devices (fun _ => .new)).toOption
  let s ← Lts.run System.step (System.start h₀) as
  return (h₀, s)

theorem exists_of_systemFrom {devices : List NetworkDevice} {as : List Action} {B : Type}
    {f : Handler × System → B} {b : B} (h : (systemFrom devices as).map f = some b) :
    ∃ h₀ s, Handler.setup devices (fun _ => .new) = .ok h₀ ∧
      Lts.run System.step (System.start h₀) as = some s ∧ f (h₀, s) = b :=
  Slice.exists_of_started h

def oneDevice : List NetworkDevice := [.new 0 someMac]

def hostMac : Mac := #v[0x52, 0x55, 10, 0, 2, 2]

/-- The response of the host arrives at the card. -/
def hostResponds : Action := .receive ⟨0, .new (arpResponse hostMac hostIp)⟩ none

/-- Two calls, the second after the first was answered. -/
def oneAfterTheOther : List Action :=
  [.getMac hostIp, .handle, hostResponds, .handle, .getMac hostIp, .handle, .pollMac 0,
    hostResponds, .handle, .pollMac 1]

/-- Two calls, the second before the first was answered. -/
def twoAtOnce : List Action :=
  [.getMac hostIp, .getMac hostIp, .handle, .handle, hostResponds, .handle, .pollMac 0, .pollMac 1]

theorem no_waiter_lost_along_in_turn :
    ∃ h₀ s, Handler.setup oneDevice (fun _ => .new) = .ok h₀ ∧
      Lts.run System.step (System.start h₀) oneAfterTheOther = some s ∧
      s.calls.map (·.returned) = [some (some hostMac), some (some hostMac)] ∧
      Lts.Along System.step NoWaiterLost (System.start h₀) oneAfterTheOther := by
  obtain ⟨h₀, s, hsetup, hrun, hvalues⟩ := exists_of_systemFrom (by decide +kernel :
    (systemFrom oneDevice oneAfterTheOther).map (fun r => (r.2.calls.map (·.returned),
      decide (Lts.StepsMeet System.step Unrivalled (System.start r.1) oneAfterTheOther)))
      = some ([some (some hostMac), some (some hostMac)], true))
  rw [Prod.mk.injEq] at hvalues
  exact ⟨h₀, s, hsetup, hrun, hvalues.1, (no_waiter_lost_along oneDevice _ h₀ hsetup
    oneAfterTheOther).mpr (of_decide_eq_true hvalues.2)⟩

/-- The first of two calls at once returns without an answer, though the response has come. -/
theorem first_of_two_forgotten :
    ∃ h₀ s, Handler.setup oneDevice (fun _ => .new) = .ok h₀ ∧
      Lts.run System.step (System.start h₀) twoAtOnce = some s ∧
      s.calls = [
        { ip := hostIp, returned := some none,
          cancelled := false, requested := true, owed := some hostMac },
        { ip := hostIp, returned := some (some hostMac),
          cancelled := false, requested := true, owed := some hostMac }] :=
  exists_of_systemFrom (by decide +kernel : (systemFrom oneDevice twoAtOnce).map (·.2.calls) = some _)

/-! ### The send in the response arm -/

/-- The sender in a place can be used once, and is used for the first time. -/
theorem Queues.tryEnqueue_isSome {s : System} (hs : Sound s.arpDesk) (hq : Queues s) {ip : Ip}
    {i : Nat} {c : Call} (hslot : s.handler.arp ip = some i) (hc : s.calls[i]? = some c)
    (mac : Mac) :
    ((s.handler.retQueues i).tryEnqueue mac).isSome = true ↔ c.cancelled = false := by
  obtain ⟨c', hc', hip, -, -⟩ := registered_of_slot hs hslot
  rw [hc, Option.some.injEq] at hc'
  subst hc'
  have hok := hq i c hc
  obtain ⟨hitems, -, hopen⟩ := hok.unused (.inr (hip ▸ hslot))
  have hroom : (s.handler.retQueues i).items.length < (s.handler.retQueues i).capacity := by
    rw [hitems, hok.capacity]
    decide
  rw [RetQueue.tryEnqueue]
  simp only [hroom, and_true, hok.receiver, hopen, true_and]
  split
  · rename_i hlive
    simp only [hlive, Option.isSome_some]
  · rename_i hdropped
    simp [hdropped]

/--
**When an ARP response is handled.**  In every state that a run of calls, cancellations,
frames and handler steps reaches, an ARP response is handled without a panic exactly if
the call registered for its sender, if there is one, was not dropped by its caller.
-/
theorem response_handled_iff (devices : List NetworkDevice) (retQueues : Nat → RetQueue)
    (h₀ : Handler) (hsetup : Handler.setup devices retQueues = .ok h₀) (as : List Action)
    (s : System) (hrun : Lts.run System.step (System.start h₀) as = some s)
    (m : HandlerMessage) (ip : Ip) (mac : Mac) (hresponse : response s.handler m = some (ip, mac)) :
    (∃ h', handle s.handler m = .ok h') ↔
      ∀ i c, s.handler.arp ip = some i → s.calls[i]? = some c → c.cancelled = false := by
  have hstart : Kept (System.start h₀) := .start (bindings_of_setup hsetup).1
  obtain ⟨hs, hq⟩ : Sound s.arpDesk ∧ Queues s :=
    Lts.run_invariant (fun (s : System) a s' (h : Sound s.arpDesk ∧ Queues s) hstep =>
      ⟨h.1.move (arpDesk_step hstep), h.2.step h.1 hstep⟩) ⟨hstart.sound, hstart.queues⟩ hrun
  rw [handle_response hresponse]
  constructor
  · intro hsend i c hslot hc
    exact (hq.tryEnqueue_isSome hs hslot hc mac).mp (hsend i hslot)
  · intro hlive i hslot
    obtain ⟨c, hc, -⟩ := registered_of_slot hs hslot
    exact (hq.tryEnqueue_isSome hs hslot hc mac).mpr (hlive i c hslot hc)

def hostResponse : HandlerMessage := .packet ⟨0, .new (arpResponse hostMac hostIp)⟩

/-- A call that still waits when the response comes. -/
theorem response_handled_iff_waiting :
    ∃ h₀ s h', Handler.setup oneDevice (fun _ => .new) = .ok h₀ ∧
      Lts.run System.step (System.start h₀) [.getMac hostIp, .handle] = some s ∧
      response s.handler hostResponse = some (hostIp, hostMac) ∧
      handle s.handler hostResponse = .ok h' := by
  obtain ⟨h₀, s, hsetup, hrun, hvalues⟩ := exists_of_systemFrom (by decide +kernel :
    (systemFrom oneDevice [.getMac hostIp, .handle]).map (fun r =>
      (response r.2.handler hostResponse, r.2.calls.all (!·.cancelled)))
      = some (some (hostIp, hostMac), true))
  rw [Prod.mk.injEq] at hvalues
  obtain ⟨hresponse, hlive⟩ := hvalues
  obtain ⟨h', hhandle⟩ := (response_handled_iff oneDevice _ h₀ hsetup _ s hrun hostResponse hostIp
    hostMac hresponse).mpr fun i c _ hc => by
      simpa using List.all_eq_true.mp hlive c (List.mem_of_getElem? hc)
  exact ⟨h₀, s, h', hsetup, hrun, hresponse, hhandle⟩

/-- The caller drops the future while it waits; the response then takes the handler down. -/
theorem dropped_call_panics :
    ∃ h₀ s, Handler.setup oneDevice (fun _ => .new) = .ok h₀ ∧
      Lts.run System.step (System.start h₀) [.getMac hostIp, .handle, .cancelMac 0] = some s ∧
      response s.handler hostResponse = some (hostIp, hostMac) ∧
      handle s.handler hostResponse = .error .unwrap := by
  obtain ⟨h₀, s, hsetup, hrun, hvalues⟩ := exists_of_systemFrom (by decide +kernel :
    (systemFrom oneDevice [.getMac hostIp, .handle, .cancelMac 0]).map (fun r =>
      (response r.2.handler hostResponse, (handle r.2.handler hostResponse).map fun _ => ()))
      = some (some (hostIp, hostMac), .error .unwrap))
  rw [Prod.mk.injEq] at hvalues
  refine ⟨h₀, s, hsetup, hrun, hvalues.1, ?_⟩
  cases hhandle : handle s.handler hostResponse with
  | ok h' =>
      rw [hhandle] at hvalues
      cases hvalues.2
  | error e =>
      rw [hhandle] at hvalues
      cases hvalues.2
      rfl

end Rucoonos.Net
