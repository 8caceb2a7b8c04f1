/-
Pings and the replies they wait for.

The handler keeps the waker and the flag of a ping under the address that was pinged, one
ping for each address.  As with `get_mac`, nothing is lost exactly as long as no request
is processed while an earlier ping to the same address is outstanding: such a request
replaces the earlier ping's waker and flag, and that ping is never completed
(`no_ping_lost_along`).
-/
import Rucoonos.Proofs.Net.Waiters

namespace Rucoonos.Net

open Pending

/-! ### The desk of the pings -/

def pingLetter : Letter → Option (Ip × Nat)
  | ⟨.action (.pingRequest _ ip _ result), _⟩ => some (ip, result)
  | _ => none

/-- A ping is a client once its future has posted the request. -/
def Ping.view (p : Ping) : Option (Client Ip) :=
  if p.future.send = true then some ⟨p.target, p.requested.isSome, p.replied, true⟩ else none

def System.pingDesk (s : System) : Desk Ip Nat where
  letters := s.mailbox.filterMap pingLetter
  slot := fun ip => (s.handler.ping ip).map Prod.snd
  clients := clientsOf Ping.view s.pings

theorem Ping.view_hear (ip : Ip) (p : Ping) : (p.hear ip).view = p.view.map (Client.hear ip) := by
  unfold Ping.hear Ping.view
  by_cases hsend : p.future.send = true
  · by_cases hask : p.target = ip ∧ p.requested.isSome = true
    · simp only [if_pos hask, if_pos hsend, Option.map_some, Client.hear]
    · simp only [if_neg hask, if_pos hsend, Option.map_some, Client.hear]
  · by_cases hask : p.target = ip ∧ p.requested.isSome = true
    · simp only [if_pos hask, if_neg hsend, Option.map_none]
    · simp only [if_neg hask, if_neg hsend, Option.map_none]

theorem Ping.view_request (waker : Nat) (p : Ping) :
    (p.request waker).view = p.view.map Client.ask := by
  unfold Ping.request Ping.view
  by_cases hsend : p.future.send = true
  · simp only [if_pos hsend, Option.map_some, Client.ask, Option.isSome_some]
  · simp only [if_neg hsend, Option.map_none]

/-- The flags of a map of wakers and flags. -/
theorem snd_update (ping : Ip → Option (Nat × Nat)) (ip : Ip) (entry : Option (Nat × Nat)) :
    (fun ip' => (Function.update ping ip entry ip').map Prod.snd)
      = Function.update (fun ip' => (ping ip').map Prod.snd) ip (entry.map Prod.snd) := by
  funext ip'
  by_cases hip : ip' = ip
  · subst hip
    simp only [Function.update_self]
  · simp only [Function.update_of_ne hip]

/-- A future knows its flag, and until it has posted its request, its target. -/
structure FutureOK (i : Nat) (p : Ping) : Prop where
  flag : p.future.returned = i
  unsent : p.future.send = false →
    p.future.ip = some p.target ∧ p.requested = none ∧ p.replied = false

def Futures (s : System) : Prop := ∀ i p, s.pings[i]? = some p → FutureOK i p

section Desk

variable {s s' : System} {a : Action}

/-- The desk does not see a letter that is no request of a ping. -/
theorem pingDesk_post {message : HandlerMessage} {answers : Option Nat}
    (hother : pingLetter ⟨message, answers⟩ = none) :
    (s.post message answers).pingDesk = s.pingDesk := by
  simp only [System.pingDesk, System.post, List.filterMap_append]
  rw [List.filterMap_cons_none hother, List.filterMap_nil, List.append_nil]

theorem pingDesk_packet {raw : RawPacket} {answers : Option Nat} {rest : List Letter}
    {h' : Handler} (hmail : s.mailbox = ⟨.packet raw, answers⟩ :: rest)
    (hstep : Net.step s.handler (.packet raw) = some h') :
    s.pingDesk.move ((echoSource s.handler (.packet raw)).map fun ip => .answer ip)
      = some (s.handled ⟨.packet raw, answers⟩ rest h').pingDesk := by
  have hletters : s.mailbox.filterMap pingLetter = rest.filterMap pingLetter := by rw [hmail]; rfl
  have hclients : ∀ ip, clientsOf Ping.view (s.pings.map (Ping.hear ip))
      = fun i => (clientsOf Ping.view s.pings i).map (Client.hear ip) :=
    fun ip => clientsOf_map (Ping.view_hear ip) s.pings
  rcases packet_ping hstep with ⟨hsource, hping, -, -⟩ | ⟨ip, hsource, hnone, hping, -, -⟩ |
    ⟨ip, waker, result, hsource, -, hping, -, -⟩
  · rw [hsource]
    show some s.pingDesk = _
    simp only [System.pingDesk, System.handled, notePings, hsource, hping, hletters]
  · rw [hsource]
    show s.pingDesk.step (.answer ip) = _
    have hslot : Function.update (fun ip => (s.handler.ping ip).map Prod.snd) ip none
        = fun ip => (s.handler.ping ip).map Prod.snd := by
      refine Function.update_eq_self_iff.mpr ?_
      simp only [hnone, Option.map_none]
    simp only [System.pingDesk, System.handled, notePings, hsource, hping, hletters, Desk.step,
      hclients, hslot]
  · rw [hsource]
    show s.pingDesk.step (.answer ip) = _
    simp only [System.pingDesk, System.handled, notePings, hsource, hping, hletters, Desk.step,
      hclients, snd_update, Option.map_none]

/-- **The desk of the pings follows the system**, and only takes a letter when the handler
does. -/
theorem pingDesk_step (hf : Futures s) (hstep : s.step a = some s') :
    ∃ op, s.pingDesk.move op = some s'.pingDesk ∧ (op = some .take →
      ∃ waker ip mac result answers rest, a = .handle ∧
        s.mailbox = ⟨.action (.pingRequest waker ip mac result), answers⟩ :: rest) := by
  cases step_move hstep with
  | pingPosted hping hsend hip =>
      rename_i i waker ping ip mac
      obtain ⟨hflag, hunsent⟩ := hf i ping hping
      obtain ⟨htarget, hrequested, hreplied⟩ := hunsent hsend
      rw [hip, Option.some.injEq] at htarget
      have hnew : s.pingDesk.clients i = none := by
        show s.pings[i]?.bind Ping.view = none
        rw [hping, Option.bind_some, Ping.view, hsend]
        rfl
      have hview : ping.posted.view = some (Client.new ip) := by
        rw [Ping.view, Ping.posted]
        simp only [if_true, hrequested, hreplied, ← htarget]
        rfl
      refine ⟨some (.post ip i), ?_, fun hop => by cases hop⟩
      simp only [Desk.move, Desk.step, hnew]
      simp only [System.pingDesk, System.post, clientsOf_set hping, List.filterMap_append, hflag,
        hview]
      rfl
  | handled hmail hh' =>
      rename_i letter rest h'
      obtain ⟨message, answers⟩ := letter
      cases message with
      | packet raw =>
          refine ⟨_, pingDesk_packet hmail hh', fun hop => ?_⟩
          obtain ⟨ip, -, hip⟩ := Option.map_eq_some_iff.mp hop
          cases hip
      | action request =>
          cases request with
          | sendArpRequest ip retQueue =>
              obtain ⟨devices, rfl⟩ := step_sendArpRequest hh'
              refine ⟨none, ?_, fun hop => by cases hop⟩
              simp only [Desk.move, System.pingDesk, System.handled, notePings, hmail]
              rfl
          | pingRequest waker ip mac result =>
              obtain ⟨devices, -, rfl⟩ := step_pingRequest hh'
              refine ⟨some .take, ?_, fun _ => ⟨waker, ip, mac, result, answers, rest, rfl, hmail⟩⟩
              have hletters : s.pingDesk.letters = (ip, result) :: rest.filterMap pingLetter := by
                show s.mailbox.filterMap pingLetter = _
                rw [hmail]
                rfl
              simp only [Desk.move, Desk.step, hletters]
              simp only [System.pingDesk, System.handled, notePings, snd_update, Option.map_some,
                clientsOf_modify (Ping.view_request waker)]
  | rawPing =>
      refine ⟨none, ?_, fun hop => by cases hop⟩
      have hclients : Function.update (clientsOf Ping.view s.pings) s.pings.length none
          = clientsOf Ping.view s.pings :=
        Function.update_eq_self_iff.mpr (clientsOf_length Ping.view s.pings).symm
      simp only [Desk.move, System.pingDesk, clientsOf_append]
      exact congrArg (fun clients => some (Desk.mk _ _ clients)) hclients.symm
  | getMac =>
      refine ⟨none, ?_, fun hop => by cases hop⟩
      rw [pingDesk_post rfl]
      rfl
  | receive =>
      refine ⟨none, ?_, fun hop => by cases hop⟩
      rw [pingDesk_post rfl]
      rfl
  | _ => exact ⟨none, rfl, fun hop => by cases hop⟩

/-- The ping in the place of an address, with its waker. -/
def Bound (s : System) : Prop :=
  ∀ ip waker i, s.handler.ping ip = some (waker, i) →
    ∃ p, s.pings[i]? = some p ∧ p.target = ip ∧ p.requested = some waker ∧ p.replied = false

/-- What holds of the pings in every run. -/
structure Pings (s : System) : Prop where
  sound : Sound s.pingDesk
  futures : Futures s
  bound : Bound s

theorem Ping.hear_same (ip : Ip) (p : Ping) : (p.hear ip).target = p.target ∧
    (p.hear ip).future = p.future ∧ (p.hear ip).requested = p.requested := by
  unfold Ping.hear
  split
  · exact ⟨rfl, rfl, rfl⟩
  · exact ⟨rfl, rfl, rfl⟩

theorem Ping.replied_of_hear {ip : Ip} {p : Ping} (h : (p.hear ip).replied = true) :
    p.replied = true ∨
      (p.target = ip ∧ ∃ waker, p.requested = some waker ∧ p.replied = false) := by
  by_cases hreplied : p.replied = true
  · exact .inl hreplied
  · unfold Ping.hear at h
    split at h
    · rename_i hasked
      obtain ⟨waker, hwaker⟩ := Option.isSome_iff_exists.mp hasked.2
      exact .inr ⟨hasked.1, waker, hwaker, Bool.not_eq_true _ ▸ hreplied⟩
    · exact .inl h

theorem getElem?_of_pingClient {i : Nat} {client : Client Ip}
    (h : s.pingDesk.clients i = some client) :
    ∃ p, s.pings[i]? = some p ∧ p.future.send = true ∧
      client = ⟨p.target, p.requested.isSome, p.replied, true⟩ := by
  obtain ⟨p, hp, hview⟩ := Option.bind_eq_some_iff.mp h
  unfold Ping.view at hview
  split at hview
  · rename_i hsend
    exact ⟨p, hp, hsend, (Option.some.inj hview).symm⟩
  · cases hview

/-- The ping of a letter. -/
theorem ping_of_letter (hs : Sound s.pingDesk) {waker i : Nat} {ip : Ip} {mac : Mac}
    {answers : Option Nat} {rest : List Letter}
    (hmail : s.mailbox = ⟨.action (.pingRequest waker ip mac i), answers⟩ :: rest) :
    ∃ p, s.pings[i]? = some p ∧ p.future.send = true ∧ p.target = ip ∧ p.requested = none ∧
      p.replied = false := by
  have hmem : (ip, i) ∈ s.pingDesk.letters := by
    show (ip, i) ∈ s.mailbox.filterMap pingLetter
    rw [hmail]
    exact List.mem_cons_self
  obtain ⟨client, hclient, hkey, hasked⟩ := hs.letters ip i hmem
  have hanswered := hs.fresh i client hclient hasked
  obtain ⟨p, hp, hsend, rfl⟩ := getElem?_of_pingClient hclient
  exact ⟨p, hp, hsend, hkey, by simpa using hasked, hanswered⟩

/-- It is none of those whose requests were processed. -/
theorem ne_of_letter (hs : Sound s.pingDesk) {waker waker' k i : Nat} {ip : Ip} {mac : Mac}
    {answers : Option Nat} {rest : List Letter} {p : Ping}
    (hmail : s.mailbox = ⟨.action (.pingRequest waker ip mac k), answers⟩ :: rest)
    (hp : s.pings[i]? = some p) (hrequested : p.requested = some waker') : k ≠ i := by
  rintro rfl
  obtain ⟨ping, hping, -, -, hnew, -⟩ := ping_of_letter hs hmail
  rw [hping, Option.some.injEq] at hp
  rw [hp, hrequested] at hnew
  cases hnew

/-- A packet that is no echo reply leaves the pings alone. -/
theorem pings_handled {raw : RawPacket} {answers : Option Nat} {rest : List Letter} {h' : Handler}
    (hsource : echoSource s.handler (.packet raw) = none) :
    (s.handled ⟨.packet raw, answers⟩ rest h').pings = s.pings := by
  simp only [System.handled, notePings, hsource]

/-- An echo reply goes by every ping. -/
theorem getElem?_pings_handled {raw : RawPacket} {answers : Option Nat} {rest : List Letter}
    {h' : Handler} {ip : Ip} (hsource : echoSource s.handler (.packet raw) = some ip) (i : Nat) :
    (s.handled ⟨.packet raw, answers⟩ rest h').pings[i]? = s.pings[i]?.map (Ping.hear ip) := by
  simp only [System.handled, notePings, hsource, List.getElem?_map]

/-- An echo reply empties the place of its sender. -/
theorem packet_slot {h h' : Handler} {raw : RawPacket}
    (hstep : Net.step h (.packet raw) = some h') :
    (echoSource h (.packet raw) = none ∧ h'.ping = h.ping) ∨
      ∃ ip, echoSource h (.packet raw) = some ip ∧ h'.ping = Function.update h.ping ip none := by
  rcases packet_ping hstep with ⟨hsource, hping, -, -⟩ | ⟨ip, hsource, hnone, hping, -, -⟩ |
    ⟨ip, waker, result, hsource, -, hping, -, -⟩
  · exact .inl ⟨hsource, hping⟩
  · exact .inr ⟨ip, hsource, hping.trans (Function.update_eq_self_iff.mpr hnone.symm).symm⟩
  · exact .inr ⟨ip, hsource, hping⟩

theorem Bound.packet (hb : Bound s) {raw : RawPacket} {answers : Option Nat}
    {rest : List Letter} {h' : Handler} (hstep : Net.step s.handler (.packet raw) = some h') :
    Bound (s.handled ⟨.packet raw, answers⟩ rest h') := by
  intro ip' waker i hslot
  have hslot : h'.ping ip' = some (waker, i) := hslot
  rcases packet_slot hstep with ⟨hsource, hping⟩ | ⟨ip, hsource, hping⟩
  · rw [hping] at hslot
    rw [pings_handled hsource]
    exact hb ip' waker i hslot
  · have hne : ip' ≠ ip := by
      rintro rfl
      rw [hping, Function.update_self] at hslot
      cases hslot
    rw [hping, Function.update_of_ne hne] at hslot
    obtain ⟨p, hp, htarget, hrequested, hreplied⟩ := hb ip' waker i hslot
    have hhear : p.hear ip = p := if_neg fun hc => hne (htarget.symm.trans hc.1)
    refine ⟨p, ?_, htarget, hrequested, hreplied⟩
    rw [getElem?_pings_handled hsource, hp, Option.map_some, hhear]

theorem Bound.step (hb : Bound s) (hs : Sound s.pingDesk) (hstep : s.step a = some s') :
    Bound s' := by
  cases step_move hstep with
  | rawPing =>
      intro ip waker i hslot
      obtain ⟨p, hp, hrest⟩ := hb ip waker i hslot
      exact ⟨p, getElem?_concat_eq_some.mpr (.inl hp), hrest⟩
  | pingPosted hping hsend hip =>
      rename_i k _ ping _ _
      intro ip waker i hslot
      obtain ⟨p, hp, hrest⟩ := hb ip waker i hslot
      by_cases hki : k = i
      · subst hki
        rw [hping, Option.some.injEq] at hp
        subst hp
        have hlt := (List.getElem?_eq_some_iff.mp hping).1
        exact ⟨ping.posted, getElem?_set_eq_some.mpr (.inl ⟨rfl, hlt, rfl⟩), hrest⟩
      · exact ⟨p, getElem?_set_eq_some.mpr (.inr ⟨Ne.symm hki, hp⟩), hrest⟩
  | handled hmail hh' =>
      rename_i letter rest h'
      obtain ⟨message, answers⟩ := letter
      cases message with
      | packet raw => exact hb.packet hh'
      | action request =>
          cases request with
          | sendArpRequest ip retQueue =>
              obtain ⟨devices, rfl⟩ := step_sendArpRequest hh'
              exact hb
          | pingRequest waker ip mac k =>
              obtain ⟨devices, -, rfl⟩ := step_pingRequest hh'
              obtain ⟨ping, hping, -, htarget, -, hreplied⟩ := ping_of_letter hs hmail
              intro ip' waker' i hslot
              have hslot : Function.update s.handler.ping ip (some (waker, k)) ip'
                  = some (waker', i) := hslot
              by_cases hip : ip' = ip
              · subst hip
                rw [Function.update_self] at hslot
                cases hslot
                exact ⟨ping.request waker, getElem?_modify_eq_some.mpr ⟨ping, hping, if_pos rfl⟩,
                  htarget, rfl, hreplied⟩
              · rw [Function.update_of_ne hip] at hslot
                obtain ⟨p, hp, htarget', hrequested, hreplied'⟩ := hb ip' waker' i hslot
                have hki : k ≠ i := ne_of_letter hs hmail hp hrequested
                exact ⟨p, getElem?_modify_eq_some.mpr ⟨p, hp, if_neg hki⟩, htarget', hrequested,
                  hreplied'⟩
  | _ => exact hb

theorem FutureOK.hear {i : Nat} {p : Ping} (h : FutureOK i p) (ip : Ip) :
    FutureOK i (p.hear ip) := by
  obtain ⟨-, hfuture, -⟩ := p.hear_same ip
  constructor
  · rw [hfuture]
    exact h.flag
  · intro hsend
    rw [hfuture] at hsend
    obtain ⟨hunsent, hnew, hreplied⟩ := h.unsent hsend
    have hhear : p.hear ip = p := if_neg fun hc => by rw [hnew] at hc; cases hc.2
    rw [hhear]
    exact ⟨hunsent, hnew, hreplied⟩

theorem Futures.packet (hf : Futures s) {raw : RawPacket} {answers : Option Nat}
    {rest : List Letter} {h' : Handler} (hstep : Net.step s.handler (.packet raw) = some h') :
    Futures (s.handled ⟨.packet raw, answers⟩ rest h') := by
  intro i p' hp'
  rcases packet_slot hstep with ⟨hsource, -⟩ | ⟨ip, hsource, -⟩
  · rw [pings_handled hsource] at hp'
    exact hf i p' hp'
  · rw [getElem?_pings_handled hsource] at hp'
    obtain ⟨p, hp, rfl⟩ := Option.map_eq_some_iff.mp hp'
    exact (hf i p hp).hear ip

theorem Futures.step (hf : Futures s) (hs : Sound s.pingDesk) (hstep : s.step a = some s') :
    Futures s' := by
  cases step_move hstep with
  | rawPing =>
      intro i p hp
      rcases getElem?_concat_eq_some.mp hp with hp | ⟨rfl, rfl⟩
      · exact hf i p hp
      · exact ⟨rfl, fun _ => ⟨rfl, rfl, rfl⟩⟩
  | pingPosted hping hsend hip =>
      intro i p hp
      rcases getElem?_set_eq_some.mp hp with ⟨rfl, -, rfl⟩ | ⟨-, hp⟩
      · exact ⟨(hf _ _ hping).flag, fun hc => by cases hc⟩
      · exact hf i p hp
  | handled hmail hh' =>
      rename_i letter rest h'
      obtain ⟨message, answers⟩ := letter
      cases message with
      | packet raw => exact hf.packet hh'
      | action request =>
          cases request with
          | sendArpRequest ip retQueue => exact hf
          | pingRequest waker ip mac k =>
              obtain ⟨ping, hping, hsend, -⟩ := ping_of_letter hs hmail
              intro i p' hp'
              obtain ⟨p, hp, rfl⟩ := getElem?_modify_eq_some.mp hp'
              by_cases hki : k = i
              · subst hki
                rw [hping, Option.some.injEq] at hp
                subst hp
                rw [if_pos rfl]
                refine ⟨(hf k ping hping).flag, fun hunsent => ?_⟩
                rw [show (ping.request waker).future.send = true from hsend] at hunsent
                cases hunsent
              · rw [if_neg hki]
                exact hf i p hp
  | _ => exact hf

theorem Pings.step (hp : Pings s) (hstep : s.step a = some s') : Pings s' := by
  obtain ⟨op, hmove, -⟩ := pingDesk_step hp.futures hstep
  exact ⟨hp.sound.move hmove, hp.futures.step hp.sound hstep, hp.bound.step hp.sound hstep⟩

theorem Pings.start {h : Handler} (hping : ∀ ip, h.ping ip = none) : Pings (System.start h) where
  sound := .empty rfl (fun ip => Option.map_eq_none_iff.mpr (hping ip)) fun _ => rfl
  futures := fun i p hp => by cases hp
  bound := fun ip waker i hslot => by
    have hslot : h.ping ip = some (waker, i) := hslot
    rw [hping] at hslot
    cases hslot

end Desk

/-! ### No ping is forgotten -/

/-- Every ping whose request was processed has its flag set if a reply has come since, and is
in the place of its target otherwise. -/
def NoPingLost (s : System) : Prop :=
  ∀ i p waker, s.pings[i]? = some p → p.requested = some waker →
    if p.replied = true then s.handler.results i = true
    else s.handler.ping p.target = some (waker, i)

/-- The sender of the echo reply that the handler processes next. -/
def System.repliedBy (s : System) : Option Ip :=
  s.mailbox.head?.bind fun letter => echoSource s.handler letter.message

/-- The step that processes an echo reply completes every ping to its sender whose request was
processed and that is not complete yet: it sets the flag of the ping and wakes its waker. -/
def Completes (s : System) (a : Action) : Prop :=
  ∀ s' ip, s.step a = some s' → a = .handle → s.repliedBy = some ip →
    ∀ i p waker, s.pings[i]? = some p → p.target = ip → p.requested = some waker →
      s.handler.results i = false →
        s'.handler.results i = true ∧ waker ∈ s'.handler.woken.drop s.handler.woken.length

/-- The handler takes no request for an address with a ping outstanding. -/
def NoOverlap (s : System) : Action → Prop
  | .handle =>
      match s.mailbox with
      | ⟨.action (.pingRequest _ ip _ _), _⟩ :: _ =>
          ∀ p ∈ s.pings, p.target = ip → p.requested.isSome = true → p.replied = true
      | _ => True
  | _ => True

instance (s : System) (a : Action) : Decidable (NoOverlap s a) := by
  obtain ⟨handler, mailbox, calls, pings, completions⟩ := s
  unfold NoOverlap
  split
  · dsimp only
    split
    · infer_instance
    · infer_instance
  · infer_instance

/-- The flag of a ping that was answered is set. -/
def Completed (s : System) : Prop :=
  ∀ i p, s.pings[i]? = some p → p.replied = true → s.handler.results i = true

structure PingsKept (s : System) : Prop where
  pings : Pings s
  complete : Complete s.pingDesk
  completed : Completed s

section PingsKept

variable {s s' : System} {a : Action}

theorem PingsKept.waiting (hk : PingsKept s) {i waker : Nat} {p : Ping}
    (hp : s.pings[i]? = some p) (hrequested : p.requested = some waker)
    (hreplied : p.replied = false) : s.handler.ping p.target = some (waker, i) := by
  have hsend : p.future.send = true := by
    by_contra hsend
    obtain ⟨-, hnew, -⟩ := (hk.pings.futures i p hp).unsent (Bool.not_eq_true _ ▸ hsend)
    rw [hrequested] at hnew
    cases hnew
  have hclient : s.pingDesk.clients i = some ⟨p.target, p.requested.isSome, p.replied, true⟩ := by
    show s.pings[i]?.bind Ping.view = _
    rw [hp, Option.bind_some, Ping.view, if_pos hsend]
  have hasked : p.requested.isSome = true := by rw [hrequested]; rfl
  have hslot := hk.complete i _ hclient ⟨rfl, hasked, hreplied⟩
  obtain ⟨⟨waker', i'⟩, hping, hi⟩ := Option.map_eq_some_iff.mp hslot
  rw [show i' = i from hi] at hping
  obtain ⟨p', hp', -, hrequested', -⟩ := hk.pings.bound p.target waker' i hping
  rw [hp, Option.some.injEq] at hp'
  rw [← hp', hrequested, Option.some.injEq] at hrequested'
  rw [hrequested']
  exact hping

theorem PingsKept.noPingLost (hk : PingsKept s) : NoPingLost s := by
  intro i p waker hp hrequested
  split
  · rename_i hreplied
    exact hk.completed i p hp hreplied
  · rename_i hreplied
    exact hk.waiting hp hrequested (Bool.not_eq_true _ ▸ hreplied)

/-- The flag and the waker that a reply finds are those of the ping that waits for it. -/
theorem PingsKept.completes (hk : PingsKept s) : Completes s a := by
  rintro s' ip hstep rfl hreply i p waker hp rfl hrequested hflag
  have hnew : p.replied = false := by
    by_contra hreplied
    rw [hk.completed i p hp (Bool.not_eq_false _ ▸ hreplied)] at hflag
    cases hflag
  have hplace := hk.waiting hp hrequested hnew
  cases step_move hstep with
  | handled hmail hh' =>
      rename_i letter rest h'
      obtain ⟨message, answers⟩ := letter
      have hsource : echoSource s.handler message = some p.target := by
        rw [System.repliedBy, hmail] at hreply
        exact hreply
      cases message with
      | packet raw =>
          rcases packet_ping hh' with ⟨hnone, -⟩ | ⟨ip, hip, hfree, -⟩ |
            ⟨ip, waker', result, hip, hslot, -, hresults, hwoken⟩
          · rw [hnone] at hsource
            cases hsource
          · rw [hsource, Option.some.injEq] at hip
            rw [← hip, hplace] at hfree
            cases hfree
          · rw [hsource, Option.some.injEq] at hip
            rw [← hip, hplace, Option.some.injEq, Prod.mk.injEq] at hslot
            obtain ⟨rfl, rfl⟩ := hslot
            constructor
            · show h'.results i = true
              rw [hresults, Function.update_self]
            · show waker ∈ h'.woken.drop s.handler.woken.length
              rw [hwoken, List.drop_left]
              exact List.mem_singleton_self _
      | action request => cases hsource

/-- A reply completes whoever waits for it. -/
theorem PingsKept.completed_packet (hk : PingsKept s) {raw : RawPacket} {answers : Option Nat}
    {rest : List Letter} {h' : Handler} (hstep : Net.step s.handler (.packet raw) = some h') :
    Completed (s.handled ⟨.packet raw, answers⟩ rest h') := by
  intro i p' hp' hreplied
  show h'.results i = true
  rcases packet_ping hstep with ⟨hsource, -, hresults, -⟩ | ⟨ip, hsource, hnone, -, hresults, -⟩ |
    ⟨ip, waker, result, hsource, hslot, -, hresults, -⟩
  · rw [pings_handled hsource] at hp'
    rw [hresults]
    exact hk.completed i p' hp' hreplied
  · rw [getElem?_pings_handled hsource] at hp'
    obtain ⟨p, hp, rfl⟩ := Option.map_eq_some_iff.mp hp'
    rw [hresults]
    rcases Ping.replied_of_hear hreplied with hreplied | ⟨rfl, waker, hwaker, hnew⟩
    · exact hk.completed i p hp hreplied
    · rw [hk.waiting hp hwaker hnew] at hnone
      cases hnone
  · rw [getElem?_pings_handled hsource] at hp'
    obtain ⟨p, hp, rfl⟩ := Option.map_eq_some_iff.mp hp'
    rw [hresults]
    rcases Ping.replied_of_hear hreplied with hreplied | ⟨rfl, waker', hwaker, hnew⟩
    · have hdone := hk.completed i p hp hreplied
      by_cases hi : i = result
      · rw [hi, Function.update_self]
      · rw [Function.update_of_ne hi, hdone]
    · rw [hk.waiting hp hwaker hnew, Option.some.injEq, Prod.mk.injEq] at hslot
      obtain ⟨rfl, rfl⟩ := hslot
      exact Function.update_self ..

theorem PingsKept.completed_step (hk : PingsKept s) (hstep : s.step a = some s') :
    Completed s' := by
  cases step_move hstep with
  | rawPing =>
      intro i p hp hreplied
      rcases getElem?_concat_eq_some.mp hp with hp | ⟨-, rfl⟩
      · exact hk.completed i p hp hreplied
      · cases hreplied
  | pingPosted hping hsend hip =>
      intro i p hp hreplied
      rcases getElem?_set_eq_some.mp hp with ⟨rfl, -, rfl⟩ | ⟨-, hp⟩
      · exact hk.completed _ _ hping hreplied
      · exact hk.completed i p hp hreplied
  | handled hmail hh' =>
      rename_i letter rest h'
      obtain ⟨message, answers⟩ := letter
      cases message with
      | packet raw => exact hk.completed_packet hh'
      | action request =>
          cases request with
          | sendArpRequest ip retQueue =>
              obtain ⟨devices, rfl⟩ := step_sendArpRequest hh'
              exact hk.completed
          | pingRequest waker ip mac k =>
              obtain ⟨devices, -, rfl⟩ := step_pingRequest hh'
              obtain ⟨ping, hping, -, -, -, hnew⟩ := ping_of_letter hk.pings.sound hmail
              intro i p' hp' hreplied
              obtain ⟨p, hp, rfl⟩ := getElem?_modify_eq_some.mp hp'
              by_cases hki : k = i
              · subst hki
                rw [hping, Option.some.injEq] at hp
                subst hp
                rw [if_pos rfl, show (ping.request waker).replied = false from hnew] at hreplied
                cases hreplied
              · rw [if_neg hki] at hreplied
                exact hk.completed i p hp hreplied
  | _ => exact hk.completed

theorem PingsKept.step (hk : PingsKept s) (hclear : NoOverlap s a) (hstep : s.step a = some s') :
    PingsKept s' := by
  refine ⟨hk.pings.step hstep, ?_, hk.completed_step hstep⟩
  obtain ⟨op, hmove, htake⟩ := pingDesk_step hk.pings.futures hstep
  refine hk.complete.move hk.pings.sound ?_ hmove
  rintro op rfl
  cases op with
  | take =>
      obtain ⟨waker, ip, mac, result, answers, rest, rfl, hmail⟩ := htake rfl
      rw [NoOverlap, hmail] at hclear
      intro key i hhead j client hclient hwaiting hkey
      have hhead : (s.mailbox.filterMap pingLetter).head? = some (key, i) := hhead
      rw [hmail] at hhead
      cases hhead
      obtain ⟨p, hp, -, rfl⟩ := getElem?_of_pingClient hclient
      have hreplied := hclear p (List.mem_of_getElem? hp) hkey hwaiting.2.1
      have hnew : p.replied = false := hwaiting.2.2
      rw [hreplied] at hnew
      cases hnew
  | post key i => trivial
  | answer key => trivial
  | cancel i => trivial

/-- A request that is taken too early replaces the waker and flag of the earlier ping. -/
theorem PingsKept.lost (hk : PingsKept s) (hoverlap : ¬ NoOverlap s a)
    (hstep : s.step a = some s') : ¬ NoPingLost s' := by
  intro hnone
  cases step_move hstep with
  | handled hmail hh' =>
      rename_i letter rest h'
      obtain ⟨message, answers⟩ := letter
      rw [NoOverlap, hmail] at hoverlap
      cases message with
      | packet raw => exact hoverlap trivial
      | action request =>
          cases request with
          | sendArpRequest ip retQueue => exact hoverlap trivial
          | pingRequest waker ip mac k =>
              simp only [not_forall] at hoverlap
              obtain ⟨p, hmem, rfl, hasked, hreplied⟩ := hoverlap
              obtain ⟨waker', hwaker'⟩ := Option.isSome_iff_exists.mp hasked
              obtain ⟨i, hp⟩ := List.getElem?_of_mem hmem
              have hki : k ≠ i := ne_of_letter hk.pings.sound hmail hp hwaker'
              obtain ⟨devices, -, rfl⟩ := step_pingRequest hh'
              have hplace := hnone i p waker'
                (getElem?_modify_eq_some.mpr ⟨p, hp, if_neg hki⟩) hwaker'
              rw [if_neg hreplied] at hplace
              have hplace : Function.update s.handler.ping p.target (some (waker, k)) p.target
                  = some (waker', i) := hplace
              rw [Function.update_self, Option.some.injEq, Prod.mk.injEq] at hplace
              exact hki hplace.2
  | _ => exact hoverlap trivial

theorem PingsKept.start {h : Handler} (hping : ∀ ip, h.ping ip = none) :
    PingsKept (System.start h) where
  pings := .start hping
  complete := fun i c hc => by cases hc
  completed := fun i p hp => by cases hp

end PingsKept

/--
**When no ping is forgotten.**  Whatever pings are started and polled, whatever frames
arrive and however they interleave with the handler: every ping whose request was
processed stays registered until a reply comes, and the step that processes an echo reply
sets the flag and wakes the waker of every ping to its sender that is not complete yet,
exactly if the handler never takes a request for an address that an earlier ping is still
outstanding for.
-/
theorem no_ping_lost_along (devices : List NetworkDevice) (retQueues : Nat → RetQueue)
    (h₀ : Handler) (hsetup : Handler.setup devices retQueues = .ok h₀) (as : List Action) :
    (Lts.Along System.step NoPingLost (System.start h₀) as ∧
        Lts.StepsMeet System.step Completes (System.start h₀) as) ↔
      Lts.StepsMeet System.step NoOverlap (System.start h₀) as := by
  have hstart : PingsKept (System.start h₀) := .start (bindings_of_setup hsetup).2.1
  have hkept : Lts.StepsMeet System.step NoOverlap (System.start h₀) as →
      Lts.Along System.step PingsKept (System.start h₀) as :=
    Lts.along_of_stepsMeet (fun _ _ _ hk hclear hstep => PingsKept.step hk hclear hstep) hstart
  constructor
  · rintro ⟨hnone, -⟩
    exact (Lts.along_iff_stepsMeet (fun _ _ _ hk hclear hstep => PingsKept.step hk hclear hstep)
      (fun _ hk => hk.noPingLost) (fun _ _ _ hk hoverlap hstep => hk.lost hoverlap hstep)
      hstart).mp hnone
  · intro hclear
    exact ⟨(hkept hclear).mono fun _ hk => hk.noPingLost,
      (hkept hclear).stepsMeet fun _ _ hk => hk.completes⟩

/-- An echo reply from the host, with the identifier and sequence number of the requests. -/
def echoReplyFrame (source : Ip) : Bytes :=
  [broadcastMac.toList, hostMac.toList, [0x08, 0x00],
    [0x45, 0, 0, 28, 0, 0, 0, 0, 64, 1, 0, 0], source.toList, [10, 0, 2, 15],
    [0, 0, 0, 0, 0x12, 0x34, 0x23, 0x45]].flatten

def hostReplies : Action := .receive ⟨0, .new (echoReplyFrame hostIp)⟩ none

/-- Two pings of one task, the second after the first was answered. -/
def pingsInTurn : List Action :=
  [.rawPing hostIp hostMac, .pollPing 0 7, .handle, hostReplies, .handle, .pollPing 0 7,
    .rawPing hostIp hostMac, .pollPing 1 7, .handle, .pollPing 1 7, hostReplies, .handle]

/-- Two pings, the second before the first was answered. -/
def pingsAtOnce : List Action :=
  [.rawPing hostIp hostMac, .rawPing hostIp hostMac, .pollPing 0 7, .pollPing 1 8,
    .handle, .handle, hostReplies, .handle, hostReplies, .handle]

theorem no_ping_lost_along_in_turn :
    ∃ h₀ s, Handler.setup oneDevice (fun _ => .new) = .ok h₀ ∧
      Lts.run System.step (System.start h₀) pingsInTurn = some s ∧ s.handler.woken = [7, 7] ∧
      Lts.Along System.step NoPingLost (System.start h₀) pingsInTurn ∧
      Lts.StepsMeet System.step Completes (System.start h₀) pingsInTurn := by
  obtain ⟨h₀, s, hsetup, hrun, hvalues⟩ := exists_of_systemFrom (by decide +kernel :
    (systemFrom oneDevice pingsInTurn).map (fun r => (r.2.handler.woken,
      decide (Lts.StepsMeet System.step NoOverlap (System.start r.1) pingsInTurn)))
      = some ([7, 7], true))
  rw [Prod.mk.injEq] at hvalues
  exact ⟨h₀, s, hsetup, hrun, hvalues.1, (no_ping_lost_along oneDevice _ h₀ hsetup
    pingsInTurn).mpr (of_decide_eq_true hvalues.2)⟩

/-- The first of two pings at once is not completed by any reply. -/
theorem first_ping_forgotten :
    ∃ h₀ s, Handler.setup oneDevice (fun _ => .new) = .ok h₀ ∧
      Lts.run System.step (System.start h₀) pingsAtOnce = some s ∧
      s.pings.map (fun p => (p.requested, p.replied)) = [(some 7, true), (some 8, true)] ∧
      s.handler.results 0 = false ∧ s.handler.woken = [8] ∧ s.handler.ping hostIp = none := by
  obtain ⟨h₀, s, hsetup, hrun, hvalues⟩ := exists_of_systemFrom (by decide +kernel :
    (systemFrom oneDevice pingsAtOnce).map (fun r =>
      (r.2.pings.map (fun p => (p.requested, p.replied)), r.2.handler.results 0,
        r.2.handler.woken, r.2.handler.ping hostIp))
      = some ([(some 7, true), (some 8, true)], false, [8], none))
  simp only [Prod.mk.injEq] at hvalues
  exact ⟨h₀, s, hsetup, hrun, hvalues⟩

end Rucoonos.Net
