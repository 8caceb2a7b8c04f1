/-
One request at a time.

The handler has one place for each address that somebody asks for, and one for each
address that somebody pings.  Where nobody asks for an address twice, pings an address
before it has answered the ping before, or drops a call, nobody takes another's place:
every call gets its answer and every ping its reply (`InTurn.step`).
-/
import Rucoonos.Proofs.Net.Pings

namespace Rucoonos.Net

open Pending

/-! ### What a step does to calls and pings -/

theorem Ping.replied_hear (p : Ping) (ip : Ip) (h : p.replied = true) :
    (p.hear ip).replied = true := by
  unfold Ping.hear
  split
  · rfl
  · exact h

section Step

variable {s s' : System} {a : Action}

/-- A call is what it was, up to what it has heard and returned, or it is new. -/
theorem call_of_step (hstep : s.step a = some s') (hopen : ∀ i, a ≠ .cancelMac i) {i : Nat}
    {c' : Call} (hc' : s'.calls[i]? = some c') :
    (∃ c, s.calls[i]? = some c ∧ c'.ip = c.ip ∧ c'.cancelled = c.cancelled) ∨
      (a = .getMac c'.ip ∧ i = s.calls.length ∧ c'.cancelled = false) := by
  cases step_move hstep with
  | getMac =>
      rcases getElem?_concat_eq_some.mp hc' with hc | ⟨rfl, rfl⟩
      · exact .inl ⟨c', hc, rfl, rfl⟩
      · exact .inr ⟨rfl, rfl, rfl⟩
  | returned hcall _ _ =>
      rcases getElem?_set_eq_some.mp hc' with ⟨rfl, -, rfl⟩ | ⟨-, hc⟩
      · exact .inl ⟨_, hcall, rfl, rfl⟩
      · exact .inl ⟨c', hc, rfl, rfl⟩
  | cancelled _ _ => exact absurd rfl (hopen _)
  | handled hmail hh' =>
      rename_i letter rest h'
      obtain ⟨message, answers⟩ := letter
      cases message with
      | packet raw =>
          cases hresponse : response s.handler (.packet raw) with
          | none =>
              rw [calls_handled hresponse] at hc'
              exact .inl ⟨c', hc', rfl, rfl⟩
          | some r =>
              obtain ⟨c, hc, rfl⟩ := getElem?_calls_handled hresponse hc'
              obtain ⟨hip, -, hcancelled, -⟩ := c.hear_same r.1 r.2
              exact .inl ⟨c, hc, hip, hcancelled⟩
      | action request =>
          cases request with
          | sendArpRequest ip k =>
              obtain ⟨c, hc, rfl⟩ := getElem?_modify_eq_some.mp hc'
              refine .inl ⟨c, hc, ?_⟩
              split
              · exact ⟨rfl, rfl⟩
              · exact ⟨rfl, rfl⟩
          | pingRequest waker ip mac k => exact .inl ⟨c', hc', rfl, rfl⟩
  | _ => exact .inl ⟨c', hc', rfl, rfl⟩

/-- A ping is what it was, up to what it has posted and heard, or it is new. -/
theorem ping_of_step (hstep : s.step a = some s') {i : Nat} {p' : Ping}
    (hp' : s'.pings[i]? = some p') :
    (∃ p, s.pings[i]? = some p ∧ p'.target = p.target ∧
        (p'.replied = false → p.replied = false)) ∨
      (∃ mac, a = .rawPing p'.target mac ∧ i = s.pings.length) := by
  cases step_move hstep with
  | rawPing =>
      rcases getElem?_concat_eq_some.mp hp' with hp | ⟨rfl, rfl⟩
      · exact .inl ⟨p', hp, rfl, id⟩
      · exact .inr ⟨_, rfl, rfl⟩
  | pingPosted hping _ _ =>
      rcases getElem?_set_eq_some.mp hp' with ⟨rfl, -, rfl⟩ | ⟨-, hp⟩
      · exact .inl ⟨_, hping, rfl, id⟩
      · exact .inl ⟨p', hp, rfl, id⟩
  | handled hmail hh' =>
      rename_i letter rest h'
      obtain ⟨message, answers⟩ := letter
      cases message with
      | packet raw =>
          cases hsource : echoSource s.handler (.packet raw) with
          | none =>
              rw [pings_handled hsource] at hp'
              exact .inl ⟨p', hp', rfl, id⟩
          | some ip =>
              rw [getElem?_pings_handled hsource] at hp'
              obtain ⟨p, hp, rfl⟩ := Option.map_eq_some_iff.mp hp'
              refine .inl ⟨p, hp, (p.hear_same ip).1, fun hnew => ?_⟩
              unfold Ping.hear at hnew
              split at hnew
              · cases hnew
              · exact hnew
      | action request =>
          cases request with
          | sendArpRequest ip k => exact .inl ⟨p', hp', rfl, id⟩
          | pingRequest waker ip mac k =>
              obtain ⟨p, hp, rfl⟩ := getElem?_modify_eq_some.mp hp'
              refine .inl ⟨p, hp, ?_⟩
              split
              · exact ⟨rfl, id⟩
              · exact ⟨rfl, id⟩
  | _ => exact .inl ⟨p', hp', rfl, id⟩

/-- A flag that is set is that of a ping that was answered. -/
def Flags (s : System) : Prop :=
  ∀ i, s.handler.results i = true → ∃ p, s.pings[i]? = some p ∧ p.replied = true

theorem Flags.packet (hf : Flags s) (hb : Bound s) {raw : RawPacket} {answers : Option Nat}
    {rest : List Letter} {h' : Handler} (hstep : Net.step s.handler (.packet raw) = some h') :
    Flags (s.handled ⟨.packet raw, answers⟩ rest h') := by
  intro i hi
  have hi : h'.results i = true := hi
  rcases packet_ping hstep with ⟨hsource, -, hresults, -⟩ | ⟨ip, hsource, -, -, hresults, -⟩ |
    ⟨ip, waker, result, hsource, hslot, -, hresults, -⟩
  · rw [hresults] at hi
    rw [pings_handled hsource]
    exact hf i hi
  · rw [hresults] at hi
    obtain ⟨p, hp, hreplied⟩ := hf i hi
    rw [getElem?_pings_handled hsource, hp]
    exact ⟨_, rfl, p.replied_hear ip hreplied⟩
  · rw [getElem?_pings_handled hsource]
    by_cases hi' : i = result
    · subst hi'
      obtain ⟨p, hp, rfl, hrequested, -⟩ := hb ip waker i hslot
      rw [hp]
      refine ⟨_, rfl, ?_⟩
      rw [Ping.hear, if_pos ⟨rfl, by rw [hrequested]; rfl⟩]
    · rw [hresults, Function.update_of_ne hi'] at hi
      obtain ⟨p, hp, hreplied⟩ := hf i hi
      rw [hp]
      exact ⟨_, rfl, p.replied_hear ip hreplied⟩

theorem Flags.step (hf : Flags s) (hb : Bound s) (hstep : s.step a = some s') : Flags s' := by
  cases step_move hstep with
  | rawPing =>
      intro i hi
      obtain ⟨p, hp, hreplied⟩ := hf i hi
      exact ⟨p, getElem?_concat_eq_some.mpr (.inl hp), hreplied⟩
  | pingPosted hping hsend hip =>
      rename_i k waker ping ip mac
      intro i hi
      obtain ⟨p, hp, hreplied⟩ := hf i hi
      by_cases hki : k = i
      · subst hki
        rw [hping, Option.some.injEq] at hp
        subst hp
        exact ⟨ping.posted, getElem?_set_eq_some.mpr
          (.inl ⟨rfl, (List.getElem?_eq_some_iff.mp hping).1, rfl⟩), hreplied⟩
      · exact ⟨p, getElem?_set_eq_some.mpr (.inr ⟨Ne.symm hki, hp⟩), hreplied⟩
  | handled hmail hh' =>
      rename_i letter rest h'
      obtain ⟨message, answers⟩ := letter
      cases message with
      | packet raw => exact hf.packet hb hh'
      | action request =>
          cases request with
          | sendArpRequest ip k =>
              obtain ⟨devices, rfl⟩ := step_sendArpRequest hh'
              exact hf
          | pingRequest waker ip mac k =>
              obtain ⟨devices, -, rfl⟩ := step_pingRequest hh'
              intro i hi
              obtain ⟨p, hp, hreplied⟩ := hf i hi
              refine ⟨_, getElem?_modify_eq_some.mpr ⟨p, hp, rfl⟩, ?_⟩
              split
              · exact hreplied
              · exact hreplied
  | _ => exact hf

end Step

/-! ### One request at a time -/

/-- Nobody asks for the address of a host twice, or starts a ping to a host that has not
answered the one before, or drops a call. -/
def Orderly (s : System) : Action → Prop
  | .getMac ip => ∀ c ∈ s.calls, c.ip ≠ ip
  | .rawPing ip _ => ∀ p ∈ s.pings, p.target = ip → p.replied = true
  | .cancelMac _ => False
  | _ => True

/-- What holds as long as everybody is orderly. -/
structure InTurn (s : System) : Prop where
  kept : Kept s
  pings : PingsKept s
  flags : Flags s
  live : ∀ (i : Nat) c, s.calls[i]? = some c → c.cancelled = false
  once : ∀ (i j : Nat) c d, s.calls[i]? = some c → s.calls[j]? = some d → c.ip = d.ip → i = j
  single : ∀ (i j : Nat) p q, s.pings[i]? = some p → s.pings[j]? = some q →
    p.target = q.target → p.replied = false → q.replied = false → i = j

section InTurn

variable {s s' : System} {a : Action}

theorem InTurn.unrivalled (h : InTurn s) (a : Action) : Unrivalled s a := by
  unfold Unrivalled
  split
  · split
    · rename_i ip k answers rest hmail
      intro c hmem hip hasked howed
      obtain ⟨i, hc⟩ := List.getElem?_of_mem hmem
      obtain ⟨d, hd, hip', hnew⟩ := posted_of_letter h.kept.sound hmail
      have hik := h.once i k c d hc hd (hip.trans hip'.symm)
      rw [hik, hd, Option.some.injEq] at hc
      rw [← hc, hnew] at hasked
      cases hasked
    · trivial
  · trivial

theorem InTurn.noOverlap (h : InTurn s) (a : Action) : NoOverlap s a := by
  unfold NoOverlap
  split
  · split
    · rename_i waker ip mac k answers rest hmail
      intro p hmem hip hasked
      by_contra hreplied
      obtain ⟨i, hp⟩ := List.getElem?_of_mem hmem
      obtain ⟨q, hq, -, hip', hnew, hwaits⟩ := ping_of_letter h.pings.pings.sound hmail
      have hik := h.single i k p q hp hq (hip.trans hip'.symm) (Bool.not_eq_true _ ▸ hreplied)
        hwaits
      rw [hik, hq, Option.some.injEq] at hp
      rw [← hp, hnew] at hasked
      cases hasked
    · trivial
  · trivial

theorem InTurn.step (h : InTurn s) (hclear : Orderly s a) (hstep : s.step a = some s') :
    InTurn s' := by
  have hopen : ∀ i, a ≠ .cancelMac i := by
    rintro i rfl
    exact hclear
  refine ⟨h.kept.step (h.unrivalled a) hstep, h.pings.step (h.noOverlap a) hstep,
    h.flags.step h.pings.pings.bound hstep, ?_, ?_, ?_⟩
  · intro i c' hc'
    rcases call_of_step hstep hopen hc' with ⟨c, hc, -, hcancelled⟩ | ⟨-, -, hcancelled⟩
    · rw [hcancelled]
      exact h.live i c hc
    · exact hcancelled
  · intro i j c' d' hc' hd' hip
    rcases call_of_step hstep hopen hc' with ⟨c, hc, hcip, -⟩ | ⟨ha, hi, -⟩
    · rcases call_of_step hstep hopen hd' with ⟨d, hd, hdip, -⟩ | ⟨ha, -, -⟩
      · exact h.once i j c d hc hd (hcip.symm.trans (hip.trans hdip))
      · subst ha
        exact absurd (hcip.symm.trans hip) (hclear c (List.mem_of_getElem? hc))
    · rcases call_of_step hstep hopen hd' with ⟨d, hd, hdip, -⟩ | ⟨-, hj, -⟩
      · subst ha
        exact absurd (hdip.symm.trans hip.symm) (hclear d (List.mem_of_getElem? hd))
      · rw [hi, hj]
  · intro i j p' q' hp' hq' htarget hpnew hqnew
    rcases ping_of_step hstep hp' with ⟨p, hp, hpt, hpr⟩ | ⟨mac, ha, hi⟩
    · rcases ping_of_step hstep hq' with ⟨q, hq, hqt, hqr⟩ | ⟨mac, ha, -⟩
      · exact h.single i j p q hp hq (hpt.symm.trans (htarget.trans hqt)) (hpr hpnew) (hqr hqnew)
      · subst ha
        have hreplied := hclear p (List.mem_of_getElem? hp) (hpt.symm.trans htarget)
        rw [hpr hpnew] at hreplied
        cases hreplied
    · rcases ping_of_step hstep hq' with ⟨q, hq, hqt, hqr⟩ | ⟨-, -, hj⟩
      · subst ha
        have hreplied := hclear q (List.mem_of_getElem? hq) (hqt.symm.trans htarget.symm)
        rw [hqr hqnew] at hreplied
        cases hreplied
      · rw [hi, hj]

theorem InTurn.start {h : Handler} (harp : ∀ ip, h.arp ip = none) (hping : ∀ ip, h.ping ip = none)
    (hresults : ∀ i, h.results i = false) : InTurn (System.start h) where
  kept := .start harp
  pings := .start hping
  flags := fun i hi => by
    rw [show (System.start h).handler.results i = h.results i from rfl, hresults] at hi
    cases hi
  live := fun i c hc => by cases hc
  once := fun i j c d hc => by cases hc
  single := fun i j p q hp => by cases hp

end InTurn

end Rucoonos.Net
