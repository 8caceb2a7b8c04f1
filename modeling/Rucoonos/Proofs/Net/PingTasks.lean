/-
The tasks that ping: `ping` of `main.rs`.

Such a task asks for the address of its target once, and then makes one ping after the
other: it waits for the flag of the ping, logs that it was received, and yields.  Any
number of tasks run beside the handler, which takes their requests and the frames off its
queue; the kernel may poll a task at any time, also when nothing has happened to it.

A task panics if `get_mac` returns without an address.  It is stuck if its request or its
place in the handler's maps is lost, or if it is not woken.  `ping_tasks` says that
neither happens as long as no two tasks have the same target.

The queue that `get_mac` waits on and the future of `yield_now` come from other crates.
When they wake a task is a parameter here, `Crates`, and what the tasks need of it are the
hypotheses of `ping_tasks`.
-/
import Rucoonos.Proofs.Net.InTurn

namespace Rucoonos.Net

open Pending

/-! ### `ping` -/

/-- When futures of other crates wake the task that waits for them. -/
structure Crates where
  /-- The bounded queue of `nolock`, when it changes like this, wakes its receiver. -/
  wakesReceiver : RetQueue → RetQueue → Bool
  /-- A poll of `rucoon`'s `yield_now` that is pending wakes the task. -/
  yieldWakes : Bool
  /-- Its second poll is ready. -/
  yieldReady : Bool

/-- A receiver that can go on is woken. -/
def Crates.WakesReady (crates : Crates) : Prop :=
  ∀ q q', getMacPoll q = none → (getMacPoll q').isSome = true → crates.wakesReceiver q q' = true

/-- Where a task is suspended. -/
inductive PingPoint
  | start
  | getMac (call : Nat)
  | rawPing (mac : Mac) (ping : Nat)
  | yieldNow (mac : Mac)
  deriving DecidableEq, Repr

/-- A task that runs `ping(target)`. -/
structure PingTask where
  target : Ip
  point : PingPoint
  /-- It is on the run queue of the kernel. -/
  queued : Bool
  /-- How often it has logged `Received Ping`. -/
  received : Nat
  deriving DecidableEq, Repr

/-- `raw_ping(..).await` is polled, and if that is ready, `yield_now().await`. -/
def PingTask.pollPing (crates : Crates) (t : PingTask) (waker : Nat) (mac : Mac) (ping : Nat)
    (s : System) : Option (PingTask × System) :=
  (s.step (.pollPing ping waker)).map fun s' =>
    if s.handler.results ping = true then
      ({ t with
          point := .yieldNow mac
          queued := crates.yieldWakes
          received := t.received + 1 }, s')
    else ({ t with point := .rawPing mac ping }, s')

/-- The body of the loop. -/
def PingTask.round (crates : Crates) (t : PingTask) (waker : Nat) (mac : Mac) (s : System) :
    Option (PingTask × System) :=
  (s.step (.rawPing t.target mac)).bind (t.pollPing crates waker mac s.pings.length)

/-- `get_mac(..).await` is polled. -/
def PingTask.pollMac (crates : Crates) (t : PingTask) (waker call : Nat) (s : System) :
    Option (PingTask × System) :=
  (s.step (.pollMac call)).bind fun s =>
    match s.calls[call]?.bind Call.returned with
    | none => some ({ t with point := .getMac call }, s)
    -- `expect("")`
    | some none => none
    | some (some mac) => t.round crates waker mac s

/-- A poll of `ping`, up to where it is suspended next; there is none if it panics. -/
def PingTask.poll (crates : Crates) (t : PingTask) (waker : Nat) (s : System) :
    Option (PingTask × System) :=
  match t.point with
  | .start => (s.step (.getMac t.target)).bind (t.pollMac crates waker s.calls.length)
  | .getMac call => t.pollMac crates waker call s
  | .rawPing mac ping => t.pollPing crates waker mac ping s
  | .yieldNow mac =>
      if crates.yieldReady = true then t.round crates waker mac s
      else some ({ t with queued := crates.yieldWakes }, s)

/-! ### Tasks beside the handler -/

structure Pinging where
  sys : System
  /-- A task has the number of its waker. -/
  tasks : List PingTask
  /-- The echo replies from an address that the handler has processed. -/
  replies : Ip → Nat

inductive PingEvent
  | poll (task : Nat)
  | receive (raw : RawPacket)
  | handle
  deriving DecidableEq, Repr

/-- Whether a step of the handler wakes a task. -/
def wakes (crates : Crates) (s s' : System) (k : Nat) (t : PingTask) : Bool :=
  (s'.handler.woken.drop s.handler.woken.length).contains k ||
    match t.point with
    | .getMac call => crates.wakesReceiver (s.handler.retQueues call) (s'.handler.retQueues call)
    | _ => false

def wakeTask (crates : Crates) (s s' : System) (k : Nat) (t : PingTask) : PingTask :=
  { t with queued := t.queued || wakes crates s s' k t }

/-- The replies that the handler has processed after its next step. -/
def repliesAfter (s : System) (replies : Ip → Nat) (ip : Ip) : Nat :=
  replies ip + if s.repliedBy = some ip then 1 else 0

def Pinging.step (crates : Crates) (n : Pinging) : PingEvent → Option Pinging
  | .poll k =>
      match n.tasks[k]? with
      | none => none
      | some t => ({ t with queued := false }.poll crates k n.sys).map fun (t', s') =>
          { n with sys := s', tasks := n.tasks.set k t' }
  | .receive raw => (n.sys.step (.receive raw none)).map fun s' => { n with sys := s' }
  | .handle => (n.sys.step .handle).map fun s' => {
      sys := s'
      tasks := n.tasks.mapIdx (wakeTask crates n.sys s')
      replies := repliesAfter n.sys n.replies }

/-- The tasks have been added to the kernel, which puts them on its run queue. -/
def Pinging.start (h : Handler) (targets : List Ip) : Pinging :=
  ⟨.start h, targets.map fun target => ⟨target, .start, true, 0⟩, fun _ => 0⟩

/-! ### Where a task stands -/

/-- The addresses that were pinged, in order. -/
def System.pinged (s : System) : List Ip := s.pings.map Ping.target

theorem map_set_same {A B : Type} {f : A → B} {l : List A} {i : Nat} {x y : A}
    (hy : l[i]? = some y) (hxy : f x = f y) : (l.set i x).map f = l.map f := by
  obtain ⟨hlt, rfl⟩ := List.getElem?_eq_some_iff.mp hy
  rw [List.map_set, hxy, ← List.getElem_map f (h := by rwa [List.length_map])]
  exact List.set_getElem_self _

theorem map_modify_same {A B : Type} {f : A → B} {g : A → A} (hg : ∀ x, f (g x) = f x)
    (l : List A) (i : Nat) : (l.modify i g).map f = l.map f := by
  refine List.ext_getElem? fun j => ?_
  rw [List.getElem?_map, List.getElem?_modify, List.getElem?_map]
  cases l[j]? with
  | none => rfl
  | some x =>
      show some (f (if i = j then g x else x)) = some (f x)
      split
      · rw [hg]
      · rfl

/-- The address that a call for `target` has returned. -/
def Known (s : System) (target : Ip) (mac : Mac) : Prop :=
  ∃ (i : Nat) (c : Call), s.calls[i]? = some c ∧ c.ip = target ∧ c.returned = some (some mac)

/-- Nobody has asked for the host yet. -/
structure Fresh (s : System) (target : Ip) : Prop where
  calls : ∀ (i : Nat) c, s.calls[i]? = some c → c.ip ≠ target
  made : s.pinged.count target = 0

/-- `call` is waiting for the address of the host. -/
structure Resolving (s : System) (target : Ip) (call : Nat) : Prop where
  posted : ∃ c, s.calls[call]? = some c ∧ c.ip = target ∧ c.returned = none ∧
    (c.requested = false → ⟨.action (.sendArpRequest target call), none⟩ ∈ s.mailbox)
  made : s.pinged.count target = 0

/-- `ping` is waiting for the host, and all before it were answered. -/
structure Outstanding (s : System) (replies : Ip → Nat) (k : Nat) (target : Ip) (received : Nat)
    (mac : Mac) (ping : Nat) : Prop where
  known : Known s target mac
  posted : ∃ p, s.pings[ping]? = some p ∧ p.target = target ∧ p.future.send = true ∧
    (p.requested = none → ⟨.action (.pingRequest k target mac ping), none⟩ ∈ s.mailbox) ∧
    (∀ waker, p.requested = some waker → waker = k) ∧
    received + p.replied.toNat ≤ replies target
  others : ∀ (j : Nat) q, s.pings[j]? = some q → q.target = target → j ≠ ping → q.replied = true
  made : s.pinged.count target = received + 1

/-- All pings to the host were answered. -/
structure AllAnswered (s : System) (replies : Ip → Nat) (target : Ip) (received : Nat)
    (mac : Mac) : Prop where
  known : Known s target mac
  replied : ∀ (j : Nat) q, s.pings[j]? = some q → q.target = target → q.replied = true
  made : s.pinged.count target = received
  answered : received ≤ replies target

/-- A task that is not on the run queue could do nothing if it were polled. -/
def TaskOK (s : System) (replies : Ip → Nat) (k : Nat) (t : PingTask) : Prop :=
  match t.point with
  | .start => Fresh s t.target ∧ t.received = 0 ∧ t.queued = true
  | .getMac call => Resolving s t.target call ∧ t.received = 0 ∧
      (t.queued = false → getMacPoll (s.handler.retQueues call) = none)
  | .rawPing mac ping => Outstanding s replies k t.target t.received mac ping ∧
      (t.queued = false → s.handler.results ping = false)
  | .yieldNow mac => AllAnswered s replies t.target t.received mac ∧ t.queued = true

/-! ### What is not done for a host leaves its task alone -/

/-- What an action is about. -/
def Concerns (s : System) (target : Ip) : Action → Prop
  | .getMac ip => ip = target
  | .pollMac i => ∃ c, s.calls[i]? = some c ∧ c.ip = target
  | .cancelMac i => ∃ c, s.calls[i]? = some c ∧ c.ip = target
  | .rawPing ip _ => ip = target
  | .pollPing i _ => ∃ p, s.pings[i]? = some p ∧ p.target = target
  | .receive .. => False
  | .handle => True

/-- Nothing has changed for the host. -/
structure Apart (target : Ip) (s s' : System) : Prop where
  calls : ∀ (i : Nat) c, c.ip = target → (s'.calls[i]? = some c ↔ s.calls[i]? = some c)
  queue : ∀ (i : Nat) c, s.calls[i]? = some c → c.ip = target →
    s'.handler.retQueues i = s.handler.retQueues i
  pings : ∀ (i : Nat) p, p.target = target → (s'.pings[i]? = some p ↔ s.pings[i]? = some p)
  results : s'.handler.results = s.handler.results
  mail : ∀ letter ∈ s.mailbox, letter ∈ s'.mailbox
  made : s'.pinged.count target = s.pinged.count target

section Apart

variable {s s' s'' : System} {a : Action} {target : Ip}

theorem Apart.refl (target : Ip) (s : System) : Apart target s s :=
  ⟨fun _ _ _ => .rfl, fun _ _ _ _ => rfl, fun _ _ _ => .rfl, rfl, fun _ h => h, rfl⟩

theorem Apart.trans (h : Apart target s s') (h' : Apart target s' s'') : Apart target s s'' where
  calls := fun i c hip => (h'.calls i c hip).trans (h.calls i c hip)
  queue := fun i c hc hip =>
    (h'.queue i c ((h.calls i c hip).mpr hc) hip).trans (h.queue i c hc hip)
  pings := fun i p hp => (h'.pings i p hp).trans (h.pings i p hp)
  results := h'.results.trans h.results
  mail := fun letter hmem => h'.mail letter (h.mail letter hmem)
  made := h'.made.trans h.made

/-- The record and the queue of a call for another host. -/
theorem apart_setQueue {k : Nat} {c c' : Call} {q : RetQueue} (hc : s.calls[k]? = some c)
    (hne : c.ip ≠ target) (hsame : c'.ip = c.ip) :
    Apart target s (System.setQueue { s with calls := s.calls.set k c' } k q) := by
  have hother : ∀ (i : Nat) d, s.calls[i]? = some d → d.ip = target → i ≠ k := by
    rintro i d hd hip rfl
    rw [hc, Option.some.injEq] at hd
    exact hne (hd ▸ hip)
  refine { Apart.refl target s with calls := ?_, queue := ?_ }
  · intro i d hip
    refine getElem?_set_eq_some.trans ⟨?_, fun hd => .inr ⟨hother i d hd hip, hd⟩⟩
    rintro (⟨rfl, -, rfl⟩ | ⟨-, hd⟩)
    · exact absurd (hsame.symm.trans hip) hne
    · exact hd
  · intro i d hd hip
    exact Function.update_of_ne (hother i d hd hip) ..

theorem apart_step (hno : ¬ Concerns s target a) (hstep : s.step a = some s') :
    Apart target s s' := by
  cases step_move hstep with
  | getMac =>
      rename_i ip
      refine { Apart.refl target s with calls := ?_, queue := ?_, mail := ?_ }
      · intro i c hip
        refine getElem?_concat_eq_some.trans (or_iff_left ?_)
        rintro ⟨-, rfl⟩
        exact hno hip
      · intro i c hc hip
        exact Function.update_of_ne (Nat.ne_of_lt (List.getElem?_eq_some_iff.mp hc).1) ..
      · exact fun _ hmem => List.mem_append_left _ hmem
  | returned hcall hopen hpoll => exact apart_setQueue hcall (fun hip => hno ⟨_, hcall, hip⟩) rfl
  | cancelled hcall hopen => exact apart_setQueue hcall (fun hip => hno ⟨_, hcall, hip⟩) rfl
  | rawPing =>
      rename_i ip mac
      have hne : ip ≠ target := hno
      refine { Apart.refl target s with pings := ?_, made := ?_ }
      · intro i p htarget
        refine getElem?_concat_eq_some.trans (or_iff_left ?_)
        rintro ⟨-, rfl⟩
        exact hne htarget
      · show ((s.pings ++ [_]).map Ping.target).count target = _
        rw [List.map_append, List.count_append]
        exact Nat.add_eq_left.mpr (List.count_singleton.trans (if_neg (by simpa using hne)))
  | pingPosted hping hsend hip =>
      rename_i k waker ping ip mac
      refine { Apart.refl target s with pings := ?_, mail := ?_, made := ?_ }
      · intro i p htarget
        refine getElem?_set_eq_some.trans ⟨?_, fun hp => .inr ⟨?_, hp⟩⟩
        · rintro (⟨rfl, -, rfl⟩ | ⟨-, hp⟩)
          · exact absurd ⟨ping, hping, htarget⟩ hno
          · exact hp
        · rintro rfl
          exact hno ⟨p, hp, htarget⟩
      · exact fun _ hmem => List.mem_append_left _ hmem
      · exact congrArg (List.count target) (map_set_same hping rfl)
  | receive => exact { Apart.refl target s with mail := fun _ hmem => List.mem_append_left _ hmem }
  | handled hmail hh' => exact absurd trivial hno
  | _ => exact .refl target s

theorem Known.apart {mac : Mac} (hk : Known s target mac) (h : Apart target s s') :
    Known s' target mac := by
  obtain ⟨i, c, hc, hip, hreturned⟩ := hk
  exact ⟨i, c, (h.calls i c hip).mpr hc, hip, hreturned⟩

theorem TaskOK.apart {replies : Ip → Nat} {k : Nat} {t : PingTask} (ht : TaskOK s replies k t)
    (h : Apart t.target s s') : TaskOK s' replies k t := by
  unfold TaskOK at ht ⊢
  cases hpoint : t.point with
  | start =>
      rw [hpoint] at ht
      obtain ⟨hfresh, hrest⟩ := ht
      refine ⟨⟨fun i c hc hip => ?_, h.made.trans hfresh.made⟩, hrest⟩
      exact hfresh.calls i c ((h.calls i c hip).mp hc) hip
  | getMac call =>
      rw [hpoint] at ht
      obtain ⟨⟨⟨c, hc, hip, hopen, hletter⟩, hmade⟩, hreceived, hasleep⟩ := ht
      refine ⟨⟨⟨c, (h.calls call c hip).mpr hc, hip, hopen, fun hnew => h.mail _ (hletter hnew)⟩,
        h.made.trans hmade⟩, hreceived, ?_⟩
      show _ → getMacPoll (s'.handler.retQueues call) = none
      rw [h.queue call c hc hip]
      exact hasleep
  | rawPing mac ping =>
      rw [hpoint] at ht
      obtain ⟨⟨hknown, ⟨p, hp, htarget, hsend, hletter, hrest⟩, hothers, hmade⟩, hasleep⟩ := ht
      refine ⟨⟨hknown.apart h, ⟨p, (h.pings ping p htarget).mpr hp, htarget, hsend,
        fun hnew => h.mail _ (hletter hnew), hrest⟩, ?_, h.made.trans hmade⟩, ?_⟩
      · intro j q hq hqt
        exact hothers j q ((h.pings j q hqt).mp hq) hqt
      · show _ → s'.handler.results ping = false
        rw [h.results]
        exact hasleep
  | yieldNow mac =>
      rw [hpoint] at ht
      obtain ⟨⟨hknown, hreplied, hmade, hanswered⟩, hqueued⟩ := ht
      refine ⟨⟨hknown.apart h, ?_, h.made.trans hmade, hanswered⟩, hqueued⟩
      intro j q hq hqt
      exact hreplied j q ((h.pings j q hqt).mp hq) hqt

end Apart

/-! ### Polls -/

/-- What a poll of a task leads to. -/
structure Polled (replies : Ip → Nat) (k : Nat) (target : Ip) (s : System) (t' : PingTask)
    (s' : System) : Prop where
  inTurn : InTurn s'
  task : TaskOK s' replies k t'
  same : t'.target = target
  apart : ∀ ip, ip ≠ target → Apart ip s s'

section Poll

variable {crates : Crates} {s s' : System} {replies : Ip → Nat} {k : Nat} {t t' : PingTask}

/-- A future that has posted its request does nothing more. -/
theorem pollPing_of_sent {i waker : Nat} {p : Ping} (hp : s.pings[i]? = some p)
    (hsend : p.future.send = true) : s.step (.pollPing i waker) = some s := by
  have hset : s.pings.set i p = s.pings := by
    obtain ⟨hlt, rfl⟩ := List.getElem?_eq_some_iff.mp hp
    exact List.set_getElem_self hlt
  simp only [System.step, hp, PingFuture.poll, hsend]
  cases hflag : s.handler.results p.future.returned with
  | true =>
      show some { s with pings := s.pings.set i p } = some s
      rw [hset]
  | false =>
      show some { s with pings := s.pings.set i p } = some s
      rw [hset]

theorem Outstanding.poll (hyield : crates.yieldWakes = true) {mac : Mac} {ping : Nat}
    (h : InTurn s) (ho : Outstanding s replies k t.target t.received mac ping) :
    ∃ t' s', t.pollPing crates k mac ping s = some (t', s') ∧
      Polled replies k t.target s t' s' := by
  obtain ⟨p, hp, htarget, hsend, hletter, hwaker, hbound⟩ := ho.posted
  rw [PingTask.pollPing, pollPing_of_sent hp hsend]
  by_cases hflag : s.handler.results ping = true
  · simp only [Option.map_some, if_pos hflag]
    refine ⟨_, _, rfl, h, ⟨⟨ho.known, ?_, ho.made, ?_⟩, hyield⟩, rfl, fun ip _ => .refl ip s⟩
    · intro j q hq hqt
      by_cases hj : j = ping
      · subst hj
        obtain ⟨p', hp', hreplied⟩ := h.flags j hflag
        rw [hq, Option.some.injEq] at hp'
        rw [hp']
        exact hreplied
      · exact ho.others j q hq hqt hj
    · obtain ⟨p', hp', hreplied⟩ := h.flags ping hflag
      rw [hp, Option.some.injEq] at hp'
      rw [hp', hreplied] at hbound
      exact hbound
  · simp only [Option.map_some, if_neg hflag]
    exact ⟨_, _, rfl, h, ⟨ho, fun _ => Bool.not_eq_true _ ▸ hflag⟩, rfl, fun ip _ => .refl ip s⟩

/-- A ping as `raw_ping` makes it. -/
def Ping.new (target : Ip) (mac : Mac) (i : Nat) : Ping :=
  ⟨target, rawPing target mac i, none, false⟩

/-- The system when a task has started its next round. -/
def System.nextRound (s : System) (k : Nat) (target : Ip) (mac : Mac) : System :=
  System.post { s with pings := s.pings ++ [(Ping.new target mac s.pings.length).posted] }
    (.action (.pingRequest k target mac s.pings.length)) none

/-- A new ping posts its request when it is polled. -/
theorem pollPing_of_new {target : Ip} {mac : Mac}
    (hflag : s.handler.results s.pings.length = false) :
    System.step { s with pings := s.pings ++ [Ping.new target mac s.pings.length] }
      (.pollPing s.pings.length k) = some (s.nextRound k target mac) := by
  have hnew : (s.pings ++ [Ping.new target mac s.pings.length])[s.pings.length]?
      = some (Ping.new target mac s.pings.length) := List.getElem?_concat_length
  have hflag' : s.handler.results (Ping.new target mac s.pings.length).future.returned = false :=
    hflag
  simp only [System.step, hnew, PingFuture.poll, hflag']
  have hset : (s.pings ++ [Ping.new target mac s.pings.length]).set s.pings.length
      (Ping.new target mac s.pings.length).posted
        = s.pings ++ [(Ping.new target mac s.pings.length).posted] := by simp
  rw [System.nextRound, ← hset]
  rfl

/-- A round ends with the request for a new ping, whose flag is not set. -/
theorem round_eq (crates : Crates) (h : InTurn s) (k : Nat) (mac : Mac) (t : PingTask) :
    s.handler.results s.pings.length = false ∧
      System.step { s with pings := s.pings ++ [Ping.new t.target mac s.pings.length] }
        (.pollPing s.pings.length k) = some (s.nextRound k t.target mac) ∧
      t.round crates k mac s = some ({ t with point := .rawPing mac s.pings.length },
        s.nextRound k t.target mac) := by
  have hunset : s.handler.results s.pings.length = false := by
    by_contra hset
    obtain ⟨p, hp, -⟩ := h.flags s.pings.length (Bool.not_eq_false _ ▸ hset)
    rw [List.getElem?_eq_none (Nat.le_refl _)] at hp
    cases hp
  have hstart : s.step (.rawPing t.target mac) = some
    { s with pings := s.pings ++ [Ping.new t.target mac s.pings.length] } := rfl
  have hpoll : System.step { s with pings := s.pings ++ [Ping.new t.target mac s.pings.length] }
      (.pollPing s.pings.length k) = some (s.nextRound k t.target mac) := pollPing_of_new hunset
  refine ⟨hunset, hpoll, ?_⟩
  rw [PingTask.round, hstart, Option.bind_some, PingTask.pollPing, hpoll, Option.map_some,
    if_neg (by rw [hunset]; exact Bool.false_ne_true)]

theorem AllAnswered.round (crates : Crates) (k : Nat) {mac : Mac} (h : InTurn s)
    (ha : AllAnswered s replies t.target t.received mac) :
    ∃ t' s', t.round crates k mac s = some (t', s') ∧ Polled replies k t.target s t' s' := by
  obtain ⟨hunset, hpoll, hround⟩ := round_eq crates h k mac t
  have hstart : s.step (.rawPing t.target mac) = some
    { s with pings := s.pings ++ [Ping.new t.target mac s.pings.length] } := rfl
  have hclear : Orderly s (.rawPing t.target mac) := by
    intro p hmem htarget
    obtain ⟨i, hp⟩ := List.getElem?_of_mem hmem
    exact ha.replied i p hp htarget
  have h' : InTurn (s.nextRound k t.target mac) :=
    (h.step hclear hstart).step (a := .pollPing _ _) trivial hpoll
  refine ⟨_, _, hround, h', ⟨⟨ha.known, ?_, ?_, ?_⟩, ?_⟩, rfl, ?_⟩
  · exact ⟨_, List.getElem?_concat_length, rfl, rfl,
      fun _ => List.mem_append_right _ (List.mem_singleton_self _), fun w hw => (by cases hw),
      ha.answered⟩
  · intro j q hq hqt hj
    rcases getElem?_concat_eq_some.mp hq with hq | ⟨hlast, -⟩
    · exact ha.replied j q hq hqt
    · exact absurd hlast hj
  · show ((s.pings ++ [_]).map Ping.target).count t.target = _
    rw [List.map_append, List.count_append, show (s.pings.map Ping.target).count t.target = _
      from ha.made]
    exact congrArg _ (List.count_singleton_self)
  · exact fun _ => hunset
  · intro ip hne
    have hother : ¬ Concerns s ip (.rawPing t.target mac) := Ne.symm hne
    refine (apart_step hother hstart).trans (apart_step ?_ hpoll)
    rintro ⟨p, hp, hip⟩
    rw [show (s.pings ++ [Ping.new t.target mac s.pings.length])[s.pings.length]?
      = some (Ping.new t.target mac s.pings.length) from List.getElem?_concat_length,
      Option.some.injEq] at hp
    rw [← hp] at hip
    exact hne hip.symm

theorem pollMac_of_pending {call : Nat} {c : Call} (hc : s.calls[call]? = some c)
    (hopen : c.returned = none) (hlive : c.cancelled = false)
    (hpoll : getMacPoll (s.handler.retQueues call) = none) : s.step (.pollMac call) = some s := by
  simp only [System.step, hc, hopen, hlive, and_self, if_true, hpoll]

theorem pollMac_of_returned {call : Nat} {c : Call} {result : Option Mac} {queue : RetQueue}
    (hc : s.calls[call]? = some c) (hopen : c.returned = none) (hlive : c.cancelled = false)
    (hpoll : getMacPoll (s.handler.retQueues call) = some (result, queue)) :
    s.step (.pollMac call) = some (System.setQueue
      { s with calls := s.calls.set call { c with returned := some result } } call queue) := by
  simp only [System.step, hc, hopen, hlive, and_self, if_true, hpoll]

theorem Resolving.poll (crates : Crates) (k : Nat) {call : Nat} (h : InTurn s)
    (hr : Resolving s t.target call) (hreceived : t.received = 0) :
    ∃ t' s', t.pollMac crates k call s = some (t', s') ∧ Polled replies k t.target s t' s' := by
  obtain ⟨c, hc, hip, hopen, hletter⟩ := hr.posted
  have hlive := h.live call c hc
  have houtcome := h.kept.noWaiterLost call c hc hlive
  simp only [System.outcome, hopen] at houtcome
  cases hpoll : getMacPoll (s.handler.retQueues call) with
  | none =>
      have hstep := pollMac_of_pending hc hopen hlive hpoll
      rw [PingTask.pollMac, hstep, Option.bind_some, hc, Option.bind_some, hopen]
      exact ⟨_, _, rfl, h, ⟨hr, hreceived, fun _ => hpoll⟩, rfl, fun ip _ => .refl ip s⟩
  | some r =>
      obtain ⟨result, queue⟩ := r
      -- What the call returns is what it is owed, and so it is an address.
      rw [hpoll] at houtcome
      obtain ⟨mac, -, hresult⟩ := Option.map_eq_some_iff.mp houtcome.symm
      have hresult : some mac = result := hresult
      subst hresult
      have hstep := pollMac_of_returned hc hopen hlive hpoll
      have hset : (s.calls.set call { c with returned := some (some mac) })[call]?
          = some { c with returned := some (some mac) } :=
        List.getElem?_set_self (List.getElem?_eq_some_iff.mp hc).1
      have hother : ∀ ip, ip ≠ t.target → ¬ Concerns s ip (.pollMac call) := by
        rintro ip hne ⟨d, hd, hdip⟩
        rw [hc, Option.some.injEq] at hd
        exact hne (hdip.symm.trans (hd ▸ hip))
      have h₁ := h.step (a := .pollMac call) trivial hstep
      generalize hs₁ : System.setQueue
        { s with calls := s.calls.set call { c with returned := some (some mac) } } call queue = s₁
          at hstep h₁
      have hcalls : s₁.calls[call]? = some { c with returned := some (some mac) } := by
        rw [← hs₁]
        exact hset
      have hpings : s₁.pings = s.pings := by rw [← hs₁]; rfl
      have hnone : ∀ (j : Nat) q, s₁.pings[j]? = some q → q.target ≠ t.target := by
        intro j q hq hqt
        rw [hpings] at hq
        refine List.count_eq_zero.mp hr.made ?_
        rw [← hqt]
        exact List.mem_map_of_mem (List.mem_of_getElem? hq)
      have hall : AllAnswered s₁ replies t.target t.received mac := by
        refine ⟨⟨call, _, hcalls, hip, rfl⟩, ?_, ?_, ?_⟩
        · intro j q hq hqt
          exact absurd hqt (hnone j q hq)
        · rw [System.pinged, hpings, hreceived]
          exact hr.made
        · rw [hreceived]
          exact Nat.zero_le _
      obtain ⟨t', s', hround, hpolled⟩ := hall.round crates k h₁
      refine ⟨t', s', ?_, hpolled.inTurn, hpolled.task, hpolled.same, ?_⟩
      · rw [PingTask.pollMac, hstep, Option.bind_some, hcalls]
        exact hround
      · intro ip hne
        exact (apart_step (hother ip hne) hstep).trans (hpolled.apart ip hne)

theorem Fresh.poll (h : InTurn s) (hf : Fresh s t.target) (hreceived : t.received = 0) :
    ∃ t' s', (s.step (.getMac t.target)).bind (t.pollMac crates k s.calls.length)
        = some (t', s') ∧
      Polled replies k t.target s t' s' := by
  have hstep : s.step (.getMac t.target) = some (System.post (System.setQueue
    { s with calls := s.calls ++ [Call.new t.target] } s.calls.length .new)
      (.action (.sendArpRequest t.target s.calls.length)) none) := rfl
  have hclear : Orderly s (.getMac t.target) := by
    intro c hmem
    obtain ⟨i, hc⟩ := List.getElem?_of_mem hmem
    exact hf.calls i c hc
  have hresolving : Resolving (System.post (System.setQueue
      { s with calls := s.calls ++ [Call.new t.target] } s.calls.length .new)
        (.action (.sendArpRequest t.target s.calls.length)) none) t.target s.calls.length :=
    ⟨⟨Call.new t.target, List.getElem?_concat_length, rfl, rfl,
      fun _ => List.mem_append_right _ (List.mem_singleton_self _)⟩, hf.made⟩
  obtain ⟨t', s', hpoll, hpolled⟩ :=
    hresolving.poll crates k (h.step hclear hstep) hreceived
  refine ⟨t', s', ?_, hpolled.inTurn, hpolled.task, hpolled.same, ?_⟩
  · rw [hstep, Option.bind_some]
    exact hpoll
  · intro ip hne
    have hother : ¬ Concerns s ip (.getMac t.target) := Ne.symm hne
    exact (apart_step hother hstep).trans (hpolled.apart ip hne)

/-- **A task can be polled at any time.** -/
theorem TaskOK.poll (hyield : crates.yieldWakes = true) (h : InTurn s)
    (ht : TaskOK s replies k t) :
    ∃ t' s', PingTask.poll crates { t with queued := false } k s = some (t', s') ∧
      Polled replies k t.target s t' s' := by
  obtain ⟨target, point, queued, received⟩ := t
  cases point with
  | start => exact Fresh.poll (t := ⟨target, .start, false, received⟩) h ht.1 ht.2.1
  | getMac call =>
      exact Resolving.poll (t := ⟨target, .getMac call, false, received⟩) crates k h ht.1 ht.2.1
  | rawPing mac ping =>
      exact Outstanding.poll (t := ⟨target, .rawPing mac ping, false, received⟩) hyield h ht.1
  | yieldNow mac =>
      simp only [PingTask.poll]
      split
      · exact AllAnswered.round (t := ⟨target, .yieldNow mac, false, received⟩) crates k h ht.1
      · exact ⟨_, _, rfl, h, ⟨ht.1, hyield⟩, rfl, fun ip _ => .refl ip s⟩

end Poll

/-! ### Steps of the handler -/

section Handle

variable {s s' : System}

/-- A letter that is not taken stays. -/
theorem mem_rest {letter head : Letter} {rest : List Letter} (hmail : s.mailbox = head :: rest)
    (hmem : letter ∈ s.mailbox) (hne : letter ≠ head) : letter ∈ rest := by
  rw [hmail] at hmem
  exact (List.mem_cons.mp hmem).resolve_left hne

/-- A call that was not asked for keeps its letter. -/
theorem call_handled (hstep : s.step .handle = some s') {i : Nat} {c : Call}
    (hc : s.calls[i]? = some c) :
    ∃ c', s'.calls[i]? = some c' ∧ c'.ip = c.ip ∧ c'.returned = c.returned ∧
      (c'.requested = false → c.requested = false ∧
        ∀ ip, ⟨.action (.sendArpRequest ip i), none⟩ ∈ s.mailbox →
          ⟨.action (.sendArpRequest ip i), none⟩ ∈ s'.mailbox) := by
  cases step_move hstep with
  | handled hmail hh' =>
      rename_i letter rest h'
      obtain ⟨message, answers⟩ := letter
      cases message with
      | packet raw =>
          have hkeep : ∀ ip, ⟨.action (.sendArpRequest ip i), none⟩ ∈ s.mailbox →
              ⟨.action (.sendArpRequest ip i), none⟩ ∈ rest :=
            fun ip hmem => mem_rest hmail hmem (by simp)
          cases hresponse : response s.handler (.packet raw) with
          | none =>
              refine ⟨c, ?_, rfl, rfl, fun hnew => ⟨hnew, hkeep⟩⟩
              rw [calls_handled hresponse]
              exact hc
          | some r =>
              obtain ⟨hip, hreturned, -, hrequested⟩ := c.hear_same r.1 r.2
              refine ⟨c.hear r.1 r.2, ?_, hip, hreturned, fun hnew => ⟨?_, hkeep⟩⟩
              · simp only [System.handled, noteCalls, hresponse, List.getElem?_map, hc,
                  Option.map_some]
              · rw [← hrequested]
                exact hnew
      | action request =>
          cases request with
          | sendArpRequest ip k =>
              refine ⟨_, getElem?_modify_eq_some.mpr ⟨c, hc, rfl⟩, ?_⟩
              by_cases hki : k = i
              · rw [if_pos hki]
                exact ⟨rfl, rfl, fun hnew => by cases hnew⟩
              · rw [if_neg hki]
                refine ⟨rfl, rfl, fun hnew => ⟨hnew, fun ip' hmem => mem_rest hmail hmem ?_⟩⟩
                intro heq
                simp only [Letter.mk.injEq, HandlerMessage.action.injEq,
                  ActionRequest.sendArpRequest.injEq] at heq
                exact hki heq.1.2.symm
          | pingRequest waker ip mac k =>
              exact ⟨c, hc, rfl, rfl, fun hnew => ⟨hnew, fun ip' hmem => mem_rest hmail hmem
                (by simp)⟩⟩

/-- A ping keeps its letter or its request is taken, and it hears the replies of its target. -/
theorem ping_handled (hstep : s.step .handle = some s') {i : Nat} {p : Ping}
    (hp : s.pings[i]? = some p) :
    ∃ p', s'.pings[i]? = some p' ∧ p'.target = p.target ∧ p'.future = p.future ∧
      ((p'.requested = p.requested ∧
          ∀ waker ip mac, ⟨.action (.pingRequest waker ip mac i), none⟩ ∈ s.mailbox →
            ⟨.action (.pingRequest waker ip mac i), none⟩ ∈ s'.mailbox) ∨
        ∃ waker ip mac answers rest,
          s.mailbox = ⟨.action (.pingRequest waker ip mac i), answers⟩ :: rest ∧
            p'.requested = some waker) ∧
      (p'.replied = true → p.replied = true ∨ s.repliedBy = some p.target) := by
  cases step_move hstep with
  | handled hmail hh' =>
      rename_i letter rest h'
      obtain ⟨message, answers⟩ := letter
      cases message with
      | packet raw =>
          have hkeep : ∀ waker ip mac, ⟨.action (.pingRequest waker ip mac i), none⟩ ∈ s.mailbox →
              ⟨.action (.pingRequest waker ip mac i), none⟩ ∈ rest :=
            fun waker ip mac hmem => mem_rest hmail hmem (by simp)
          cases hsource : echoSource s.handler (.packet raw) with
          | none =>
              refine ⟨p, ?_, rfl, rfl, .inl ⟨rfl, hkeep⟩, .inl⟩
              rw [pings_handled hsource]
              exact hp
          | some ip =>
              obtain ⟨htarget, hfuture, hrequested⟩ := p.hear_same ip
              refine ⟨p.hear ip, ?_, htarget, hfuture, .inl ⟨hrequested, hkeep⟩, fun hreplied => ?_⟩
              · rw [getElem?_pings_handled hsource, hp, Option.map_some]
              · refine (Ping.replied_of_hear hreplied).imp_right fun hheard => ?_
                rw [System.repliedBy, hmail, hheard.1]
                exact hsource
      | action request =>
          cases request with
          | sendArpRequest ip k =>
              exact ⟨p, hp, rfl, rfl, .inl ⟨rfl, fun waker ip' mac hmem => mem_rest hmail hmem
                (by simp)⟩, .inl⟩
          | pingRequest waker ip mac k =>
              refine ⟨_, getElem?_modify_eq_some.mpr ⟨p, hp, rfl⟩, ?_⟩
              by_cases hki : k = i
              · subst hki
                rw [if_pos rfl]
                exact ⟨rfl, rfl, .inr ⟨waker, ip, mac, answers, rest, hmail, rfl⟩, .inl⟩
              · rw [if_neg hki]
                refine ⟨rfl, rfl, .inl ⟨rfl, fun waker' ip' mac' hmem => mem_rest hmail hmem ?_⟩,
                  .inl⟩
                intro heq
                simp only [Letter.mk.injEq, HandlerMessage.action.injEq,
                  ActionRequest.pingRequest.injEq] at heq
                exact hki heq.1.2.2.2.symm

theorem pinged_handled (hstep : s.step .handle = some s') : s'.pinged = s.pinged := by
  cases step_move hstep with
  | handled hmail hh' =>
      rename_i letter rest h'
      obtain ⟨message, answers⟩ := letter
      cases message with
      | packet raw =>
          cases hsource : echoSource s.handler (.packet raw) with
          | none => exact congrArg (List.map Ping.target) (pings_handled hsource)
          | some ip =>
              simp only [System.pinged, System.handled, notePings, hsource, List.map_map]
              exact List.map_congr_left fun p _ => (p.hear_same ip).1
      | action request =>
          cases request with
          | sendArpRequest ip k => rfl
          | pingRequest waker ip mac k =>
              exact map_modify_same (g := Ping.request waker) (fun _ => rfl) ..

/-- Whoever sets the flag of a ping wakes its task. -/
theorem woken_of_results (hb : Bound s) (hstep : s.step .handle = some s') {i : Nat}
    (hold : s.handler.results i = false) (hnew : s'.handler.results i = true) :
    ∃ p waker, s.pings[i]? = some p ∧ p.requested = some waker ∧
      waker ∈ s'.handler.woken.drop s.handler.woken.length := by
  cases step_move hstep with
  | handled hmail hh' =>
      rename_i letter rest h'
      obtain ⟨message, answers⟩ := letter
      cases message with
      | packet raw =>
          have hnew : h'.results i = true := hnew
          rcases packet_ping hh' with ⟨-, -, hresults, -⟩ | ⟨ip, -, -, -, hresults, -⟩ |
            ⟨ip, waker, result, -, hslot, -, hresults, hwoken⟩
          · rw [hresults, hold] at hnew
            cases hnew
          · rw [hresults, hold] at hnew
            cases hnew
          · have hi : i = result := by
              by_contra hne
              rw [hresults, Function.update_of_ne hne, hold] at hnew
              cases hnew
            subst hi
            obtain ⟨p, hp, -, hrequested, -⟩ := hb ip waker i hslot
            refine ⟨p, waker, hp, hrequested, ?_⟩
            show waker ∈ h'.woken.drop _
            rw [hwoken, List.drop_left]
            exact List.mem_singleton_self _
      | action request =>
          cases request with
          | sendArpRequest ip k =>
              obtain ⟨devices, rfl⟩ := step_sendArpRequest hh'
              cases hold.symm.trans hnew
          | pingRequest waker ip mac k =>
              obtain ⟨devices, -, rfl⟩ := step_pingRequest hh'
              cases hold.symm.trans hnew

/-- There is one letter for a ping. -/
theorem waker_of_letter (hs : Sound s.pingDesk) {waker waker' i : Nat} {ip ip' : Ip}
    {mac mac' : Mac} {answers : Option Nat} {rest : List Letter}
    (hmail : s.mailbox = ⟨.action (.pingRequest waker ip mac i), answers⟩ :: rest)
    (hmem : ⟨.action (.pingRequest waker' ip' mac' i), none⟩ ∈ s.mailbox) : waker = waker' := by
  by_contra hne
  have hrest : ⟨.action (.pingRequest waker' ip' mac' i), none⟩ ∈ rest := by
    refine mem_rest hmail hmem fun heq => hne ?_
    simp only [Letter.mk.injEq, HandlerMessage.action.injEq, ActionRequest.pingRequest.injEq] at heq
    exact heq.1.1.symm
  have honce : (((ip, i) :: rest.filterMap pingLetter).map Prod.snd).Nodup := by
    have honce := hs.once
    rw [show s.pingDesk.letters = s.mailbox.filterMap pingLetter from rfl, hmail] at honce
    exact honce
  rw [List.map_cons, List.nodup_cons] at honce
  exact honce.1 (List.mem_map.mpr ⟨(ip', i), List.mem_filterMap.mpr ⟨_, hrest, rfl⟩, rfl⟩)

end Handle

section Tasks

variable {crates : Crates} {s s' : System} {replies : Ip → Nat} {k : Nat} {t : PingTask}

theorem Known.handled {target : Ip} {mac : Mac} (hk : Known s target mac)
    (hstep : s.step .handle = some s') : Known s' target mac := by
  obtain ⟨i, c, hc, hip, hreturned⟩ := hk
  obtain ⟨c', hc', hip', hreturned', -⟩ := call_handled hstep hc
  exact ⟨i, c', hc', hip'.trans hip, hreturned'.trans hreturned⟩

theorem Resolving.handled {target : Ip} {call : Nat} (hr : Resolving s target call)
    (hstep : s.step .handle = some s') : Resolving s' target call := by
  obtain ⟨c, hc, hip, hopen, hletter⟩ := hr.posted
  obtain ⟨c', hc', hip', hopen', hkeep⟩ := call_handled hstep hc
  refine ⟨⟨c', hc', hip'.trans hip, hopen'.trans hopen, fun hnew => ?_⟩, ?_⟩
  · obtain ⟨hnew, hkeep⟩ := hkeep hnew
    exact hkeep target (hletter hnew)
  · rw [pinged_handled hstep]
    exact hr.made

theorem Outstanding.handled {target : Ip} {received ping : Nat} {mac : Mac} (h : InTurn s)
    (ho : Outstanding s replies k target received mac ping) (hstep : s.step .handle = some s') :
    Outstanding s' (repliesAfter s replies) k target received mac ping := by
  obtain ⟨p, hp, htarget, hsend, hletter, hwaker, hbound⟩ := ho.posted
  obtain ⟨p', hp', htarget', hfuture', hrequest, hreplied⟩ := ping_handled hstep hp
  refine ⟨ho.known.handled hstep, ⟨p', hp', htarget'.trans htarget, by rw [hfuture', hsend], ?_, ?_,
    ?_⟩, ?_, by rw [pinged_handled hstep, ho.made]⟩
  · intro hnew
    rcases hrequest with ⟨hsame, hkeep⟩ | ⟨waker, ip, mac', answers, rest, -, htaken⟩
    · exact hkeep k target mac (hletter (hsame.symm.trans hnew))
    · rw [hnew] at htaken
      cases htaken
  · intro waker hrequested
    rcases hrequest with ⟨hsame, -⟩ | ⟨waker', ip, mac', answers, rest, hmail, htaken⟩
    · exact hwaker waker (hsame.symm.trans hrequested)
    · obtain ⟨q, hq, -, -, hnew, -⟩ := ping_of_letter h.pings.pings.sound hmail
      rw [hp, Option.some.injEq] at hq
      rw [htaken, Option.some.injEq] at hrequested
      rw [← hrequested]
      exact waker_of_letter h.pings.pings.sound hmail (hletter (hq ▸ hnew))
  · rw [repliesAfter]
    cases hanswered : p'.replied with
    | false => exact Nat.le_trans (Nat.le_trans (Nat.le_add_right ..) hbound) (Nat.le_add_right ..)
    | true =>
        rcases hreplied hanswered with hold | hnow
        · rw [hold] at hbound
          exact Nat.le_trans hbound (Nat.le_add_right ..)
        · rw [if_pos (hnow.trans (congrArg some htarget))]
          exact Nat.add_le_add_right (Nat.le_trans (Nat.le_add_right ..) hbound) 1
  · intro j q' hq' hqt hj
    rcases ping_of_step hstep hq' with ⟨q, hq, hqt', hqr⟩ | ⟨mac', ha, -⟩
    · have hold := ho.others j q hq (hqt'.symm.trans hqt) hj
      by_contra hnew
      rw [hqr (Bool.not_eq_true _ ▸ hnew)] at hold
      cases hold
    · cases ha

theorem AllAnswered.handled {target : Ip} {received : Nat} {mac : Mac}
    (ha : AllAnswered s replies target received mac) (hstep : s.step .handle = some s') :
    AllAnswered s' (repliesAfter s replies) target received mac := by
  refine ⟨ha.known.handled hstep, ?_, by rw [pinged_handled hstep, ha.made],
    Nat.le_trans ha.answered (Nat.le_add_right ..)⟩
  intro j q' hq' hqt
  rcases ping_of_step hstep hq' with ⟨q, hq, hqt', hqr⟩ | ⟨mac', ha, -⟩
  · have hold := ha.replied j q hq (hqt'.symm.trans hqt)
    by_contra hnew
    rw [hqr (Bool.not_eq_true _ ▸ hnew)] at hold
    cases hold
  · cases ha

/-- **A step of the handler wakes every task that can go on because of it.** -/
theorem TaskOK.handled (hready : crates.WakesReady) (h : InTurn s) (ht : TaskOK s replies k t)
    (hstep : s.step .handle = some s') :
    TaskOK s' (repliesAfter s replies) k (wakeTask crates s s' k t) := by
  obtain ⟨target, point, queued, received⟩ := t
  cases point with
  | start =>
      obtain ⟨hfresh, hreceived, hqueued⟩ := ht
      refine ⟨⟨fun i c' hc' => ?_, ?_⟩, hreceived, ?_⟩
      · rcases call_of_step hstep (fun _ hc => by cases hc) hc' with ⟨c, hc, hip, -⟩ | ⟨ha, -, -⟩
        · rw [hip]
          exact hfresh.calls i c hc
        · cases ha
      · rw [pinged_handled hstep]
        exact hfresh.made
      · show (queued || _) = true
        rw [show queued = true from hqueued, Bool.true_or]
  | getMac call =>
      obtain ⟨hresolving, hreceived, hasleep⟩ := ht
      refine ⟨hresolving.handled hstep, hreceived, fun hq => ?_⟩
      obtain ⟨hqueued, hwakes⟩ := Bool.or_eq_false_iff.mp hq
      have hold := hasleep hqueued
      by_contra hopen
      have hwoken := hready _ _ hold (Option.ne_none_iff_isSome.mp hopen)
      simp only [wakes, hwoken, Bool.or_true] at hwakes
      cases hwakes
  | rawPing mac ping =>
      obtain ⟨hout, hasleep⟩ := ht
      refine ⟨hout.handled h hstep, fun hq => ?_⟩
      obtain ⟨hqueued, hwakes⟩ := Bool.or_eq_false_iff.mp hq
      by_contra hset
      obtain ⟨p, waker, hp, hrequested, hmem⟩ := woken_of_results h.pings.pings.bound hstep
        (hasleep hqueued) (Bool.not_eq_false _ ▸ hset)
      obtain ⟨p', hp', -, -, -, hwaker, -⟩ := hout.posted
      rw [hp, Option.some.injEq] at hp'
      rw [hwaker waker (hp' ▸ hrequested)] at hmem
      simp only [wakes, List.contains_eq_mem, hmem, decide_true, Bool.true_or] at hwakes
      cases hwakes
  | yieldNow mac =>
      obtain ⟨hall, hqueued⟩ := ht
      refine ⟨hall.handled hstep, ?_⟩
      show (queued || _) = true
      rw [show queued = true from hqueued, Bool.true_or]

end Tasks

/-! ### Whole runs -/

structure PingsInTurn (n : Pinging) : Prop where
  inTurn : InTurn n.sys
  distinct : (n.tasks.map PingTask.target).Nodup
  tasks : ∀ k t, n.tasks[k]? = some t → TaskOK n.sys n.replies k t

/-- There is one task for a target. -/
theorem PingsInTurn.task_unique {n : Pinging} (h : PingsInTurn n) {j k : Nat} {u t : PingTask}
    (hu : n.tasks[j]? = some u) (ht : n.tasks[k]? = some t) (htarget : u.target = t.target) :
    j = k := by
  refine (List.getElem?_inj ?_ h.distinct).mp ?_
  · rw [List.length_map]
    exact (List.getElem?_eq_some_iff.mp hu).1
  · rw [List.getElem?_map, List.getElem?_map, hu, ht, Option.map_some, Option.map_some, htarget]

section Steps

variable {crates : Crates} (hyield : crates.yieldWakes = true)
include hyield

theorem PingsInTurn.poll {n : Pinging} (h : PingsInTurn n) {k : Nat} {t : PingTask}
    (ht : n.tasks[k]? = some t) : ∃ n', n.step crates (.poll k) = some n' ∧ PingsInTurn n' := by
  obtain ⟨t', s', hpoll, hpolled⟩ := (h.tasks k t ht).poll hyield h.inTurn
  refine ⟨{ n with sys := s', tasks := n.tasks.set k t' }, ?_, hpolled.inTurn, ?_, ?_⟩
  · simp only [Pinging.step, ht, hpoll, Option.map_some]
  · show ((n.tasks.set k t').map PingTask.target).Nodup
    rw [map_set_same ht hpolled.same]
    exact h.distinct
  · intro j u hu
    rcases getElem?_set_eq_some.mp hu with ⟨rfl, -, rfl⟩ | ⟨hj, hu⟩
    · exact hpolled.task
    · refine (h.tasks j u hu).apart (hpolled.apart u.target fun htarget => hj ?_)
      exact h.task_unique hu ht htarget

theorem PingsInTurn.step (hready : crates.WakesReady) {n n' : Pinging} {e : PingEvent}
    (h : PingsInTurn n) (hstep : n.step crates e = some n') : PingsInTurn n' := by
  cases e with
  | poll k =>
      cases ht : n.tasks[k]? with
      | none =>
          rw [Pinging.step, ht] at hstep
          cases hstep
      | some t =>
          obtain ⟨n'', hpoll, hn''⟩ := h.poll hyield ht
          rw [hstep, Option.some.injEq] at hpoll
          rw [hpoll]
          exact hn''
  | receive raw =>
      rw [Pinging.step] at hstep
      obtain ⟨s', hs', rfl⟩ := Option.map_eq_some_iff.mp hstep
      refine ⟨h.inTurn.step (a := .receive raw none) trivial hs', h.distinct, fun k t ht => ?_⟩
      have hno : ¬ Concerns n.sys t.target (.receive raw none) := id
      exact (h.tasks k t ht).apart (apart_step hno hs')
  | handle =>
      obtain ⟨s', hs', rfl⟩ := Option.map_eq_some_iff.mp hstep
      refine ⟨h.inTurn.step (a := .handle) trivial hs', ?_, fun k t' ht' => ?_⟩
      · have hsame : (n.tasks.mapIdx (wakeTask crates n.sys s')).map PingTask.target
            = n.tasks.map PingTask.target := by
          refine List.ext_getElem? fun j => ?_
          rw [List.getElem?_map, List.getElem?_mapIdx, List.getElem?_map, Option.map_map]
          rfl
        show ((n.tasks.mapIdx _).map PingTask.target).Nodup
        rw [hsame]
        exact h.distinct
      · have ht' : (n.tasks.mapIdx (wakeTask crates n.sys s'))[k]? = some t' := ht'
        rw [List.getElem?_mapIdx] at ht'
        obtain ⟨t, ht, rfl⟩ := Option.map_eq_some_iff.mp ht'
        exact (h.tasks k t ht).handled hready h.inTurn hs'

end Steps

theorem PingsInTurn.start {h : Handler} {targets : List Ip} (hdistinct : targets.Nodup)
    (hinit : (∀ ip, h.arp ip = none) ∧ (∀ ip, h.ping ip = none) ∧ ∀ i, h.results i = false) :
    PingsInTurn (Pinging.start h targets) where
  inTurn := .start hinit.1 hinit.2.1 hinit.2.2
  distinct := by
    show ((targets.map _).map PingTask.target).Nodup
    rw [List.map_map]
    exact (List.map_id targets).symm ▸ hdistinct
  tasks := fun k t ht => by
    obtain ⟨target, -, rfl⟩ := List.mem_map.mp (List.mem_of_getElem? ht)
    exact ⟨⟨fun i c hc => (by cases hc), rfl⟩, rfl, rfl⟩

/-- What a task waits for: its request is a letter, or it has its place in a map of the
handler. -/
def Awaits (s : System) (k : Nat) (t : PingTask) : Prop :=
  match t.point with
  | .getMac call => ⟨.action (.sendArpRequest t.target call), none⟩ ∈ s.mailbox ∨
      s.handler.arp t.target = some call
  | .rawPing mac ping => ⟨.action (.pingRequest k t.target mac ping), none⟩ ∈ s.mailbox ∨
      s.handler.ping t.target = some (k, ping)
  | _ => False

/-- A task that is not on the run queue waits for the handler. -/
theorem TaskOK.awaits {s : System} {replies : Ip → Nat} {k : Nat} {t : PingTask} (h : InTurn s)
    (ht : TaskOK s replies k t) (hqueued : t.queued = false) : Awaits s k t := by
  obtain ⟨target, point, queued, received⟩ := t
  cases point with
  | start => cases hqueued.symm.trans ht.2.2
  | getMac call =>
      obtain ⟨⟨⟨c, hc, hip, hopen, hletter⟩, -⟩, -, hasleep⟩ := ht
      have hlive := h.live call c hc
      cases hasked : c.requested with
      | false => exact .inl (hletter hasked)
      | true =>
          have houtcome := h.kept.noWaiterLost call c hc hlive
          simp only [System.outcome, hopen, hasleep hqueued, Option.map_none] at houtcome
          have hslot := h.kept.waiting hc hlive hasked (Option.map_eq_none_iff.mp houtcome.symm)
          rw [hip] at hslot
          exact .inr hslot
  | rawPing mac ping =>
      obtain ⟨⟨-, ⟨p, hp, htarget, -, hletter, hwaker, -⟩, -, -⟩, hasleep⟩ := ht
      cases hrequested : p.requested with
      | none => exact .inl (hletter hrequested)
      | some waker =>
          have hplace := h.pings.noPingLost ping p waker hp hrequested
          rw [hasleep hqueued] at hplace
          split at hplace
          · cases hplace
          · rw [hwaker waker hrequested, htarget] at hplace
            exact .inr hplace
  | yieldNow mac => cases hqueued.symm.trans ht.2

/-- The address that a task pings. -/
def PingTask.mac (t : PingTask) : Option Mac :=
  match t.point with
  | .rawPing mac _ => some mac
  | .yieldNow mac => some mac
  | _ => none

/-- A task keeps step with its target: it has logged no more than was answered, and made one
ping more than that at most; and it pings the address in the first response from the target
since its request was processed. -/
structure KeepsStep (n : Pinging) (t : PingTask) : Prop where
  received : t.received ≤ n.replies t.target
  made : n.sys.pinged.count t.target ≤ t.received + 1
  mac : ∀ mac, t.mac = some mac → ∃ c ∈ n.sys.calls, c.ip = t.target ∧ c.owed = some mac

theorem Known.owed {s : System} {target : Ip} {mac : Mac} (h : InTurn s) (hk : Known s target mac) :
    ∃ c ∈ s.calls, c.ip = target ∧ c.owed = some mac := by
  obtain ⟨i, c, hc, hip, hreturned⟩ := hk
  have houtcome := h.kept.noWaiterLost i c hc (h.live i c hc)
  simp only [System.outcome, hreturned] at houtcome
  obtain ⟨mac', howed, hmac⟩ := Option.map_eq_some_iff.mp houtcome.symm
  rw [Option.some.injEq] at hmac
  exact ⟨c, List.mem_of_getElem? hc, hip, hmac ▸ howed⟩

theorem TaskOK.keepsStep {n : Pinging} {k : Nat} {t : PingTask} (h : InTurn n.sys)
    (ht : TaskOK n.sys n.replies k t) : KeepsStep n t := by
  obtain ⟨target, point, queued, received⟩ := t
  cases point with
  | start =>
      obtain ⟨⟨-, hmade⟩, hreceived, -⟩ := ht
      have hreceived : received = 0 := hreceived
      subst hreceived
      exact ⟨Nat.zero_le _, (Nat.le_of_eq hmade).trans (Nat.zero_le _),
        fun mac hmac => by cases hmac⟩
  | getMac call =>
      obtain ⟨⟨-, hmade⟩, hreceived, -⟩ := ht
      have hreceived : received = 0 := hreceived
      subst hreceived
      exact ⟨Nat.zero_le _, (Nat.le_of_eq hmade).trans (Nat.zero_le _),
        fun mac hmac => by cases hmac⟩
  | rawPing mac ping =>
      obtain ⟨⟨hknown, ⟨p, -, -, -, -, -, hbound⟩, -, hmade⟩, -⟩ := ht
      refine ⟨Nat.le_trans (Nat.le_add_right ..) hbound, Nat.le_of_eq hmade, fun mac' hmac => ?_⟩
      cases hmac
      exact hknown.owed h
  | yieldNow mac =>
      obtain ⟨⟨hknown, -, hmade, hanswered⟩, -⟩ := ht
      refine ⟨hanswered, hmade ▸ Nat.le_succ _, fun mac' hmac => ?_⟩
      cases hmac
      exact hknown.owed h

/--
**Pinging goes on.**  Let any number of tasks ping, each its own target.  However the
kernel polls them, whatever frames arrive and however both interleave with the handler, if
the queue of `get_mac` wakes a receiver that can go on and `yield_now` wakes its task: no
poll of a task panics; a task that is not on the run queue has its request in the
handler's queue or its place in the handler's maps, with its waker; and it keeps step with
its target.
-/
theorem ping_tasks (crates : Crates) (hready : crates.WakesReady)
    (hyield : crates.yieldWakes = true) (devices : List NetworkDevice)
    (retQueues : Nat → RetQueue) (h₀ : Handler)
    (hsetup : Handler.setup devices retQueues = .ok h₀) (targets : List Ip)
    (hdistinct : targets.Nodup) (events : List PingEvent) (n : Pinging)
    (hrun : Lts.run (Pinging.step crates) (Pinging.start h₀ targets) events = some n) (k : Nat)
    (t : PingTask) (ht : n.tasks[k]? = some t) :
    (n.step crates (.poll k)).isSome = true ∧ (t.queued = false → Awaits n.sys k t) ∧
      KeepsStep n t := by
  have hn : PingsInTurn n := Lts.run_invariant
    (fun _ _ _ (h : PingsInTurn _) hstep => h.step hyield hready hstep)
    (PingsInTurn.start hdistinct (bindings_of_setup hsetup)) hrun
  obtain ⟨n', hpoll, -⟩ := hn.poll hyield ht
  refine ⟨?_, (hn.tasks k t ht).awaits hn.inTurn, (hn.tasks k t ht).keepsStep hn.inTurn⟩
  rw [hpoll]
  rfl

/-- The tasks of a run from the set-up of some devices. -/
def pingingFrom (crates : Crates) (devices : List NetworkDevice) (targets : List Ip)
    (events : List PingEvent) : Option (Handler × Pinging) := do
  let h₀ ← (Handler.setup devices (fun _ => .new)).toOption
  let n ← Lts.run (Pinging.step crates) (Pinging.start h₀ targets) events
  return (h₀, n)

theorem exists_of_pingingFrom {crates : Crates} {devices : List NetworkDevice}
    {targets : List Ip} {events : List PingEvent} {B : Type} {f : Handler × Pinging → B} {b : B}
    (h : (pingingFrom crates devices targets events).map f = some b) :
    ∃ h₀ n, Handler.setup devices (fun _ => .new) = .ok h₀ ∧
      Lts.run (Pinging.step crates) (Pinging.start h₀ targets) events = some n ∧
      f (h₀, n) = b :=
  Slice.exists_of_started h

/-- A receiver is woken when it becomes ready. -/
def readyCrates : Crates where
  wakesReceiver q q' := (getMacPoll q).isNone && (getMacPoll q').isSome
  yieldWakes := true
  yieldReady := true

theorem readyCrates_wakesReady : readyCrates.WakesReady := by
  intro q q' hq hq'
  show ((getMacPoll q).isNone && (getMacPoll q').isSome) = true
  rw [hq, hq']
  rfl

/-- The target in `main`. -/
def mainTarget : Ip := #v[192, 168, 178, 20]

/-- Two tasks ask for their targets, of which one answers, is pinged and answers again. -/
def oneTargetAnswers : List PingEvent :=
  [.poll 0, .poll 1, .handle, .receive ⟨0, .new (arpResponse hostMac hostIp)⟩, .handle, .handle,
    .poll 1, .handle, .receive ⟨0, .new (echoReplyFrame hostIp)⟩, .handle, .poll 1, .poll 1]

theorem ping_tasks_two :
    ∃ h₀ n, Handler.setup oneDevice (fun _ => .new) = .ok h₀ ∧
      Lts.run (Pinging.step readyCrates) (Pinging.start h₀ [mainTarget, hostIp]) oneTargetAnswers
        = some n ∧
      n.tasks[1]? = some ⟨hostIp, .rawPing hostMac 1, false, 1⟩ ∧
      (n.step readyCrates (.poll 1)).isSome = true ∧
      (false = false → Awaits n.sys 1 ⟨hostIp, .rawPing hostMac 1, false, 1⟩) ∧
      KeepsStep n ⟨hostIp, .rawPing hostMac 1, false, 1⟩ := by
  obtain ⟨h₀, n, hsetup, hrun, ht⟩ := exists_of_pingingFrom (by decide +kernel :
    (pingingFrom readyCrates oneDevice [mainTarget, hostIp] oneTargetAnswers).map
        (fun r => r.2.tasks[1]?)
      = some (some ⟨hostIp, .rawPing hostMac 1, false, 1⟩))
  exact ⟨h₀, n, hsetup, hrun, ht, ping_tasks readyCrates readyCrates_wakesReady rfl oneDevice _ h₀
    hsetup _ (by decide) _ n hrun 1 _ ht⟩

/-- Of two tasks with one target, the first panics: the request of the second has taken its
place. -/
example :
    (pingingFrom readyCrates oneDevice [hostIp, hostIp] [.poll 0, .poll 1, .handle, .handle]).isSome
        = true ∧
      pingingFrom readyCrates oneDevice [hostIp, hostIp]
        [.poll 0, .poll 1, .handle, .handle, .poll 0] = none := by
  decide +kernel

end Rucoonos.Net
