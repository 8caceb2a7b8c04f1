/-
The kernel comes to rest, and rests only when everything waits for the network.

Every step of the machine keeps `Live`, if the crates it uses are reliable: whoever can go on
is scheduled, and whoever waits has left its waker where it will be used.  The steps the
machine takes on its own also use up what `Machine.work` counts.  So a machine that no frame
reaches any more runs until the run queue is empty, and then there is nothing that anybody
could do.
-/
import Rucoonos.Proofs.Kernel.Machine

namespace Rucoonos.Main

open Executor (Kernel TaskID Sound)
open Net (Pinging PingTask PingsInTurn System Letter)

variable {crates : Crates} {n : Nat} {m m' : Machine}

theorem weight_logger : weight Fut.logger.id = 6 := if_pos rfl

theorem weight_handler : weight Fut.handler.id = 12 := if_neg (by decide)

theorem weight_ping {k : Nat} (hk : k + 2 < 2 ^ 64) : weight (Fut.ping k).id = 12 := by
  refine if_neg fun heq => ?_
  cases Fut.id_inj (f := .ping k) (g := .logger) hk (by decide) heq

/-! ### The loop -/

theorem not_poll_of_iterate {k k' : Kernel Fut} (h : k.iterate = some k')
    (entry : Executor.Task Fut) : k.point ≠ .poll entry := by
  intro hpoint
  rw [Kernel.iterate, hpoint] at h
  cases h

theorem Live.loop (h : Live n m) {k' : Kernel Fut} (hstep : m.kernel.iterate = some k') :
    Live n { m with kernel := k' } ∧ Machine.work { m with kernel := k' } < m.work := by
  obtain ⟨hruns, hscheduled, hwakers, hwork⟩ := h.runs.iterate hstep
  have hparked : ∀ {f : Fut} {r : Reader} {empty : Prop}, f.number < n + 2 →
      Parked m.kernel f r empty → Parked k' f r empty := by
    intro f r empty hf hparked
    have hlook : r.look = .first := hparked.look_first fun id => not_poll_of_iterate hstep _
    refine ⟨fun hwaker => hwakers _ (hparked.waker hwaker), fun hc => absurd hlook hc, fun hc => ?_,
      hparked.awake.imp_left (hscheduled f hf)⟩
    rw [hlook] at hc
    cases hc
  refine ⟨⟨hruns, h.turn, h.count, ?_, ?_, ?_, ?_, ?_⟩, ?_⟩
  · intro k t ht hqueued
    have hlt : k < m.pinging.tasks.length := (List.getElem?_eq_some_iff.mp ht).1
    have hcount := h.count
    exact hscheduled _ (show k + 2 < n + 2 by omega) (h.queued k t ht hqueued)
  · exact fun k t ht hpoint => hwakers _ (h.started k t ht hpoint)
  · exact h.wakers.mono fun k hk => hwakers _ hk
  · exact hparked (show 1 < n + 2 by omega) h.handler
  · exact hparked (show 0 < n + 2 by omega) h.logger
  · simp only [Machine.work]
    omega

/-! ### Polls of a reader -/

theorem suspend_eq {k' : Kernel Fut} (hreturn : m.kernel.pollReturn .pending = some k') :
    m.suspend = some { m with kernel := k' } := by
  rw [Machine.suspend, hreturn]
  rfl

/-- The future that is polled has its own id, which has a waker. -/
theorem Runs.polling {k : Kernel Fut} (h : Runs n k) {entry : Executor.Task Fut}
    (hpoint : k.point = .poll entry) :
    entry.id = entry.future.id ∧ entry.future.number < n + 2 ∧ entry.future.id ∈ k.wakers := by
  obtain ⟨hmem, hwaker⟩ := h.polled entry hpoint
  obtain ⟨hlt, hid⟩ := h.entry hmem
  exact ⟨hid, hlt, hid ▸ hwaker⟩

/-- What a step of a poll has to come to. -/
def Advances (n : Nat) (m : Machine) (next : Option Machine) : Prop :=
  ∃ m', next = some m' ∧ Live n m' ∧ m'.work < m.work

theorem Live.runLogger (hcrates : crates.Reliable) (h : Live n m) {id : TaskID}
    (hpoint : m.kernel.point = .poll ⟨id, .logger⟩) : Advances n m (m.runLogger crates) := by
  obtain ⟨hid, -, hwaker⟩ := h.runs.polling hpoint
  unfold Machine.runLogger
  cases hlook : m.logger.look with
  | first =>
      refine ⟨_, rfl, { h with logger := h.logger.leaves hpoint _ }, ?_⟩
      simp only [Machine.work, readerWork, hlook]
      show _ + 1 < _ + 2
      omega
  | leave =>
      refine ⟨_, rfl, { h with logger := parked_left hpoint hwaker }, ?_⟩
      have hread := readerWork_left hlook true (m.logQueue == 0)
      simp only [Machine.work]
      omega
  | again =>
      by_cases hempty : m.logQueue = 0
      · obtain ⟨k', hreturn, hruns, hscheduled, hwakers, hqueue, hwork⟩ :=
          h.runs.pollReturn hpoint
        simp only [if_neg (fun hc : crates.looksAgain = true ∧ m.logQueue ≠ 0 => hc.2 hempty)]
        refine ⟨_, suspend_eq hreturn, ⟨hruns, h.turn, h.count, ?_, ?_, ?_, ?_, ?_⟩, ?_⟩
        · exact fun k t ht hqueued => hscheduled _ (by simp) (h.queued k t ht hqueued)
        · exact fun k t ht hstart => hwakers ▸ h.started k t ht hstart
        · exact hwakers ▸ h.wakers
        · exact h.handler.otherReturns hpoint (by simp) hwakers (hscheduled _ (by simp))
        · exact h.logger.returns hlook hempty hwakers hqueue
        · rw [show (⟨id, .logger⟩ : Executor.Task Fut).id = Fut.logger.id from hid, weight_logger]
            at hwork
          simp only [Machine.work, readerWork, hlook, hempty, beq_self_eq_true, if_true]
          omega
      · simp only [if_pos (And.intro hcrates.looksAgain hempty)]
        refine ⟨_, rfl, { h with logger := h.logger.goesOn hpoint _ }, ?_⟩
        simp only [Machine.work, readerWork, hlook, beq_eq_false_iff_ne.mpr hempty]
        show _ + 2 < _ + 3
        omega

/-- The handler finds nothing to do. -/
theorem Live.runIdleHandler (hcrates : crates.Reliable) (h : Live n m) {id : TaskID}
    (hpoint : m.kernel.point = .poll ⟨id, .handler⟩)
    (hidle : m.handler.look = .first → m.pinging.sys.mailbox = []) (logs : Nat) :
    Advances n m (m.runHandler crates logs) := by
  obtain ⟨hid, -, hwaker⟩ := h.runs.polling hpoint
  unfold Machine.runHandler
  cases hlook : m.handler.look with
  | first =>
      have hmail := hidle hlook
      simp only [hmail]
      refine ⟨_, rfl, { h with handler := h.handler.leaves hpoint _ }, ?_⟩
      simp only [Machine.work, readerWork, hlook, hmail, List.isEmpty_nil, if_true]
      omega
  | leave =>
      refine ⟨_, rfl, { h with handler := parked_left hpoint hwaker }, ?_⟩
      have hread := readerWork_left hlook true m.pinging.sys.mailbox.isEmpty
      simp only [Machine.work]
      omega
  | again =>
      by_cases hempty : m.pinging.sys.mailbox = []
      · have hlogger := h.logger.look_first_of_poll hpoint (by simp)
        obtain ⟨k₁, logger, messages, hlog, hsame, hgrows, hparked⟩ :=
          log_ok (m := { m with handler.look := .first }) hcrates h.runs h.logger logs
        have hpoint₁ := hgrows.point.trans hpoint
        obtain ⟨k', hreturn, hruns, hscheduled, hwakers, hqueue, hwork⟩ :=
          hgrows.runs.pollReturn hpoint₁
        have hkept : k'.wakers = m.kernel.wakers := hwakers.trans hgrows.wakers
        simp only [if_neg (fun hc : crates.looksAgain = true ∧ m.pinging.sys.mailbox ≠ [] =>
          hc.2 hempty), hlog, Option.bind_some]
        refine ⟨_, suspend_eq hreturn, ⟨hruns, h.turn, h.count, ?_, ?_, ?_, ?_, ?_⟩, ?_⟩
        · exact fun k t ht hqueued =>
            hscheduled _ (by simp) (hgrows.scheduled (h.queued k t ht hqueued))
        · exact fun k t ht hstart => hkept ▸ h.started k t ht hstart
        · exact hkept ▸ h.wakers
        · exact (h.handler.grows hgrows).returns hlook hempty hwakers hqueue
        · exact hparked.otherReturns hpoint₁ (by simp) hwakers (hscheduled _ (by simp))
        · rw [show (⟨id, .handler⟩ : Executor.Task Fut).id = Fut.handler.id from hid,
            weight_handler] at hwork
          have hgrown : kernelWork k₁ ≤ kernelWork m.kernel + 6 := hgrows.work
          simp only [Machine.work, readerWork, hlook, hempty, hlogger, hsame, List.isEmpty_nil,
            if_true]
          omega
      · simp only [if_pos (And.intro hcrates.looksAgain hempty)]
        refine ⟨_, rfl, { h with handler := h.handler.goesOn hpoint _ }, ?_⟩
        simp only [Machine.work, readerWork, hlook,
          Bool.eq_false_iff.mpr (mt List.isEmpty_iff.mp hempty)]
        show _ + 2 + _ < _ + 3 + _
        omega

/-! ### The handler processes a message -/

theorem mem_wokenBy {p p' : Pinging} {f : Fut} (hf : f ∈ wokenBy crates p p') :
    ∃ k t, f = .ping k ∧ p.tasks[k]? = some t ∧
      Net.wakes crates.toCrates p.sys p'.sys k t = true := by
  obtain ⟨⟨t, k⟩, hmem, rfl⟩ := List.mem_map.mp hf
  obtain ⟨hmem, hwakes⟩ := List.mem_filter.mp hmem
  exact ⟨k, t, rfl, List.mem_zipIdx_iff_getElem?.mp hmem, hwakes⟩

theorem mem_wokenBy_of_wakes {p p' : Pinging} {k : Nat} {t : PingTask}
    (ht : p.tasks[k]? = some t) (hwakes : Net.wakes crates.toCrates p.sys p'.sys k t = true) :
    .ping k ∈ wokenBy crates p p' :=
  List.mem_map.mpr ⟨(t, k), List.mem_filter.mpr ⟨List.mem_zipIdx_iff_getElem?.mpr ht, hwakes⟩, rfl⟩

theorem length_wokenBy (crates : Crates) (p p' : Pinging) :
    (wokenBy crates p p').length ≤ p.tasks.length := by
  rw [wokenBy, List.length_map, ← List.length_zipIdx (l := p.tasks)]
  exact List.length_filter_le ..

theorem queueWork_le (ids : List TaskID) : queueWork ids ≤ 12 * ids.length := by
  induction ids with
  | nil => exact Nat.le_refl _
  | cons id ids ih =>
      have := weight_cases id
      rw [queueWork_cons, List.length_cons]
      omega

/-- What a step of the handler costs. -/
theorem handle_work (hcrates : crates.Reliable) {p p' : Pinging} (h : PingsInTurn p)
    {letter : Letter} {rest : List Letter} (hmail : p.sys.mailbox = letter :: rest)
    (hstep : p.step crates.toCrates .handle = some p') :
    mailWork p.tasks.length p'.sys.mailbox + tasksWork p'
        + queueWork ((wokenBy crates p p').map Fut.id) + 7
      ≤ mailWork p.tasks.length p.sys.mailbox + tasksWork p := by
  obtain ⟨s', hs', rfl⟩ := Option.map_eq_some_iff.mp hstep
  have htasks : tasksWork ⟨s', p.tasks.mapIdx (Net.wakeTask crates.toCrates p.sys s'),
      Net.repliesAfter p.sys p.replies⟩ = Weights.total (fun _ t => effort s' t) p.tasks :=
    Weights.total_mapIdx ..
  rw [htasks, tasksWork, hmail, show (Pinging.mk s' (p.tasks.mapIdx
    (Net.wakeTask crates.toCrates p.sys s')) (Net.repliesAfter p.sys p.replies)).sys.mailbox = rest
      from mailbox_handle hmail hs', mailWork_cons]
  obtain ⟨message, answers⟩ := letter
  cases message with
  | packet raw =>
      have heffort : Weights.total (fun _ t => effort s' t) p.tasks
          ≤ Weights.total (fun _ t => effort p.sys t) p.tasks + 31 * p.tasks.length :=
        Weights.total_le 31 fun _ t _ =>
          (effort_le s' t).trans (Nat.le_add_left _ _)
      have hwoken := queueWork_le ((wokenBy crates p ⟨s', p.tasks.mapIdx
        (Net.wakeTask crates.toCrates p.sys s'), Net.repliesAfter p.sys p.replies⟩).map Fut.id)
      have hlength := length_wokenBy crates p ⟨s', p.tasks.mapIdx
        (Net.wakeTask crates.toCrates p.sys s'), Net.repliesAfter p.sys p.replies⟩
      rw [List.length_map] at hwoken
      show _ ≤ 43 * p.tasks.length + 7 + _ + _
      omega
  | action request =>
      -- Nobody is woken and nobody can go on.
      have hquiet := request_effort hcrates.quiet h.inTurn hmail hs'
      have heffort : Weights.total (fun _ t => effort s' t) p.tasks
          = Weights.total (fun _ t => effort p.sys t) p.tasks :=
        Weights.total_congr fun k t _ => (hquiet k t).1
      have hnone : wokenBy crates p ⟨s', p.tasks.mapIdx (Net.wakeTask crates.toCrates p.sys s'),
          Net.repliesAfter p.sys p.replies⟩ = [] := by
        rw [List.eq_nil_iff_forall_not_mem]
        intro f hf
        obtain ⟨k, t, -, -, hwakes⟩ := mem_wokenBy hf
        rw [(hquiet k t).2] at hwakes
        cases hwakes
      rw [heffort, hnone]
      show _ + _ + 0 + 7 ≤ 7 + _ + _
      omega

theorem Live.runHandler (hcrates : crates.Reliable) (h : Live n m) {id : TaskID}
    (hpoint : m.kernel.point = .poll ⟨id, .handler⟩) (hlook : m.handler.look = .first)
    {letter : Letter} {rest : List Letter} (hmail : m.pinging.sys.mailbox = letter :: rest)
    {p' : Pinging} (hstep : m.pinging.step crates.toCrates .handle = some p') (logs : Nat) :
    Advances n m (m.runHandler crates logs) := by
  have hwork := handle_work hcrates h.turn hmail hstep
  have hturn := h.turn.step hcrates.yieldWakes hcrates.wakesReady hstep
  obtain ⟨s', hs', rfl⟩ := Option.map_eq_some_iff.mp hstep
  generalize hp' : Pinging.mk s' (m.pinging.tasks.mapIdx
    (Net.wakeTask crates.toCrates m.pinging.sys s'))
      (Net.repliesAfter m.pinging.sys m.pinging.replies) = p' at hwork hturn hstep
  have hsys : p'.sys = s' := by rw [← hp']
  have htasks : p'.tasks = m.pinging.tasks.mapIdx
    (Net.wakeTask crates.toCrates m.pinging.sys s') := by rw [← hp']
  have hlength : p'.tasks.length = m.pinging.tasks.length := by rw [htasks, List.length_mapIdx]
  have hlogger := h.logger.look_first_of_poll hpoint (by simp)
  have hwakers : ∀ f ∈ wokenBy crates m.pinging p', f.id ∈ m.kernel.wakers := by
    intro f hf
    obtain ⟨k, t, rfl, ht, hwakes⟩ := mem_wokenBy hf
    rw [hsys] at hwakes
    rcases Bool.or_eq_true_iff.mp hwakes with hwoken | hready
    · exact h.wakers.woken h.turn.inTurn.pings.pings.bound hs' (by simpa using hwoken)
    · refine h.started k t ht fun hstart => ?_
      rw [hstart] at hready
      cases hready
  obtain ⟨k₁, hrun, hgrows, hwoken⟩ := h.runs.wakes _ hwakers
  obtain ⟨k₂, logger, messages, hlog, hsame, hgrows', hparked⟩ :=
    log_ok (m := { m with pinging := p', kernel := k₁ }) hcrates hgrows.runs
      (h.logger.grows hgrows) logs
  have hboth := hgrows.trans hgrows'
  refine ⟨{ m with pinging := p', kernel := k₂, logger, logQueue := messages }, ?_,
    ⟨hboth.runs, hturn, hlength.trans h.count, ?_, ?_, ?_, ?_, hparked⟩, ?_⟩
  · simp only [Machine.runHandler, hlook, hmail, hstep, Option.bind_some,
      wake_eq (m := { m with pinging := p' }) hrun, hlog]
  · intro k t' ht' hqueued
    have ht' : p'.tasks[k]? = some t' := ht'
    rw [htasks, List.getElem?_mapIdx] at ht'
    obtain ⟨t, ht, rfl⟩ := Option.map_eq_some_iff.mp ht'
    rcases Bool.or_eq_true_iff.mp hqueued with hqueued | hwakes
    · exact hboth.scheduled (h.queued k t ht hqueued)
    · exact hgrows'.scheduled (.of_mem (hwoken _ (mem_wokenBy_of_wakes ht (hsys ▸ hwakes))))
  · intro k t' ht' hstart
    have ht' : p'.tasks[k]? = some t' := ht'
    rw [htasks, List.getElem?_mapIdx] at ht'
    obtain ⟨t, ht, rfl⟩ := Option.map_eq_some_iff.mp ht'
    exact hboth.wakers ▸ h.started k t ht hstart
  · show WakersIn (fun k => (Fut.ping k).id ∈ k₂.wakers) p'.sys
    rw [hboth.wakers, hsys]
    exact h.wakers.step (fun i waker ha => by cases ha) hs'
  · -- The handler is polled, so it is scheduled.
    have hparked := (h.handler.grows hboth).goesOn (hboth.point.trans hpoint)
      (p'.sys.mailbox = [])
    rwa [← hlook] at hparked
  · have hgrown := hboth.work
    simp only [Machine.work, readerWork_first hlook, readerWork_first hlogger,
      readerWork_first (hsame.trans hlogger), hlength]
    omega

/-! ### A ping task is polled -/

/-- What a poll of a ping task costs. -/
theorem poll_work (hcrates : crates.Reliable) {p : Pinging} (h : PingsInTurn p) {k : Nat}
    {t t' : PingTask} {s' : System} (ht : p.tasks[k]? = some t)
    (hpoll : PingTask.poll crates.toCrates { t with queued := false } k p.sys = some (t', s')) :
    mailWork p.tasks.length s'.mailbox + tasksWork { p with sys := s', tasks := p.tasks.set k t' }
        + (if p.sys.mailbox.length < s'.mailbox.length then 12 else 0)
        + (if t'.queued = true then 12 else 0)
      ≤ mailWork p.tasks.length p.sys.mailbox + tasksWork p := by
  obtain ⟨requests, hmail, hbudget⟩ := spends_poll hcrates.yieldWakes hcrates.yieldReady h.inTurn
    (h.tasks k t ht) hpoll
  obtain ⟨t'', s'', hpoll', hpolled⟩ := (h.tasks k t ht).poll hcrates.yieldWakes h.inTurn
  rw [hpoll, Option.some.injEq, Prod.mk.injEq] at hpoll'
  obtain ⟨rfl, rfl⟩ := hpoll'
  -- Only the task that is polled has something else left to do than before.
  have hset : tasksWork { p with sys := s', tasks := p.tasks.set k t' }
      = Weights.total (fun j u => if j = k then effort s' t' else effort p.sys u) p.tasks := by
    have hsame := Weights.total_set (l := p.tasks)
      (w := fun j u => if j = k then effort s' t' else effort p.sys u) t' ht
    simp only [if_true] at hsame
    rw [← Nat.add_right_cancel hsame, tasksWork]
    refine Weights.total_congr fun j u hu => ?_
    rcases Net.getElem?_set_eq_some.mp hu with ⟨rfl, -, rfl⟩ | ⟨hj, hu⟩
    · rw [if_pos rfl]
    · rw [if_neg hj]
      refine effort_apart (h.tasks j u hu) (hpolled.apart u.target fun htarget => hj ?_)
      exact h.task_unique hu ht htarget
  have htotal : Weights.total (fun j u => if j = k then effort s' t' else effort p.sys u) p.tasks
      + (19 * requests.length + if t'.queued = true then 12 else 0) ≤ tasksWork p := by
    refine Weights.total_add_le _ (fun j u hu => ?_) ht ?_
    · split
      · rename_i hj
        rw [hj, ht, Option.some.injEq] at hu
        rw [← hu]
        omega
      · exact Nat.le_refl _
    · rw [if_pos rfl]
      omega
  have hletters : mailWork p.tasks.length s'.mailbox
      = mailWork p.tasks.length p.sys.mailbox + 7 * requests.length := by
    rw [hmail, mailWork_append, mailWork_requests]
  have hgrew : (if p.sys.mailbox.length < s'.mailbox.length then 12 else 0)
      ≤ 12 * requests.length := by
    rw [hmail, List.length_append, List.length_map]
    split <;> omega
  rw [hset, hletters]
  omega

theorem mem_yields {p : Pinging} {k : Nat} {t : PingTask} (ht : p.tasks[k]? = some t) {f : Fut} :
    f ∈ yields p k ↔ f = .ping k ∧ t.queued = true := by
  simp only [yields, ht]
  split
  · rename_i hqueued
    simp [hqueued]
  · rename_i hqueued
    simp [hqueued]

theorem queueWork_yields {p : Pinging} {k : Nat} {t : PingTask} (hk : k + 2 < 2 ^ 64)
    (ht : p.tasks[k]? = some t) :
    queueWork ((yields p k).map Fut.id) = if t.queued = true then 12 else 0 := by
  simp only [yields, ht]
  split
  · rw [List.map_singleton, queueWork_cons, weight_ping hk]
    rfl
  · rfl

theorem Live.runPing (hcrates : crates.Reliable) (h : Live n m) {id : TaskID} {k : Nat}
    (hpoint : m.kernel.point = .poll ⟨id, .ping k⟩) (logs : Nat) :
    Advances n m (m.runPing crates k logs) := by
  obtain ⟨hid, hnumber, hwaker⟩ := h.runs.polling hpoint
  have hnumber : k + 2 < n + 2 := hnumber
  have hbound := h.runs.bound
  have hlt : k < m.pinging.tasks.length := by rw [h.count]; omega
  have ht : m.pinging.tasks[k]? = some m.pinging.tasks[k] := List.getElem?_eq_getElem hlt
  generalize m.pinging.tasks[k] = t at ht
  obtain ⟨t', s', hpoll, hpolled⟩ := (h.turn.tasks k t ht).poll hcrates.yieldWakes h.turn.inTurn
  have hstep : m.pinging.step crates.toCrates (.poll k)
      = some { m.pinging with sys := s', tasks := m.pinging.tasks.set k t' } := by
    simp only [Pinging.step, ht, hpoll, Option.map_some]
  have hturn := h.turn.step hcrates.yieldWakes hcrates.wakesReady hstep
  have hwork := poll_work hcrates h.turn ht hpoll
  generalize hp' : Pinging.mk s' (m.pinging.tasks.set k t') m.pinging.replies = p'
    at hwork hturn hstep
  have hsys : p'.sys = s' := by rw [← hp']
  have htasks : p'.tasks = m.pinging.tasks.set k t' := by rw [← hp']
  have hlength : p'.tasks.length = m.pinging.tasks.length := by rw [htasks, List.length_set]
  have hself : p'.tasks[k]? = some t' := by
    rw [htasks]
    exact List.getElem?_set_self hlt
  have hhandlerLook := h.handler.look_first_of_poll hpoint (by simp)
  have hloggerLook := h.logger.look_first_of_poll hpoint (by simp)
  -- The handler is woken if there is a request for it, then the task if it yields, then the
  -- logger.
  obtain ⟨k₁, handler, hproceed, hhandlerSame, hgrows₁, hhandler⟩ :=
    proceed_ok hcrates h.runs h.handler p'
  obtain ⟨k₂, hrun, hgrows₂, hyielded⟩ := hgrows₁.runs.wakes (yields p' k) fun f hf => by
    rw [((mem_yields hself).mp hf).1, hgrows₁.wakers]
    exact hwaker
  have hgrows₁₂ := hgrows₁.trans hgrows₂
  obtain ⟨k₃, logger, messages, hlog, hloggerSame, hgrows₃, hlogger⟩ :=
    log_ok (m := { m with kernel := k₂, pinging := p', handler }) hcrates
      hgrows₂.runs (h.logger.grows hgrows₁₂) logs
  have hgrows := hgrows₁₂.trans hgrows₃
  have hpoint₃ := hgrows.point.trans hpoint
  obtain ⟨k₄, hreturn, hruns, hscheduled, hwakers, hqueue, hreturned⟩ :=
    hgrows₃.runs.pollReturn hpoint₃
  have hsame : k₄.wakers = m.kernel.wakers := hwakers.trans hgrows.wakers
  refine ⟨{ m with kernel := k₄, pinging := p', handler, logger, logQueue := messages },
    ?_, ⟨hruns, hturn, hlength.trans h.count, ?_, ?_, ?_, ?_, ?_⟩, ?_⟩
  · simp only [Machine.runPing, hstep, hproceed, Option.bind_some,
      wake_eq (m := { m with kernel := k₁, pinging := p', handler }) hrun, hlog]
    exact suspend_eq hreturn
  · intro j u hu hqueued
    have hu : p'.tasks[j]? = some u := hu
    by_cases hj : j = k
    · subst hj
      rw [hself, Option.some.injEq] at hu
      subst hu
      exact .of_mem (hqueue ▸ hgrows₃.queue.subset
        (hyielded _ ((mem_yields hself).mpr ⟨rfl, hqueued⟩)))
    · rw [htasks, List.getElem?_set_ne (Ne.symm hj)] at hu
      refine hscheduled _ ?_ (hgrows.scheduled (h.queued j u hu hqueued))
      intro heq
      cases heq
      exact hj rfl
  · intro j u hu hstart
    show (Fut.ping j).id ∈ k₄.wakers
    rw [hsame]
    have hu : p'.tasks[j]? = some u := hu
    by_cases hj : j = k
    · rw [hj]
      exact hwaker
    · rw [htasks, List.getElem?_set_ne (Ne.symm hj)] at hu
      exact h.started j u hu hstart
  · show WakersIn (fun k => (Fut.ping k).id ∈ k₄.wakers) p'.sys
    rw [hsame, hsys]
    exact h.wakers.poll hwaker hpoll
  · exact (hhandler.grows (hgrows₂.trans hgrows₃)).otherReturns hpoint₃ (by simp) hwakers
      (hscheduled _ (by simp))
  · exact hlogger.otherReturns hpoint₃ (by simp) hwakers (hscheduled _ (by simp))
  · rw [show (⟨id, .ping k⟩ : Executor.Task Fut).id = (Fut.ping k).id from hid,
      weight_ping (by omega)] at hreturned
    have hgrown := hgrows.work
    rw [hsys, queueWork_yields (by omega) hself] at hgrown
    simp only [Machine.work, readerWork_first hhandlerLook, readerWork_first hloggerLook,
      readerWork_first (hhandlerSame.trans hhandlerLook),
      readerWork_first (hloggerSame.trans hloggerLook), hlength, hsys]
    omega

/-! ### A frame arrives -/

theorem Live.interrupt (hcrates : crates.Reliable) (h : Live n m) {raw : RawPacket} {logs : Nat}
    (hstep : m.step crates (.interrupt raw logs) = some m') : Live n m' := by
  have hreceive : m.pinging.step crates.toCrates (.receive raw)
      = some { m.pinging with sys := m.pinging.sys.post (.packet raw) none } := rfl
  have hturn := h.turn.step hcrates.yieldWakes hcrates.wakesReady hreceive
  have hwakers := h.wakers.step (a := .receive raw none) (fun i waker ha => by cases ha) rfl
  generalize hp' : Pinging.mk (m.pinging.sys.post (.packet raw) none) m.pinging.tasks
    m.pinging.replies = p' at hturn hreceive
  have hsys : p'.sys = m.pinging.sys.post (.packet raw) none := by rw [← hp']
  have htasks : p'.tasks = m.pinging.tasks := by rw [← hp']
  obtain ⟨k₁, handler, hproceed, -, hgrows₁, hhandler⟩ := proceed_ok hcrates h.runs h.handler p'
  obtain ⟨k₂, logger, messages, hlog, -, hgrows₂, hlogger⟩ :=
    log_ok (m := { m with kernel := k₁, pinging := p', handler }) hcrates
      hgrows₁.runs (h.logger.grows hgrows₁) logs
  have hgrows := hgrows₁.trans hgrows₂
  simp only [Machine.step, hreceive, hproceed, hlog, Option.bind_some, Option.some.injEq] at hstep
  subst hstep
  refine ⟨hgrows.runs, hturn, (congrArg List.length htasks).trans h.count, ?_, ?_, ?_,
    hhandler.grows hgrows₂, hlogger⟩
  · intro k t ht hqueued
    exact hgrows.scheduled (h.queued k t (htasks ▸ ht) hqueued)
  · intro k t ht hstart
    exact hgrows.wakers ▸ h.started k t (htasks ▸ ht) hstart
  · show WakersIn (fun k => (Fut.ping k).id ∈ k₂.wakers) p'.sys
    rw [hgrows.wakers, hsys]
    exact hwakers

/-! ### Any step -/

/-- The handler is polled, takes a message and panics. -/
def Machine.Panics (crates : Crates) (m : Machine) : Prop :=
  (∃ id, m.kernel.point = .poll ⟨id, .handler⟩) ∧ m.handler.look = .first ∧
    m.pinging.sys.mailbox ≠ [] ∧ m.pinging.step crates.toCrates .handle = none

/-- A poll goes on unless the handler panics. -/
theorem Live.run (hcrates : crates.Reliable) (h : Live n m) {entry : Executor.Task Fut}
    (hpoint : m.kernel.point = .poll entry) (logs : Nat) :
    Advances n m (m.step crates (.run logs)) ∨
      m.Panics crates ∧ m.step crates (.run logs) = none := by
  obtain ⟨id, future⟩ := entry
  simp only [Machine.step, hpoint]
  cases future with
  | logger => exact .inl (h.runLogger hcrates hpoint)
  | ping k => exact .inl (h.runPing hcrates hpoint logs)
  | handler =>
      cases hmail : m.pinging.sys.mailbox with
      | nil => exact .inl (h.runIdleHandler hcrates hpoint (fun _ => hmail) logs)
      | cons letter rest =>
          by_cases hlook : m.handler.look = .first
          · cases hhandle : m.pinging.step crates.toCrates .handle with
            | none =>
                refine .inr ⟨⟨⟨id, hpoint⟩, hlook, by simp [hmail], hhandle⟩, ?_⟩
                simp only [Machine.runHandler, hlook, hmail, hhandle, Option.bind_none]
            | some p' => exact .inl (h.runHandler hcrates hpoint hlook hmail hhandle logs)
          · exact .inl (h.runIdleHandler hcrates hpoint (fun hc => absurd hc hlook) logs)

/-- The steps that the machine takes on its own. -/
def Event.own : Event → Bool
  | .interrupt _ _ => false
  | _ => true

/-- A step of the machine's own uses up work. -/
theorem Live.own (hcrates : crates.Reliable) (h : Live n m) {e : Event} (he : e.own = true)
    (hstep : m.step crates e = some m') : Live n m' ∧ m'.work < m.work := by
  cases e with
  | loop =>
      obtain ⟨k', hk', rfl⟩ := Option.map_eq_some_iff.mp hstep
      exact h.loop hk'
  | run logs =>
      cases hpoint : m.kernel.point with
      | poll entry =>
          rcases h.run hcrates hpoint logs with ⟨m'', hstep', hadvances⟩ | ⟨-, hnone⟩
          · rw [hstep, Option.some.injEq] at hstep'
            rw [hstep']
            exact hadvances
          · rw [hstep] at hnone
            cases hnone
      | _ =>
          simp only [Machine.step, hpoint] at hstep
          cases hstep
  | interrupt raw logs => cases he

theorem Live.step (hcrates : crates.Reliable) (h : Live n m) {e : Event}
    (hstep : m.step crates e = some m') : Live n m' := by
  cases he : e.own with
  | true => exact (h.own hcrates he hstep).1
  | false =>
      cases e with
      | interrupt raw logs => exact h.interrupt hcrates hstep
      | loop => cases he
      | run logs => cases he

/-! ### The start -/

theorem length_futures (n : Nat) : (futures n).length = n + 2 := by
  simp [futures]

theorem number_of_futures {i : Nat} {f : Fut} (h : (futures n)[i]? = some f) : f.number = i := by
  rcases i with _ | _ | i
  · cases h
    rfl
  · cases h
    rfl
  · have h : ((List.range n).map Fut.ping)[i]? = some f := h
    rw [List.getElem?_map, Option.map_eq_some_iff] at h
    obtain ⟨j, hj, rfl⟩ := h
    obtain ⟨-, rfl⟩ := List.getElem?_eq_some_iff.mp hj
    rw [List.getElem_range]
    rfl

/-- These futures have been added, and nothing else has happened. -/
structure Added (k : Kernel Fut) (futs : List Fut) : Prop where
  reached : ∃ acts, Lts.run Executor.step Kernel.setup acts = some k
  calls : k.calls.map (fun c => c.task.future) = futs
  idCount : k.idCount = UInt64.ofNat futs.length
  queue : k.queue = (List.range futs.length).map fun i => ⟨UInt64.ofNat i⟩
  point : k.point = .dequeue

theorem added_setup : Added Kernel.setup [] := ⟨⟨[], rfl⟩, rfl, rfl, rfl, rfl⟩

theorem Added.addTask {k : Kernel Fut} {futs : List Fut} (h : Added k futs) (f : Fut) :
    Added (addTask k f) (futs ++ [f]) where
  reached := by
    obtain ⟨acts, hacts⟩ := h.reached
    refine ⟨acts ++ [.fetchAdd f, .enqueueTask k.calls.length, .enqueueId k.calls.length], ?_⟩
    rw [Lts.run_append, hacts]
    exact run_addTask k f
  calls := by
    show (k.calls ++ [_]).map _ = _
    rw [List.map_append, h.calls]
    rfl
  idCount := by
    show k.idCount + 1 = _
    rw [h.idCount, List.length_append, List.length_singleton, UInt64.ofNat_add]
    rfl
  queue := by
    show k.queue ++ [⟨k.idCount⟩] = _
    rw [h.queue, h.idCount, List.length_append, List.length_singleton, List.range_succ,
      List.map_append]
    rfl
  point := h.point

theorem Added.foldl (more : List Fut) :
    ∀ {k : Kernel Fut} {futs : List Fut}, Added k futs →
      Added (more.foldl Main.addTask k) (futs ++ more) := by
  induction more with
  | nil =>
      intro k futs h
      rw [List.append_nil]
      exact h
  | cons f more ih =>
      intro k futs h
      have hmore := ih (h.addTask f)
      rw [List.append_assoc] at hmore
      exact hmore

theorem Added.runs {k : Kernel Fut} (h : Added k (futures n)) (hbound : n + 2 < 2 ^ 64) :
    Runs n k := by
  have hcount : k.calls.length = n + 2 := by
    rw [← List.length_map (f := fun c => c.task.future), h.calls, length_futures]
  obtain ⟨acts, hacts⟩ := h.reached
  refine ⟨hbound, Executor.run_sound hacts (hcount ▸ hbound), hcount, fun i c hc => ?_,
    fun entry hentry => ?_⟩
  · apply number_of_futures (n := n)
    rw [← h.calls, List.getElem?_map, hc]
    rfl
  · rw [h.point] at hentry
    cases hentry

theorem Added.scheduled {k : Kernel Fut} (h : Added k (futures n)) {f : Fut}
    (hf : f.number < n + 2) : Scheduled k f := by
  refine .of_mem ?_
  rw [h.queue, length_futures]
  exact List.mem_map.mpr ⟨f.number, List.mem_range.mpr hf, rfl⟩

theorem Live.start {h₀ : Net.Handler} {targets : List Ip} (hdistinct : targets.Nodup)
    (hbound : targets.length + 2 < 2 ^ 64)
    (hinit : (∀ ip, h₀.arp ip = none) ∧ (∀ ip, h₀.ping ip = none) ∧ ∀ i, h₀.results i = false) :
    Live targets.length (.start h₀ targets) := by
  have hadded : Added (Machine.start h₀ targets).kernel (futures targets.length) :=
    added_setup.foldl (futures targets.length)
  have hcount : (Machine.start h₀ targets).pinging.tasks.length = targets.length :=
    List.length_map ..
  have hparked : ∀ {f : Fut} {empty : Prop}, f.number < targets.length + 2 →
      Parked (Machine.start h₀ targets).kernel f ⟨.first, false⟩ empty :=
    fun hf => ⟨fun hc => (by cases hc), fun hc => absurd rfl hc, fun hc => (by cases hc),
      .inl (hadded.scheduled hf)⟩
  refine ⟨hadded.runs hbound, .start hdistinct hinit, hcount, ?_, ?_, ?_,
    hparked (show 1 < _ by omega), hparked (show 0 < _ by omega)⟩
  · intro k t ht _
    have hlt : k < targets.length := hcount ▸ (List.getElem?_eq_some_iff.mp ht).1
    exact hadded.scheduled (show k + 2 < _ by omega)
  · intro k t ht hstart
    obtain ⟨target, -, rfl⟩ := List.mem_map.mp (List.mem_of_getElem? ht)
    exact absurd rfl hstart
  · exact ⟨fun letter hmem => (by cases hmem), fun i p waker hp => (by cases hp)⟩

/-! ### At rest -/

/-- What a task waits for has a place in a map of the handler. -/
def HasPlace (h : Net.Handler) (k : Nat) (t : PingTask) : Prop :=
  match t.point with
  | .getMac call => h.arp t.target = some call
  | .rawPing _ ping => h.ping t.target = some (k, ping)
  | _ => False

/-- The kernel waits at an empty run queue, and only a frame can change that: nothing is left
to process or to print, and every ping has its place with the handler. -/
structure Machine.AtRest (m : Machine) : Prop where
  point : m.kernel.point = .dequeue
  queue : m.kernel.queue = []
  mailbox : m.pinging.sys.mailbox = []
  logQueue : m.logQueue = 0
  waiting : ∀ k t, m.pinging.tasks[k]? = some t → HasPlace m.pinging.sys.handler k t

theorem not_scheduled {k : Kernel Fut} (hpoint : k.point = .dequeue) (hqueue : k.queue = [])
    (f : Fut) : ¬ Scheduled k f := by
  rintro (hmem | ⟨entry, hentry, -⟩)
  · rw [Kernel.inHand, hpoint, hqueue] at hmem
    cases hmem
  · rw [hpoint] at hentry
    cases hentry

/-- An empty run queue means that nobody can go on. -/
theorem Live.atRest (h : Live n m) (hpoint : m.kernel.point = .dequeue)
    (hqueue : m.kernel.queue = []) : m.AtRest := by
  have hnone := not_scheduled hpoint hqueue
  have hmail := (h.handler.awake.resolve_left (hnone _)).2
  refine ⟨hpoint, hqueue, hmail, (h.logger.awake.resolve_left (hnone _)).2, fun k t ht => ?_⟩
  have hqueued : t.queued = false := by
    cases hq : t.queued with
    | false => rfl
    | true => exact absurd (h.queued k t ht hq) (hnone _)
  have hawaits := (h.turn.tasks k t ht).awaits h.turn.inTurn hqueued
  obtain ⟨target, point, queued, received⟩ := t
  rw [Net.Awaits, hmail] at hawaits
  cases point with
  | getMac call => exact hawaits.resolve_left List.not_mem_nil
  | rawPing mac ping => exact hawaits.resolve_left List.not_mem_nil
  | _ => exact hawaits.elim

theorem iterate_eq_none {k : Kernel Fut} (h : k.iterate = none) :
    (k.point = .dequeue ∧ k.queue = []) ∨ ∃ entry, k.point = .poll entry := by
  unfold Kernel.iterate at h
  cases hpoint : k.point with
  | dequeue =>
      simp only [hpoint] at h
      cases hqueue : k.queue with
      | nil => exact .inl ⟨rfl, rfl⟩
      | cons id rest =>
          simp only [hqueue] at h
          cases h
  | drain id =>
      simp only [hpoint] at h
      split at h <;> cases h
  | lookup id =>
      simp only [hpoint] at h
      split at h <;> cases h
  | poll entry => exact .inr ⟨entry, rfl⟩

/-- A machine that cannot go on is at rest, or the handler panics. -/
theorem Live.stuck (hcrates : crates.Reliable) (h : Live n m)
    (hstuck : ∀ e, e.own = true → m.step crates e = none) : m.AtRest ∨ m.Panics crates := by
  rcases iterate_eq_none (Option.map_eq_none_iff.mp (hstuck .loop rfl)) with
    ⟨hpoint, hqueue⟩ | ⟨entry, hpoint⟩
  · exact .inl (h.atRest hpoint hqueue)
  · rcases h.run hcrates hpoint 0 with ⟨m', hstep, -⟩ | ⟨hpanics, -⟩
    · rw [hstuck (.run 0) rfl] at hstep
      cases hstep
    · exact .inr hpanics

/-- The machine of a run from the set-up of some devices. -/
def machineFrom (crates : Crates) (devices : List Net.NetworkDevice) (targets : List Ip)
    (events : List Event) : Option (Net.Handler × Machine) := do
  let h₀ ← (Net.Handler.setup devices (fun _ => .new)).toOption
  let m ← Lts.run (Machine.step crates) (.start h₀ targets) events
  return (h₀, m)

theorem exists_of_machineFrom {crates : Crates} {devices : List Net.NetworkDevice}
    {targets : List Ip} {events : List Event} {B : Type} {f : Net.Handler × Machine → B} {b : B}
    (h : (machineFrom crates devices targets events).map f = some b) :
    ∃ h₀ m, Net.Handler.setup devices (fun _ => .new) = .ok h₀ ∧
      Lts.run (Machine.step crates) (.start h₀ targets) events = some m ∧ f (h₀, m) = b :=
  Slice.exists_of_started h

/-- Crates that wake whoever can go on. -/
def reliableCrates : Crates where
  toCrates := Net.readyCrates
  enqueueWakes := true
  looksAgain := true

theorem reliableCrates_reliable : reliableCrates.Reliable where
  wakesReady := Net.readyCrates_wakesReady
  quiet := fun q => by
    show ((Net.getMacPoll q).isNone && (Net.getMacPoll q).isSome) = false
    cases Net.getMacPoll q <;> rfl
  yieldWakes := rfl
  yieldReady := rfl
  enqueueWakes := rfl
  looksAgain := rfl

/-- All are polled once, then the logger for what the handler has logged, then the handler for
the request of the ping. -/
def bootEvents : List Event :=
  [.loop, .loop, .loop, .loop, .loop, .loop, .run 0, .run 0, .run 0,
    .loop, .loop, .loop, .run 0, .run 0, .run 1, .loop, .loop, .loop, .run 0,
    .loop, .loop, .loop, .run 0, .run 0, .run 0,
    .loop, .loop, .loop, .run 0, .run 0, .run 0, .run 0]

/-- If `dequeue` did not look again, a frame that arrives between its look and its waker would
stay on the queue of the handler. -/
example :
    ((machineFrom { reliableCrates with looksAgain := false } Net.oneDevice []
      [.loop, .loop, .loop, .loop, .loop, .run 0, .run 0, .run 0, .loop, .loop, .loop, .run 0,
        .interrupt ⟨0, .new (Net.arpResponse Net.hostMac Net.hostIp)⟩ 0, .run 0, .run 0]).map
      fun r => (r.2.kernel.point, r.2.kernel.queue, r.2.pinging.sys.mailbox.length))
      = some (.dequeue, [], 1) := by
  decide +kernel

end Rucoonos.Main
