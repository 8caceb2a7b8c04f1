/-
The kernel with the tasks that `kernel_main` gives it.

`Kernel/Executor.lean` knows nothing of what a future does, and `Net/PingTasks.lean` nothing
of how the kernel comes to poll a task.  Here the two are put together: the logger, the
network handler and any number of ping tasks are added before the kernel runs, an id is on
the run queue because somebody put it there, and the body of a future runs when the kernel
polls it.  The only thing that comes from outside is a frame, with the interrupt.

The handler and the logger each wait for a queue of their own, whose `dequeue` first looks
at the queue, then leaves the waker of the task there and then looks again; an interrupt may
come between any two of these.  Whether it looks again, and whether an enqueue wakes the task
whose waker is there, is up to another crate.  So these are parameters, as are the wake-ups of
`ping`, and `Crates.Reliable` says what is needed of all of them.  What the tasks log is not of
interest here, only that they do: when a message is handled, when a poll returns and at an
interrupt any number of messages gets on the queue of the logger.
-/
import Rucoonos.Lib.Weights
import Rucoonos.Proofs.Kernel.Executor
import Rucoonos.Proofs.Net.PingTasks

namespace Rucoonos.Main

open Executor (Kernel TaskID Sound)
open Net (Pinging PingTask PingsInTurn System Letter)

/-! ### The tasks -/

/-- The futures that `kernel_main` adds. -/
inductive Fut
  | logger
  | handler
  | ping (k : Nat)
  deriving DecidableEq, Repr

/-- They are added in this order, and so get these ids. -/
def Fut.number : Fut → Nat
  | .logger => 0
  | .handler => 1
  | .ping k => k + 2

def Fut.id (f : Fut) : TaskID := ⟨UInt64.ofNat f.number⟩

def futures (n : Nat) : List Fut := .logger :: .handler :: (List.range n).map .ping

/-- A call of `add_task` from its beginning to its end. -/
def addTask (k : Kernel Fut) (f : Fut) : Kernel Fut :=
  let task : Executor.Task Fut := ⟨⟨k.idCount⟩, f⟩
  { k with
    idCount := k.idCount + 1
    calls := k.calls ++ [⟨task, .finished⟩]
    addQueue := k.addQueue ++ [task]
    queue := k.queue ++ [task.id]
    history := k.history ++ [.enqueued task.id] }

theorem run_addTask (k : Kernel Fut) (f : Fut) :
    Lts.run Executor.step k
      [.fetchAdd f, .enqueueTask k.calls.length, .enqueueId k.calls.length]
        = some (addTask k f) := by
  simp [Executor.step, Kernel.fetchAdd, Kernel.enqueueTask, Kernel.enqueueId, Kernel.enqueue,
    addTask]

/-! ### The machine -/

/-- What the tasks use of other crates: beside what `ping` does, the unbounded queue of `nolock`
that the handler and the logger wait for. -/
structure Crates extends Net.Crates where
  /-- An enqueue wakes the task that has left its waker with the queue. -/
  enqueueWakes : Bool
  /-- A `dequeue` that has left the waker looks at the queue again before it returns. -/
  looksAgain : Bool

/-- No crate loses a wake-up or wakes a task for nothing. -/
structure Crates.Reliable (crates : Crates) : Prop where
  wakesReady : crates.WakesReady
  quiet : ∀ q, crates.wakesReceiver q q = false
  yieldWakes : crates.yieldWakes = true
  yieldReady : crates.yieldReady = true
  enqueueWakes : crates.enqueueWakes = true
  looksAgain : crates.looksAgain = true

/-- What `dequeue` does next. -/
inductive Look
  /-- It looks at the queue. -/
  | first
  /-- There was nothing, so it leaves its waker with the queue. -/
  | leave
  /-- It looks again, or returns `Poll::Pending`. -/
  | again
  deriving DecidableEq, Repr

/-- A future that takes messages off a queue of its own. -/
structure Reader where
  look : Look
  /-- The queue has its waker. -/
  waker : Bool
  deriving DecidableEq, Repr

/-- Something has been put on the queue. -/
def Reader.notified (crates : Crates) (r : Reader) : Reader :=
  { r with waker := r.waker && !crates.enqueueWakes }

/-- The task that is woken by that. -/
def Reader.wakes (crates : Crates) (r : Reader) (f : Fut) : List Fut :=
  if r.waker = true ∧ crates.enqueueWakes = true then [f] else []

structure Machine where
  kernel : Kernel Fut
  pinging : Pinging
  /-- The handler takes messages off `HANDLE_QUEUE`. -/
  handler : Reader
  logger : Reader
  /-- How many messages are on the queue of the logger. -/
  logQueue : Nat

inductive Event
  /-- A step of the loop in `Kernel::run`. -/
  | loop
  /-- The poll the kernel is in goes on, and may log so many messages. -/
  | run (logs : Nat)
  /-- A frame arrives. -/
  | interrupt (raw : RawPacket) (logs : Nat)

/-- Tasks are woken, one after the other. -/
def Machine.wake (m : Machine) (futs : List Fut) : Option Machine :=
  (Lts.run Executor.step m.kernel (futs.map fun f => .wake f.id)).map fun kernel =>
    { m with kernel }

/-- Messages are put on the queue of the logger. -/
def Machine.log (crates : Crates) (m : Machine) (logs : Nat) : Option Machine :=
  if logs = 0 then some m
  else
    { m with logQueue := m.logQueue + logs, logger := m.logger.notified crates }.wake
      (m.logger.wakes crates .logger)

/-- A future has done something, and may have put messages on `HANDLE_QUEUE`. -/
def Machine.proceed (crates : Crates) (m : Machine) (pinging : Pinging) : Option Machine :=
  if m.pinging.sys.mailbox.length < pinging.sys.mailbox.length then
    { m with pinging, handler := m.handler.notified crates }.wake (m.handler.wakes crates .handler)
  else some { m with pinging }

/-- The future returns `Poll::Pending`. -/
def Machine.suspend (m : Machine) : Option Machine :=
  (m.kernel.pollReturn .pending).map fun kernel => { m with kernel }

/-- The tasks that a step of the handler wakes. -/
def wokenBy (crates : Crates) (n n' : Pinging) : List Fut :=
  (n.tasks.zipIdx.filter fun (t, k) => Net.wakes crates.toCrates n.sys n'.sys k t).map
    fun (_, k) => .ping k

/-- The task has woken itself while it was polled. -/
def yields (n : Pinging) (k : Nat) : List Fut :=
  match n.tasks[k]? with
  | some t => if t.queued = true then [.ping k] else []
  | none => []

/-- The poll of the logger goes on. -/
def Machine.runLogger (crates : Crates) (m : Machine) : Option Machine :=
  match m.logger.look with
  -- It prints what there is.
  | .first => some { m with logger.look := .leave, logQueue := 0 }
  | .leave => some { m with logger := ⟨.again, true⟩ }
  | .again =>
      if crates.looksAgain = true ∧ m.logQueue ≠ 0 then some { m with logger.look := .first }
      else Machine.suspend { m with logger.look := .first }

/-- The poll of the handler goes on. -/
def Machine.runHandler (crates : Crates) (m : Machine) (logs : Nat) : Option Machine :=
  match m.handler.look with
  | .first =>
      match m.pinging.sys.mailbox with
      | [] => some { m with handler.look := .leave }
      | _ :: _ =>
          (m.pinging.step crates.toCrates .handle).bind fun pinging =>
            ({ m with pinging }.wake (wokenBy crates m.pinging pinging)).bind fun m =>
              m.log crates logs
  | .leave => some { m with handler := ⟨.again, true⟩ }
  | .again =>
      if crates.looksAgain = true ∧ m.pinging.sys.mailbox ≠ [] then
        some { m with handler.look := .first }
      else (Machine.log crates { m with handler.look := .first } logs).bind Machine.suspend

/-- The poll of a ping task, which does not wait for anything on its way. -/
def Machine.runPing (crates : Crates) (m : Machine) (k logs : Nat) : Option Machine :=
  (m.pinging.step crates.toCrates (.poll k)).bind fun pinging =>
    (m.proceed crates pinging).bind fun m =>
      (m.wake (yields pinging k)).bind fun m =>
        (m.log crates logs).bind Machine.suspend

def Machine.step (crates : Crates) (m : Machine) : Event → Option Machine
  | .loop => m.kernel.iterate.map fun kernel => { m with kernel }
  | .run logs =>
      match m.kernel.point with
      | .poll ⟨_, .logger⟩ => m.runLogger crates
      | .poll ⟨_, .handler⟩ => m.runHandler crates logs
      | .poll ⟨_, .ping k⟩ => m.runPing crates k logs
      | _ => none
  | .interrupt raw logs =>
      (m.pinging.step crates.toCrates (.receive raw)).bind fun pinging =>
        (m.proceed crates pinging).bind fun m => m.log crates logs

/-- The machine when `kernel_main` calls `kernel.run()`. -/
def Machine.start (h : Net.Handler) (targets : List Ip) : Machine where
  kernel := (futures targets.length).foldl addTask Kernel.setup
  pinging := .start h targets
  handler := ⟨.first, false⟩
  logger := ⟨.first, false⟩
  logQueue := 0

/-! ### The kernel's part -/

section Kernel

variable {n : Nat} {k k' : Kernel Fut} {f : Fut}

theorem Fut.number_inj {f g : Fut} (h : f.number = g.number) : f = g := by
  cases f <;> cases g <;> simp_all [Fut.number]

theorem Fut.id_inj {f g : Fut} (hf : f.number < 2 ^ 64) (hg : g.number < 2 ^ 64)
    (h : f.id = g.id) : f = g :=
  Fut.number_inj (Executor.ofNat_inj_of_lt hf hg (TaskID.mk.inj h))

/-- The kernel has the tasks of `n` pings, beside the handler and the logger. -/
structure Runs (n : Nat) (k : Kernel Fut) : Prop where
  bound : n + 2 < 2 ^ 64
  sound : Sound k
  count : k.calls.length = n + 2
  future : ∀ (i : Nat) c, k.calls[i]? = some c → c.task.future.number = i
  polled : ∀ entry, k.point = .poll entry → entry ∈ k.tasks ∧ entry.id ∈ k.wakers

/-- A task that the kernel knows has the id of its future. -/
theorem Runs.entry (h : Runs n k) {entry : Executor.Task Fut} (hentry : entry ∈ k.tasks) :
    entry.future.number < n + 2 ∧ entry.id = entry.future.id := by
  obtain ⟨i, stage, hcall, -⟩ := h.sound.ledger.called entry (Executor.tasks_subset_known hentry)
  have hnumber := h.future i _ hcall
  have hlt := (List.getElem?_eq_some_iff.mp hcall).1
  have hid := h.sound.ledger.drawn i _ hcall
  have hid : entry.id = ⟨UInt64.ofNat i⟩ := hid
  have hnumber : entry.future.number = i := hnumber
  rw [h.count] at hlt
  exact ⟨hnumber ▸ hlt, by rw [hid, Fut.id, hnumber]⟩

/-- The future is on the run queue, in the kernel's hand, or polled. -/
def Scheduled (k : Kernel Fut) (f : Fut) : Prop :=
  f.id ∈ k.inHand ++ k.queue ∨ ∃ entry, k.point = .poll entry ∧ entry.future = f

/-! How much the kernel has to do.  From the run queue to its poll an id takes three steps, a
reader takes three more until it waits, and what a poll of the handler or of a ping logs may
wake the logger. -/

def weight (id : TaskID) : Nat := if id = Fut.logger.id then 6 else 12

def pointWork : Executor.Point Fut → Nat
  | .dequeue => 0
  | .drain id => weight id - 1
  | .lookup id => weight id - 2
  | .poll entry => weight entry.id - 3

def queueWork (queue : List TaskID) : Nat := (queue.map weight).sum

def kernelWork (k : Kernel Fut) : Nat :=
  queueWork k.queue + pointWork k.point + k.addQueue.length

theorem queueWork_cons (id : TaskID) (queue : List TaskID) :
    queueWork (id :: queue) = weight id + queueWork queue := by
  rw [queueWork, List.map_cons, List.sum_cons]
  rfl

theorem queueWork_append (queue more : List TaskID) :
    queueWork (queue ++ more) = queueWork queue + queueWork more := by
  rw [queueWork, List.map_append, List.sum_append]
  rfl

theorem weight_cases (id : TaskID) : weight id = 6 ∨ weight id = 12 := by
  unfold weight
  split
  · exact .inl rfl
  · exact .inr rfl

/-- What a step of the kernel does to its invariants; nobody adds tasks any more. -/
theorem Runs.step (h : Runs n k) {a : Executor.Action Fut} (hcalls : k'.calls = k.calls)
    (hpolled : ∀ entry, k'.point = .poll entry → entry ∈ k'.tasks ∧ entry.id ∈ k'.wakers)
    (hstep : Executor.step k a = some k') : Runs n k' := by
  have hbound := h.bound
  refine ⟨hbound, Executor.step_sound_inv hstep ?_ h.sound, ?_, ?_, hpolled⟩
  · rw [hcalls, h.count]
    exact hbound
  · rw [hcalls, h.count]
  · rw [hcalls]
    exact h.future

/-- Ids have been put on the run queue, which is worth so much. -/
structure Grows (n : Nat) (k k' : Kernel Fut) (work : Nat) : Prop where
  runs : Runs n k'
  point : k'.point = k.point
  wakers : k'.wakers = k.wakers
  queue : k.queue <+: k'.queue
  work : kernelWork k' ≤ kernelWork k + work

theorem Grows.refl (h : Runs n k) : Grows n k k 0 :=
  ⟨h, rfl, rfl, List.prefix_refl _, Nat.le_refl _⟩

theorem Grows.trans {k'' : Kernel Fut} {a b : Nat} (h : Grows n k k' a) (h' : Grows n k' k'' b) :
    Grows n k k'' (a + b) :=
  ⟨h'.runs, h'.point.trans h.point, h'.wakers.trans h.wakers, h.queue.trans h'.queue,
    by have := h.work; have := h'.work; omega⟩

theorem Scheduled.of_mem (h : f.id ∈ k.queue) : Scheduled k f := .inl (List.mem_append_right _ h)

theorem Grows.scheduled {c : Nat} (h : Grows n k k' c) (hf : Scheduled k f) : Scheduled k' f := by
  unfold Scheduled at hf ⊢
  rw [Kernel.inHand, h.point]
  refine hf.imp_left fun hmem => ?_
  rcases List.mem_append.mp hmem with hmem | hmem
  · exact List.mem_append_left _ hmem
  · exact List.mem_append_right _ (h.queue.subset hmem)

/-- A wake. -/
theorem Runs.wake (h : Runs n k) (hf : f.id ∈ k.wakers) :
    ∃ k', Executor.step k (.wake f.id) = some k' ∧ Grows n k k' (weight f.id) ∧
      f.id ∈ k'.queue := by
  have hstep : Executor.step k (.wake f.id) = some (k.enqueue f.id) := if_pos hf
  refine ⟨_, hstep, ⟨h.step rfl h.polled hstep, rfl, rfl, List.prefix_append _ _, ?_⟩,
    List.mem_append_right _ (List.mem_singleton_self _)⟩
  show queueWork (k.queue ++ [f.id]) + pointWork k.point + k.addQueue.length
    ≤ queueWork k.queue + pointWork k.point + k.addQueue.length + weight f.id
  rw [queueWork_append, queueWork_cons]
  show _ + (_ + 0) + _ + _ ≤ _
  omega

/-- Several wakes. -/
theorem Runs.wakes (futs : List Fut) : ∀ {k : Kernel Fut}, Runs n k →
    (∀ f ∈ futs, f.id ∈ k.wakers) →
    ∃ k', Lts.run Executor.step k (futs.map fun f => .wake f.id) = some k' ∧
      Grows n k k' (queueWork (futs.map Fut.id)) ∧ ∀ f ∈ futs, f.id ∈ k'.queue := by
  induction futs with
  | nil =>
      intro k h _
      exact ⟨k, rfl, .refl h, fun f hf => absurd hf List.not_mem_nil⟩
  | cons g futs ih =>
      intro k h hwakers
      obtain ⟨k₁, hstep, hgrows, hg⟩ := h.wake (hwakers g List.mem_cons_self)
      obtain ⟨k₂, hrun, hgrows', hfuts⟩ := ih hgrows.runs fun f hf => by
        rw [hgrows.wakers]
        exact hwakers f (List.mem_cons_of_mem _ hf)
      refine ⟨k₂, ?_, ?_, ?_⟩
      · rw [List.map_cons, Lts.run_cons, hstep]
        exact hrun
      · rw [List.map_cons, queueWork_cons]
        exact hgrows.trans hgrows'
      · intro f hf
        rcases List.mem_cons.mp hf with rfl | hf
        · exact hgrows'.queue.subset hg
        · exact hfuts f hf

/-- A step of the loop moves an id from the run queue to its poll. -/
theorem Runs.iterate (h : Runs n k) (hstep : k.iterate = some k') :
    Runs n k' ∧ (∀ f, f.number < n + 2 → Scheduled k f → Scheduled k' f) ∧
      (∀ id ∈ k.wakers, id ∈ k'.wakers) ∧ kernelWork k' < kernelWork k := by
  have hstep : Executor.step k .iterate = some k' := hstep
  have hbound := h.bound
  cases Executor.step_sound hstep with
  | dequeue runId rest hpoint hqueue =>
      refine ⟨h.step rfl (fun entry hentry => by cases hentry) hstep, ?_, fun _ hid => hid, ?_⟩
      · rintro f - (hf | ⟨entry, hentry, -⟩)
        · left
          rw [Kernel.inHand, hpoint, hqueue] at hf
          exact hf
        · rw [hpoint] at hentry
          cases hentry
      · rw [kernelWork, kernelWork, hqueue, hpoint, queueWork_cons]
        show queueWork rest + (weight runId - 1) + k.addQueue.length
          < weight runId + queueWork rest + 0 + k.addQueue.length
        have := weight_cases runId
        omega
  | drain runId task rest hpoint hadd =>
      refine ⟨h.step rfl (fun entry hentry => ?_) hstep, ?_, fun _ hid => hid, ?_⟩
      · have hentry : k.point = .poll entry := hentry
        rw [hpoint] at hentry
        cases hentry
      · rintro f - (hf | hf)
        · exact .inl hf
        · exact .inr hf
      · rw [kernelWork, kernelWork, hadd, List.length_cons]
        exact Nat.lt_succ_self _
  | drained runId hpoint hadd =>
      refine ⟨h.step rfl (fun entry hentry => by cases hentry) hstep, ?_, fun _ hid => hid, ?_⟩
      · rintro f - (hf | ⟨entry, hentry, -⟩)
        · left
          rw [Kernel.inHand, hpoint] at hf
          exact hf
        · rw [hpoint] at hentry
          cases hentry
      · rw [kernelWork, kernelWork, hpoint]
        show queueWork k.queue + (weight runId - 2) + k.addQueue.length
          < queueWork k.queue + (weight runId - 1) + k.addQueue.length
        have := weight_cases runId
        omega
  | poll runId entry hpoint hfind =>
      have hmem : entry ∈ k.tasks := List.mem_of_find?_eq_some hfind
      have hid : entry.id = runId := by simpa using List.find?_some hfind
      obtain ⟨hlt, hfuture⟩ := h.entry hmem
      refine ⟨h.step rfl (fun entry' hentry => ?_) hstep, ?_, ?_, ?_⟩
      · cases hentry
        exact ⟨hmem, List.mem_append_right _ (List.mem_singleton_self _)⟩
      · rintro f hf (hin | ⟨entry', hentry, -⟩)
        · rw [Kernel.inHand, hpoint] at hin
          rcases List.mem_append.mp hin with hin | hin
          · -- The id in hand is that of the future which is polled now.
            refine .inr ⟨entry, rfl, Fut.id_inj (by omega) (by omega) ?_⟩
            rw [← hfuture, hid]
            exact (List.mem_singleton.mp hin).symm
          · exact .inl (List.mem_append_right _ hin)
        · rw [hpoint] at hentry
          cases hentry
      · exact fun id hmem => List.mem_append_left _ hmem
      · rw [kernelWork, kernelWork, hpoint]
        show queueWork k.queue + (weight entry.id - 3) + k.addQueue.length
          < queueWork k.queue + (weight runId - 2) + k.addQueue.length
        have := weight_cases runId
        rw [hid]
        omega
  | unavailable runId hpoint hfind => exact absurd hfind (h.sound.supplied.find hpoint)

/-- The poll returns. -/
theorem Runs.pollReturn (h : Runs n k) {entry : Executor.Task Fut}
    (hpoint : k.point = .poll entry) :
    ∃ k', k.pollReturn .pending = some k' ∧ Runs n k' ∧
      (∀ f, f ≠ entry.future → Scheduled k f → Scheduled k' f) ∧ k'.wakers = k.wakers ∧
      k'.queue = k.queue ∧ kernelWork k' + (weight entry.id - 3) = kernelWork k := by
  have hreturn : k.pollReturn .pending = some
      { k with point := .dequeue, history := k.history ++ [.returned entry .pending] } := by
    rw [Kernel.pollReturn, hpoint]
  have hstep : Executor.step k (.pollReturn .pending) = _ := hreturn
  refine ⟨_, hreturn, h.step rfl (fun entry hentry => by cases hentry) hstep, ?_, rfl, rfl, ?_⟩
  · rintro f hne (hf | ⟨entry', hentry, hfut⟩)
    · left
      rw [Kernel.inHand, hpoint] at hf
      exact hf
    · rw [hpoint] at hentry
      cases hentry
      exact absurd hfut.symm hne
  · rw [kernelWork, kernelWork, hpoint]
    show queueWork k.queue + 0 + k.addQueue.length + (weight entry.id - 3)
      = queueWork k.queue + (weight entry.id - 3) + k.addQueue.length
    omega

end Kernel

/-! ### Wakers -/

section Wakers

variable {crates : Net.Crates} {P : Nat → Prop} {s s' : System} {k : Nat} {t t' : PingTask}

/-- All wakers in the handler's queue and in its maps are such. -/
structure WakersIn (P : Nat → Prop) (s : System) : Prop where
  letters : ∀ letter ∈ s.mailbox, ∀ waker ip mac i,
    letter.message = .action (.pingRequest waker ip mac i) → P waker
  pings : ∀ (i : Nat) p waker, s.pings[i]? = some p → p.requested = some waker → P waker

theorem WakersIn.mono {Q : Nat → Prop} (h : WakersIn P s) (hPQ : ∀ k, P k → Q k) :
    WakersIn Q s :=
  ⟨fun letter hmem waker ip mac i hm => hPQ _ (h.letters letter hmem waker ip mac i hm),
    fun i p waker hp hr => hPQ _ (h.pings i p waker hp hr)⟩

/-- Only a poll brings a waker in. -/
theorem WakersIn.step (h : WakersIn P s) {a : Net.Action}
    (ha : ∀ i waker, a = .pollPing i waker → P waker) (hstep : s.step a = some s') :
    WakersIn P s' := by
  cases Net.step_move hstep with
  | getMac =>
      refine ⟨fun letter hmem waker ip mac i hm => ?_, h.pings⟩
      rcases List.mem_append.mp hmem with hmem | hmem
      · exact h.letters letter hmem waker ip mac i hm
      · rw [List.mem_singleton.mp hmem] at hm
        cases hm
  | rawPing =>
      refine ⟨h.letters, fun i p waker hp hr => ?_⟩
      rcases Net.getElem?_concat_eq_some.mp hp with hp | ⟨-, rfl⟩
      · exact h.pings i p waker hp hr
      · cases hr
  | pingPosted hping hsend hip =>
      rename_i j w ping ip' mac'
      refine ⟨fun letter hmem waker ip mac i hm => ?_, fun i p waker hp hr => ?_⟩
      · rcases List.mem_append.mp hmem with hmem | hmem
        · exact h.letters letter hmem waker ip mac i hm
        · rw [List.mem_singleton.mp hmem] at hm
          cases hm
          exact ha j w rfl
      · rcases Net.getElem?_set_eq_some.mp hp with ⟨rfl, -, rfl⟩ | ⟨-, hp⟩
        · exact h.pings j ping waker hping hr
        · exact h.pings i p waker hp hr
  | receive =>
      refine ⟨fun letter hmem waker ip mac i hm => ?_, h.pings⟩
      rcases List.mem_append.mp hmem with hmem | hmem
      · exact h.letters letter hmem waker ip mac i hm
      · rw [List.mem_singleton.mp hmem] at hm
        cases hm
  | handled hmail hh' =>
      rename_i letter rest h'
      obtain ⟨message, answers⟩ := letter
      refine ⟨fun letter hmem => h.letters letter (hmail ▸ List.mem_cons_of_mem _ hmem),
        fun i p' waker hp' hr => ?_⟩
      cases message with
      | packet raw =>
          cases hsource : Net.echoSource s.handler (.packet raw) with
          | none =>
              rw [Net.pings_handled hsource] at hp'
              exact h.pings i p' waker hp' hr
          | some ip =>
              rw [Net.getElem?_pings_handled hsource] at hp'
              obtain ⟨p, hp, rfl⟩ := Option.map_eq_some_iff.mp hp'
              rw [(p.hear_same ip).2.2] at hr
              exact h.pings i p waker hp hr
      | action request =>
          cases request with
          | sendArpRequest ip j => exact h.pings i p' waker hp' hr
          | pingRequest w ip mac j =>
              obtain ⟨p, hp, rfl⟩ := Net.getElem?_modify_eq_some.mp hp'
              split at hr
              · cases hr
                exact h.letters _ (hmail ▸ List.mem_cons_self) waker ip mac j rfl
              · exact h.pings i p waker hp hr
  | _ => exact ⟨h.letters, h.pings⟩

theorem WakersIn.pollPing (h : WakersIn P s) (hk : P k) {mac : Mac} {ping : Nat}
    (hpoll : t.pollPing crates k mac ping s = some (t', s')) : WakersIn P s' := by
  obtain ⟨s₁, hs₁, heq⟩ := Option.map_eq_some_iff.mp hpoll
  have h₁ := h.step (fun i waker ha => by cases ha; exact hk) hs₁
  split at heq
  · cases heq
    exact h₁
  · cases heq
    exact h₁

theorem WakersIn.round (h : WakersIn P s) (hk : P k) {mac : Mac}
    (hpoll : t.round crates k mac s = some (t', s')) : WakersIn P s' := by
  obtain ⟨s₁, hs₁, hrest⟩ := Option.bind_eq_some_iff.mp hpoll
  exact (h.step (fun i waker ha => by cases ha) hs₁).pollPing hk hrest

theorem WakersIn.pollMac (h : WakersIn P s) (hk : P k) {call : Nat}
    (hpoll : t.pollMac crates k call s = some (t', s')) : WakersIn P s' := by
  obtain ⟨s₁, hs₁, hrest⟩ := Option.bind_eq_some_iff.mp hpoll
  have h₁ := h.step (fun i waker ha => by cases ha) hs₁
  split at hrest
  · cases hrest
    exact h₁
  · cases hrest
  · exact h₁.round hk hrest

theorem WakersIn.poll (h : WakersIn P s) (hk : P k)
    (hpoll : t.poll crates k s = some (t', s')) : WakersIn P s' := by
  unfold PingTask.poll at hpoll
  split at hpoll
  · obtain ⟨s₁, hs₁, hrest⟩ := Option.bind_eq_some_iff.mp hpoll
    exact (h.step (fun i waker ha => by cases ha) hs₁).pollMac hk hrest
  · exact h.pollMac hk hpoll
  · exact h.pollPing hk hpoll
  · split at hpoll
    · exact h.round hk hpoll
    · cases hpoll
      exact h

/-- Whoever is woken has left a waker. -/
theorem WakersIn.woken (h : WakersIn P s) (hb : Net.Bound s) (hstep : s.step .handle = some s')
    {waker : Nat} (hmem : waker ∈ s'.handler.woken.drop s.handler.woken.length) : P waker := by
  cases Net.step_move hstep with
  | handled hmail hh' =>
      rename_i letter rest h'
      obtain ⟨message, answers⟩ := letter
      change waker ∈ h'.woken.drop s.handler.woken.length at hmem
      cases message with
      | packet raw =>
          rcases Net.packet_ping hh' with ⟨-, -, -, hwoken⟩ | ⟨ip, -, -, -, -, hwoken⟩ |
            ⟨ip, w, result, -, hslot, -, -, hwoken⟩
          · rw [hwoken, List.drop_length] at hmem
            cases hmem
          · rw [hwoken, List.drop_length] at hmem
            cases hmem
          · rw [hwoken, List.drop_left, List.mem_singleton] at hmem
            obtain ⟨p, hp, -, hrequested, -⟩ := hb ip w result hslot
            rw [hmem]
            exact h.pings result p w hp hrequested
      | action request =>
          cases request with
          | sendArpRequest ip j =>
              obtain ⟨devices, rfl⟩ := Net.step_sendArpRequest hh'
              rw [List.drop_length] at hmem
              cases hmem
          | pingRequest w ip mac j =>
              obtain ⟨devices, -, rfl⟩ := Net.step_pingRequest hh'
              rw [List.drop_length] at hmem
              cases hmem

end Wakers

/-! ### What the tasks have left to do -/

section Effort

variable {crates : Net.Crates} {s s' : System} {replies : Ip → Nat} {k : Nat} {t t' : PingTask}

/-- What a task can do before it waits for the network again: a request is worth 19, for the
letter and the handler that may have to be woken for it, and a yield is worth 12. -/
def effort (s : System) (t : PingTask) : Nat :=
  match t.point with
  | .start => 19
  | .getMac call => if (Net.getMacPoll (s.handler.retQueues call)).isSome = true then 19 else 0
  | .rawPing _ ping => if s.handler.results ping = true then 31 else 0
  | .yieldNow _ => 19

theorem effort_le (s : System) (t : PingTask) : effort s t ≤ 31 := by
  unfold effort
  split
  · decide
  · split <;> decide
  · split <;> decide
  · decide

/-- A poll leaves requests on the queue and the task where it is, all within a budget. -/
def Spends (s : System) (budget : Nat) (t' : PingTask) (s' : System) : Prop :=
  ∃ requests : List Net.ActionRequest,
    s'.mailbox = s.mailbox ++ requests.map (fun request => ⟨.action request, none⟩) ∧
      effort s' t' + 19 * requests.length + (if t'.queued = true then 12 else 0) ≤ budget

/-- A round posts one request. -/
theorem spends_round (h : Net.InTurn s) {mac : Mac} (hqueued : t.queued = false)
    (hround : t.round crates k mac s = some (t', s')) : Spends s 19 t' s' := by
  obtain ⟨hunset, -, heq⟩ := Net.round_eq crates h k mac t
  rw [heq] at hround
  cases hround
  refine ⟨[_], rfl, ?_⟩
  show (if s.handler.results s.pings.length = true then 31 else 0) + 19
    + (if t.queued = true then 12 else 0) ≤ 19
  rw [hunset, hqueued]
  decide

theorem spends_pollMac {call : Nat} (h : Net.InTurn s) (hr : Net.Resolving s t.target call)
    (hqueued : t.queued = false) (hpoll : t.pollMac crates k call s = some (t', s')) :
    Spends s (if (Net.getMacPoll (s.handler.retQueues call)).isSome = true then 19 else 0)
      t' s' := by
  obtain ⟨c, hc, hip, hopen, -⟩ := hr.posted
  have hlive := h.live call c hc
  cases hmac : Net.getMacPoll (s.handler.retQueues call) with
  | none =>
      have hstep := Net.pollMac_of_pending hc hopen hlive hmac
      rw [PingTask.pollMac, hstep, Option.bind_some, hc, Option.bind_some, hopen] at hpoll
      cases hpoll
      refine ⟨[], (List.append_nil _).symm, ?_⟩
      simp [effort, hmac, hqueued]
  | some r =>
      obtain ⟨result, queue⟩ := r
      have hstep := Net.pollMac_of_returned hc hopen hlive hmac
      have hset : (s.calls.set call { c with returned := some result })[call]?
          = some { c with returned := some result } :=
        List.getElem?_set_self (List.getElem?_eq_some_iff.mp hc).1
      have h₁ := h.step (a := .pollMac call) trivial hstep
      simp only [PingTask.pollMac, hstep, Option.bind_some, System.setQueue, hset] at hpoll
      cases result with
      | none => cases hpoll
      | some mac =>
          have hspends := spends_round h₁ hqueued hpoll
          exact hspends

/-- The system when a task has asked for its target. -/
def asked (s : System) (target : Ip) : System :=
  System.post (System.setQueue { s with calls := s.calls ++ [Net.Call.new target] }
    s.calls.length .new) (.action (.sendArpRequest target s.calls.length)) none

theorem spends_getMac (hqueued : t.queued = false)
    (hpoll : (s.step (.getMac t.target)).bind (t.pollMac crates k s.calls.length)
      = some (t', s')) :
    Spends s 19 t' s' := by
  have hask : s.step (.getMac t.target) = some (asked s t.target) := rfl
  have hcall : (asked s t.target).calls[s.calls.length]? = some (Net.Call.new t.target) :=
    List.getElem?_concat_length
  have hnew : Net.getMacPoll ((asked s t.target).handler.retQueues s.calls.length) = none := by
    show Net.getMacPoll (Function.update s.handler.retQueues s.calls.length .new
      s.calls.length) = none
    rw [Function.update_self]
    rfl
  have hstep := Net.pollMac_of_pending hcall rfl rfl hnew
  rw [hask, Option.bind_some, PingTask.pollMac, hstep, Option.bind_some, hcall] at hpoll
  cases hpoll
  refine ⟨[_], rfl, ?_⟩
  show (if (Net.getMacPoll ((asked s t.target).handler.retQueues s.calls.length)).isSome = true
    then 19 else 0) + 19 + (if t.queued = true then 12 else 0) ≤ 19
  rw [hnew, hqueued]
  decide

/-- **A poll spends what the task has.** -/
theorem spends_poll (hyield : crates.yieldWakes = true) (hready : crates.yieldReady = true)
    (h : Net.InTurn s) (ht : Net.TaskOK s replies k t)
    (hpoll : PingTask.poll crates { t with queued := false } k s = some (t', s')) :
    Spends s (effort s t) t' s' := by
  obtain ⟨target, point, queued, received⟩ := t
  cases point with
  | start => exact spends_getMac (t := ⟨target, .start, false, received⟩) rfl hpoll
  | getMac call =>
      exact spends_pollMac (t := ⟨target, .getMac call, false, received⟩) h ht.1 rfl hpoll
  | rawPing mac ping =>
      obtain ⟨p, hp, -, hsend, -⟩ := ht.1.posted
      have hpoll : PingTask.pollPing crates ⟨target, .rawPing mac ping, false, received⟩ k mac
        ping s = some (t', s') := hpoll
      rw [PingTask.pollPing, Net.pollPing_of_sent hp hsend, Option.map_some] at hpoll
      by_cases hflag : s.handler.results ping = true
      · rw [if_pos hflag] at hpoll
        cases hpoll
        refine ⟨[], (List.append_nil _).symm, ?_⟩
        show 19 + 19 * 0 + (if crates.yieldWakes = true then 12 else 0)
          ≤ if s.handler.results ping = true then 31 else 0
        rw [if_pos hflag, if_pos hyield]
      · rw [if_neg hflag] at hpoll
        cases hpoll
        exact ⟨[], (List.append_nil _).symm, Nat.le_refl _⟩
  | yieldNow mac =>
      simp only [PingTask.poll, if_pos hready] at hpoll
      exact spends_round (t := ⟨target, .yieldNow mac, false, received⟩) h rfl hpoll

/-- What is done for another host changes nothing for a task. -/
theorem effort_apart (ht : Net.TaskOK s replies k t) (h : Net.Apart t.target s s') :
    effort s' t = effort s t := by
  obtain ⟨target, point, queued, received⟩ := t
  cases point with
  | getMac call =>
      obtain ⟨c, hc, hip, -⟩ := ht.1.posted
      simp only [effort, h.queue call c hc hip]
  | rawPing mac ping => simp only [effort, h.results]
  | _ => rfl

theorem mailbox_handle {letter : Letter} {rest : List Letter} (hmail : s.mailbox = letter :: rest)
    (hstep : s.step .handle = some s') : s'.mailbox = rest := by
  simp only [System.step, hmail] at hstep
  obtain ⟨h', -, rfl⟩ := Option.map_eq_some_iff.mp hstep
  rfl

/-- Nobody can go on because a request was processed. -/
theorem request_quiet {request : Net.ActionRequest} {answers : Option Nat} {rest : List Letter}
    (h : Net.InTurn s) (hmail : s.mailbox = ⟨.action request, answers⟩ :: rest)
    (hstep : s.step .handle = some s') :
    s'.handler.retQueues = s.handler.retQueues ∧ s'.handler.results = s.handler.results ∧
      s'.handler.woken = s.handler.woken := by
  simp only [System.step, hmail] at hstep
  obtain ⟨h', hh', rfl⟩ := Option.map_eq_some_iff.mp hstep
  cases request with
  | sendArpRequest ip i =>
      -- The place was free, so no sender is dropped.
      have hfree : s.handler.arp ip = none := by
        obtain ⟨c, hc, hip, hnew⟩ := Net.posted_of_letter h.kept.sound hmail
        cases hslot : s.handler.arp ip with
        | none => rfl
        | some j =>
            obtain ⟨client, hclient, hkey, hasked, -⟩ := h.kept.sound.slot ip j hslot
            obtain ⟨d, hd, rfl⟩ := Net.getElem?_of_client hclient
            have hij := h.once i j c d hc hd (hip.trans hkey.symm)
            rw [hij, hd, Option.some.injEq] at hc
            rw [← hc] at hnew
            cases hnew.symm.trans hasked
      obtain ⟨devices, rfl⟩ := Net.step_sendArpRequest hh'
      refine ⟨?_, rfl, rfl⟩
      show Net.dropOld s.handler ip = _
      simp only [Net.dropOld, hfree]
  | pingRequest waker ip mac i =>
      obtain ⟨devices, -, rfl⟩ := Net.step_pingRequest hh'
      exact ⟨rfl, rfl, rfl⟩

theorem request_effort (hquiet : ∀ q, crates.wakesReceiver q q = false)
    {request : Net.ActionRequest} {answers : Option Nat} {rest : List Letter}
    (h : Net.InTurn s) (hmail : s.mailbox = ⟨.action request, answers⟩ :: rest)
    (hstep : s.step .handle = some s') (k : Nat) (t : PingTask) :
    effort s' t = effort s t ∧ Net.wakes crates s s' k t = false := by
  obtain ⟨hqueues, hresults, hwoken⟩ := request_quiet h hmail hstep
  refine ⟨by unfold effort; rw [hqueues, hresults], ?_⟩
  unfold Net.wakes
  rw [hwoken, hqueues, List.drop_length]
  cases t.point with
  | getMac call => exact hquiet _
  | _ => rfl

end Effort

/-! ### No wake-up is lost -/

/-- Where a reader stands: its queue has its waker and is empty, or the reader is scheduled. -/
structure Parked (k : Kernel Fut) (f : Fut) (r : Reader) (empty : Prop) : Prop where
  waker : r.waker = true → f.id ∈ k.wakers
  polled : r.look ≠ .first → ∃ id, k.point = .poll ⟨id, f⟩
  left : r.look = .again → r.waker = true ∨ f.id ∈ k.queue
  awake : Scheduled k f ∨ r.waker = true ∧ empty

/-- Whoever can go on is scheduled. -/
structure Live (n : Nat) (m : Machine) : Prop where
  runs : Runs n m.kernel
  turn : PingsInTurn m.pinging
  count : m.pinging.tasks.length = n
  queued : ∀ k t, m.pinging.tasks[k]? = some t → t.queued = true → Scheduled m.kernel (.ping k)
  started : ∀ k t, m.pinging.tasks[k]? = some t → t.point ≠ .start →
    (Fut.ping k).id ∈ m.kernel.wakers
  wakers : WakersIn (fun k => (Fut.ping k).id ∈ m.kernel.wakers) m.pinging.sys
  handler : Parked m.kernel .handler m.handler (m.pinging.sys.mailbox = [])
  logger : Parked m.kernel .logger m.logger (m.logQueue = 0)

def letterWork (n : Nat) (letter : Letter) : Nat :=
  match letter.message with
  | .action _ => 7
  | .packet _ => 43 * n + 7

def mailWork (n : Nat) (mailbox : List Letter) : Nat := (mailbox.map (letterWork n)).sum

theorem mailWork_cons (n : Nat) (letter : Letter) (rest : List Letter) :
    mailWork n (letter :: rest) = letterWork n letter + mailWork n rest := by
  rw [mailWork, List.map_cons, List.sum_cons]
  rfl

theorem mailWork_append (n : Nat) (mailbox more : List Letter) :
    mailWork n (mailbox ++ more) = mailWork n mailbox + mailWork n more := by
  rw [mailWork, List.map_append, List.sum_append]
  rfl

theorem mailWork_requests (n : Nat) (requests : List Net.ActionRequest) :
    mailWork n (requests.map fun request => ⟨.action request, none⟩) = 7 * requests.length := by
  induction requests with
  | nil => rfl
  | cons request requests ih =>
      rw [List.map_cons, mailWork_cons, ih, List.length_cons]
      show 7 + 7 * _ = _
      omega

def tasksWork (p : Pinging) : Nat := Weights.total (fun _ t => effort p.sys t) p.tasks

/-- What a reader has left to do until it waits.  If something has come since its first look, it
starts again. -/
def readerWork (r : Reader) (empty : Bool) : Nat :=
  match r.look with
  | .first => 2
  | .leave => if empty = true then 1 else 4
  | .again => if empty = true then 0 else 3

theorem readerWork_first {r : Reader} (h : r.look = .first) (empty : Bool) :
    readerWork r empty = 2 := by
  rw [readerWork, h]

theorem readerWork_left {r : Reader} (h : r.look = .leave) (waker empty : Bool) :
    readerWork ⟨.again, waker⟩ empty + 1 = readerWork r empty := by
  cases empty <;> rw [readerWork, readerWork, h] <;> rfl

/-- How many steps the machine can take on its own. -/
def Machine.work (m : Machine) : Nat :=
  kernelWork m.kernel + mailWork m.pinging.tasks.length m.pinging.sys.mailbox
    + tasksWork m.pinging + readerWork m.handler m.pinging.sys.mailbox.isEmpty
    + readerWork m.logger (m.logQueue == 0)

section Parts

variable {crates : Crates} {n : Nat} {m : Machine} {k k' : Kernel Fut} {f : Fut} {id : TaskID}
  {r : Reader} {empty : Prop} {c : Nat}

theorem Parked.grows (h : Parked k f r empty) (hk : Grows n k k' c) : Parked k' f r empty where
  waker := hk.wakers ▸ h.waker
  polled := hk.point ▸ h.polled
  left := fun hlook => (h.left hlook).imp_right fun hmem => hk.queue.subset hmem
  awake := h.awake.imp_left hk.scheduled

/-- A reader that is not polled is to look at its queue first. -/
theorem Parked.look_first (h : Parked k f r empty) (hpoint : ∀ id, k.point ≠ .poll ⟨id, f⟩) :
    r.look = .first := by
  by_contra hlook
  obtain ⟨id, hid⟩ := h.polled hlook
  exact hpoint id hid

theorem Parked.look_first_of_poll (h : Parked k f r empty) {entry : Executor.Task Fut}
    (hpoint : k.point = .poll entry) (hother : f ≠ entry.future) : r.look = .first := by
  refine h.look_first fun id hid => ?_
  rw [hpoint] at hid
  cases hid
  exact hother rfl

/-! The poll of a reader goes on. -/

theorem Parked.leaves (h : Parked k f r empty) (hpoint : k.point = .poll ⟨id, f⟩)
    (empty' : Prop) : Parked k f { r with look := .leave } empty' where
  waker := h.waker
  polled := fun _ => ⟨id, hpoint⟩
  left := fun hlook => by cases hlook
  awake := .inl (.inr ⟨_, hpoint, rfl⟩)

theorem parked_left (hpoint : k.point = .poll ⟨id, f⟩) (hwaker : f.id ∈ k.wakers) :
    Parked k f ⟨.again, true⟩ empty where
  waker := fun _ => hwaker
  polled := fun _ => ⟨id, hpoint⟩
  left := fun _ => .inl rfl
  awake := .inl (.inr ⟨_, hpoint, rfl⟩)

theorem Parked.goesOn (h : Parked k f r empty) (hpoint : k.point = .poll ⟨id, f⟩)
    (empty' : Prop) : Parked k f { r with look := .first } empty' where
  waker := h.waker
  polled := fun hlook => absurd rfl hlook
  left := fun hlook => by cases hlook
  awake := .inl (.inr ⟨_, hpoint, rfl⟩)

/-- It returns with its waker left behind and nothing on its queue, or it has been woken. -/
theorem Parked.returns (h : Parked k f r empty) (hlook : r.look = .again) (hempty : empty)
    (hwakers : k'.wakers = k.wakers) (hqueue : k'.queue = k.queue) :
    Parked k' f { r with look := .first } empty where
  waker := hwakers ▸ h.waker
  polled := fun hlook => absurd rfl hlook
  left := fun hlook => by cases hlook
  awake := (h.left hlook).elim (fun hwaker => .inr ⟨hwaker, hempty⟩)
    fun hmem => .inl (.of_mem (hqueue ▸ hmem))

/-- The poll of another future returns. -/
theorem Parked.otherReturns (h : Parked k f r empty) {entry : Executor.Task Fut}
    (hpoint : k.point = .poll entry) (hother : f ≠ entry.future)
    (hwakers : k'.wakers = k.wakers) (hscheduled : Scheduled k f → Scheduled k' f) :
    Parked k' f r empty := by
  have hlook := h.look_first_of_poll hpoint hother
  refine ⟨hwakers ▸ h.waker, fun hc => absurd hlook hc, fun hc => ?_,
    h.awake.imp_left hscheduled⟩
  rw [hlook] at hc
  cases hc

/-- Whoever puts something on its queue wakes it if it waits. -/
theorem Parked.enqueue (hcrates : crates.Reliable) (hruns : Runs n k) (h : Parked k f r empty) :
    ∃ k', Lts.run Executor.step k ((r.wakes crates f).map fun f => .wake f.id) = some k' ∧
      Grows n k k' (weight f.id) ∧ ∀ empty', Parked k' f (r.notified crates) empty' := by
  cases hwaker : r.waker with
  | false =>
      have hnone : r.wakes crates f = [] := if_neg fun hc => by
        rw [hwaker] at hc
        cases hc.1
      have hsame : r.notified crates = r := by
        rw [Reader.notified, hwaker, Bool.false_and, ← hwaker]
      have hawake : Scheduled k f := h.awake.resolve_right fun hc => by
        rw [hwaker] at hc
        cases hc.1
      rw [hnone, hsame]
      exact ⟨k, rfl, { Grows.refl hruns with work := Nat.le_add_right _ _ },
        fun empty' => ⟨h.waker, h.polled, h.left, .inl hawake⟩⟩
  | true =>
      have hwakes : r.wakes crates f = [f] := if_pos ⟨hwaker, hcrates.enqueueWakes⟩
      obtain ⟨k', hrun, hgrows, hmem⟩ := hruns.wakes [f] fun g hg => by
        rw [List.mem_singleton.mp hg]
        exact h.waker hwaker
      have hmem := hmem f (List.mem_singleton_self f)
      have hused : (r.notified crates).waker = false := by
        simp only [Reader.notified, hcrates.enqueueWakes, Bool.not_true, Bool.and_false]
      rw [hwakes]
      refine ⟨k', hrun, hgrows, fun empty' => ⟨fun hc => ?_, ?_, fun _ => .inr hmem,
        .inl (.of_mem hmem)⟩⟩
      · rw [hused] at hc
        cases hc
      · rw [hgrows.point]
        exact h.polled

theorem wake_eq {futs : List Fut}
    (hrun : Lts.run Executor.step m.kernel (futs.map fun f => .wake f.id) = some k') :
    m.wake futs = some { m with kernel := k' } := by
  rw [Machine.wake, hrun]
  rfl

/-- Logging keeps the logger's queue in order. -/
theorem log_ok (hcrates : crates.Reliable) (hruns : Runs n m.kernel)
    (hlogger : Parked m.kernel .logger m.logger (m.logQueue = 0)) (logs : Nat) :
    ∃ k' logger messages, m.log crates logs =
        some { m with kernel := k', logger, logQueue := messages } ∧
      logger.look = m.logger.look ∧ Grows n m.kernel k' 6 ∧
      Parked k' .logger logger (messages = 0) := by
  unfold Machine.log
  by_cases hlogs : logs = 0
  · rw [if_pos hlogs]
    exact ⟨m.kernel, m.logger, m.logQueue, rfl, rfl,
      { Grows.refl hruns with work := Nat.le_add_right _ _ }, hlogger⟩
  · rw [if_neg hlogs]
    obtain ⟨k', hrun, hgrows, hparked⟩ := hlogger.enqueue hcrates hruns
    exact ⟨k', m.logger.notified crates, m.logQueue + logs, wake_eq hrun, rfl, hgrows, hparked _⟩

/-- Messages for the handler keep its queue in order. -/
theorem proceed_ok (hcrates : crates.Reliable) (hruns : Runs n m.kernel)
    (hhandler : Parked m.kernel .handler m.handler (m.pinging.sys.mailbox = []))
    (p' : Pinging) :
    ∃ k' handler, m.proceed crates p' =
        some { m with kernel := k', pinging := p', handler } ∧
      handler.look = m.handler.look ∧
      Grows n m.kernel k'
        (if m.pinging.sys.mailbox.length < p'.sys.mailbox.length then 12 else 0) ∧
      Parked k' .handler handler (p'.sys.mailbox = []) := by
  unfold Machine.proceed
  by_cases hmore : m.pinging.sys.mailbox.length < p'.sys.mailbox.length
  · rw [if_pos hmore, if_pos hmore]
    obtain ⟨k', hrun, hgrows, hparked⟩ := hhandler.enqueue hcrates hruns
    exact ⟨k', m.handler.notified crates, wake_eq hrun, rfl, hgrows, hparked _⟩
  · rw [if_neg hmore, if_neg hmore]
    refine ⟨m.kernel, m.handler, rfl, rfl, .refl hruns, ⟨hhandler.waker, hhandler.polled,
      hhandler.left, hhandler.awake.imp_right (And.imp_right fun hempty => ?_)⟩⟩
    rw [hempty, List.length_nil] at hmore
    exact List.length_eq_zero_iff.mp (Nat.eq_zero_of_not_pos hmore)

end Parts

end Rucoonos.Main
