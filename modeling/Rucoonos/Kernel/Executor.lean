/-
The executor: `kernel/src/lib.rs`, `handle.rs` and `task.rs`.

The kernel is a state and the atomic steps the code takes on it.  A call of
`Handle::add_task` or `add_raw_task` is three of them, and any number of calls may
be under way at once: the id is drawn by `fetch_add`, the task goes on the add
queue, the id goes on the run queue.  A wake is one enqueue on the run queue.  The
loop of `Kernel::run` is cut at every access to a shared queue: the dequeue of a run
id, one `try_dequeue` of the drain, the lookup that starts a poll, and the return of
that poll.

The two jiffy queues are unbounded FIFOs, so an enqueue always succeeds, and they
are never closed: the kernel holds a sender of the run queue itself.  A dequeue from
an empty run queue waits, which here means that it is not enabled.

What a future does is not modelled.  It is an opaque value, a poll of it may take as
long as it likes, and whatever it does meanwhile — adding tasks, waking tasks — is a
step of its own.
-/
import Rucoonos.Lib.Run

namespace Rucoonos.Executor

/-- `TaskID`.  A `usize` is 64 bits wide on the target. -/
structure TaskID where
  id : UInt64
  deriving DecidableEq, Repr

/-- `Task`: the id it was given and the future to run. -/
structure Task (F : Type) where
  id : TaskID
  future : F
  deriving DecidableEq, Repr

/-- `core::task::Poll<()>`. -/
inductive Poll
  | ready
  | pending
  deriving DecidableEq, Repr

/-- How far a call of `add_task` has come. -/
inductive AddStage
  /-- The id is drawn. -/
  | drawn
  /-- The task is on the add queue. -/
  | added
  /-- The id is on the run queue, and the call returns. -/
  | finished
  deriving DecidableEq, Repr

/-- A call of `add_task`: the task it makes and how far it has come. -/
structure AddCall (F : Type) where
  task : Task F
  stage : AddStage
  deriving DecidableEq, Repr

/-- Where `Kernel::run` stands in its loop. -/
inductive Point (F : Type)
  /-- Before `self.queue.recv.dequeue()`. -/
  | dequeue
  /-- In the `while let` that drains the add queue, holding the id to run. -/
  | drain (runId : TaskID)
  /-- Before the search of `self.tasks`. -/
  | lookup (runId : TaskID)
  /-- Inside `entry.run`. -/
  | poll (entry : Task F)
  deriving DecidableEq, Repr

/-- What is remembered of a run; no step of the code reads it. -/
inductive Event (F : Type)
  | enqueued (id : TaskID)
  | polled (runId : TaskID) (entry : Task F)
  | returned (entry : Task F) (result : Poll)
  /-- The branch that logs "Task no longer available". -/
  | unavailable (runId : TaskID)
  deriving DecidableEq, Repr

/-- The kernel with its handles and wakers. -/
structure Kernel (F : Type) where
  /-- `Handle::id_count`. -/
  idCount : UInt64
  /-- Every call of `add_task` made so far, in the order the ids were drawn. -/
  calls : List (AddCall F)
  /-- `task_add_queue`. -/
  addQueue : List (Task F)
  /-- The run queue. -/
  queue : List TaskID
  tasks : List (Task F)
  point : Point F
  /-- The ids for which `create_waker` has been called. -/
  wakers : List TaskID
  history : List (Event F)
  deriving DecidableEq, Repr

variable {F : Type}

/-- `Kernel::setup`. -/
def Kernel.setup : Kernel F where
  idCount := 0
  calls := []
  addQueue := []
  queue := []
  tasks := []
  point := .dequeue
  wakers := []
  history := []

/-- `RunQueueSender`: put an id on the run queue. -/
def Kernel.enqueue (k : Kernel F) (id : TaskID) : Kernel F :=
  { k with queue := k.queue ++ [id], history := k.history ++ [.enqueued id] }

/-! ### The three steps of `add_task` -/

/-- `id_count.fetch_add(1)`, which wraps, and the task made with the id drawn. -/
def Kernel.fetchAdd (k : Kernel F) (fut : F) : Kernel F :=
  { k with
    idCount := k.idCount + 1
    calls := k.calls ++ [⟨⟨⟨k.idCount⟩, fut⟩, .drawn⟩] }

/-- `self.add_queue.enqueue(task)`. -/
def Kernel.enqueueTask (k : Kernel F) (i : Nat) : Option (Kernel F) :=
  match k.calls[i]? with
  | some ⟨task, .drawn⟩ =>
      some { k with calls := k.calls.set i ⟨task, .added⟩, addQueue := k.addQueue ++ [task] }
  | _ => none

/-- `self.run_queue.sender.enqueue(TaskID { id: task_id })`. -/
def Kernel.enqueueId (k : Kernel F) (i : Nat) : Option (Kernel F) :=
  match k.calls[i]? with
  | some ⟨task, .added⟩ =>
      some ({ k with calls := k.calls.set i ⟨task, .finished⟩ }.enqueue task.id)
  | _ => none

/-! ### Wakers -/

/-- `wake` and `wake_by_ref`: a waker exists once its task has been polled. -/
def Kernel.wake (k : Kernel F) (id : TaskID) : Option (Kernel F) :=
  if id ∈ k.wakers then some (k.enqueue id) else none

/-! ### The loop of `Kernel::run` -/

/-- The next access to shared state in the loop, up to the start of a poll. -/
def Kernel.iterate (k : Kernel F) : Option (Kernel F) :=
  match k.point with
  | .dequeue =>
      match k.queue with
      | runId :: rest => some { k with queue := rest, point := .drain runId }
      | [] => none
  | .drain runId =>
      match k.addQueue with
      | task :: rest => some { k with addQueue := rest, tasks := k.tasks ++ [task] }
      | [] => some { k with point := .lookup runId }
  | .lookup runId =>
      match k.tasks.find? (fun task => task.id == runId) with
      | some entry =>
          -- `Task::run` makes a waker for the entry and polls its future with it.
          some { k with
            point := .poll entry
            wakers := k.wakers ++ [entry.id]
            history := k.history ++ [.polled runId entry] }
      | none =>
          some { k with point := .dequeue, history := k.history ++ [.unavailable runId] }
  | .poll _ => none

/-- The poll returns.  Both arms of the final `match` are empty: nothing else happens. -/
def Kernel.pollReturn (k : Kernel F) (result : Poll) : Option (Kernel F) :=
  match k.point with
  | .poll entry =>
      some { k with point := .dequeue, history := k.history ++ [.returned entry result] }
  | _ => none

/-- The atomic steps of the system. -/
inductive Action (F : Type)
  | fetchAdd (fut : F)
  | enqueueTask (call : Nat)
  | enqueueId (call : Nat)
  | wake (id : TaskID)
  | iterate
  | pollReturn (result : Poll)
  deriving DecidableEq, Repr

def step (k : Kernel F) : Action F → Option (Kernel F)
  | .fetchAdd fut => some (k.fetchAdd fut)
  | .enqueueTask i => k.enqueueTask i
  | .enqueueId i => k.enqueueId i
  | .wake id => k.wake id
  | .iterate => k.iterate
  | .pollReturn result => k.pollReturn result

/-! ### Reading the history -/

/-- The ids put on the run queue, in order. -/
def enqueuedIds (history : List (Event F)) : List TaskID :=
  history.filterMap fun
    | .enqueued id => some id
    | _ => none

/-- The ids the kernel polled for, in order. -/
def polledIds (history : List (Event F)) : List TaskID :=
  history.filterMap fun
    | .polled runId _ => some runId
    | _ => none

/-- The tasks whose poll has returned `Poll::Ready`, by id. -/
def completedIds (history : List (Event F)) : List TaskID :=
  history.filterMap fun
    | .returned entry .ready => some entry.id
    | _ => none

/-- The id the loop has taken off the run queue and not polled yet. -/
def Kernel.inHand (k : Kernel F) : List TaskID :=
  match k.point with
  | .drain runId | .lookup runId => [runId]
  | .dequeue | .poll _ => []

end Rucoonos.Executor
