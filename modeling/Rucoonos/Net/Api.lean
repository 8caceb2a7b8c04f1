/-
The callers' side of the networking extension: `extensions/networking/api.rs`.

`get_mac` runs to its `await` in one go: it makes a queue, posts a request with the
sending half, and from then on every poll looks at the receiving half.  `raw_ping` makes
a future that posts its request when it is first polled, and is ready once its flag is
set.
-/
import Rucoonos.Net.Handler

namespace Rucoonos.Net

open Slice

/-! ### `get_mac` -/

/-- The queue that `get_mac` makes: `async_queue(2)`. -/
def RetQueue.new : RetQueue := ⟨2, [], true, true⟩

/-- A poll of `recv.dequeue()`: what was sent, in order, and an error once the sender is
gone and nothing is left. -/
def RetQueue.pollDequeue (q : RetQueue) : Option (Option Mac × RetQueue) :=
  match q.items with
  | mac :: rest => some (some mac, { q with items := rest })
  | [] => if q.senderAlive = true then none else some (none, q)

def RetQueue.dropReceiver (q : RetQueue) : RetQueue := { q with receiverAlive := false }

/-- What `get_mac` posts. -/
def getMacRequest (ip : Ip) (retQueue : Nat) : ActionRequest := .sendArpRequest ip retQueue

/-- A poll of `get_mac` at its `await`: the value it returns, if it does, and the queue, whose
receiver is dropped on return. -/
def getMacPoll (q : RetQueue) : Option (Option Mac × RetQueue) :=
  q.pollDequeue.map fun (result, q) => (result, q.dropReceiver)

/-! ### `raw_ping` -/

/-- `PingFuture`. -/
structure PingFuture where
  ip : Option Ip
  mac : Option Mac
  send : Bool
  returned : Nat
  deriving DecidableEq, Repr

/-- `raw_ping`. -/
def rawPing (ip : Ip) (mac : Mac) (returned : Nat) : PingFuture := ⟨some ip, some mac, false, returned⟩

/-- `poll`, with the task's waker and the value of the flag: the future, what it posts and
whether it is ready. -/
def PingFuture.poll (f : PingFuture) (waker : Nat) (flag : Bool) :
    Exec (PingFuture × Option ActionRequest × Bool) := do
  if flag = true then return (f, none, true)
  if f.send = false then
    let mac ← unwrap f.mac
    let ip ← unwrap f.ip
    let f := { f with mac := none, ip := none, send := true }
    return (f, some (.pingRequest waker ip mac f.returned), false)
  return (f, none, false)

end Rucoonos.Net
