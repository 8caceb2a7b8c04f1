/-
The log: `src/extensions/logging.rs` and `src/extensions/logging/level.rs`.

The subscriber turns every call of the tracing framework into a message for the queue, and
the logger takes the messages off it one after the other.  The queue is unbounded and
keeps the order, so what the logger has seen is a prefix of what the subscriber has sent.
`span_names` is a map and `current_name` a list with the innermost name at its end.
-/
import Rucoonos.Lib.Slice
import Mathlib.Logic.Function.Basic

namespace Rucoonos.Logging

open Slice

inductive LogLevel
  | debug
  | trace
  | info
  | warn
  | error
  deriving DecidableEq, Repr

/-- `impl Display for LogLevel`. -/
def LogLevel.fmt : LogLevel → String
  | .debug => "D"
  | .trace => "T"
  | .info => "I"
  | .warn => "W"
  | .error => "E"

/-- `partial_cmp`, arm by arm. -/
def LogLevel.partialCmp (self other : LogLevel) : Option Ordering :=
  if self = other then some .eq else
  match self, other with
  | .trace, _ => some .lt
  | .debug, .trace => some .gt
  | .debug, _ => some .lt
  | .info, .trace => some .gt
  | .info, .debug => some .gt
  | .info, _ => some .lt
  | .warn, .trace => some .gt
  | .warn, .debug => some .gt
  | .warn, .info => some .gt
  | .warn, _ => some .lt
  | .error, .trace => some .gt
  | .error, .debug => some .gt
  | .error, .info => some .gt
  | .error, .warn => some .gt
  | .error, _ => some .lt

/-- `enabled` of a subscriber with the level `level`: `m_level >= self.level`. -/
def LogLevel.enabled (level mLevel : LogLevel) : Bool :=
  mLevel.partialCmp level = some .gt ∨ mLevel.partialCmp level = some .eq

inductive SubscriberMessage
  | newSpan (id : Nat) (name : String)
  | enter (id : Nat)
  | exit (id : Nat)
  | event (content : String) (level : LogLevel)
  deriving DecidableEq, Repr

/-! ### The subscriber -/

/-- `SerialSubscriber`, with the messages it has sent. -/
structure SerialSubscriber where
  writer : List SubscriberMessage
  idCounter : Nat
  deriving DecidableEq, Repr

/-- What `serial` makes. -/
def SerialSubscriber.start : SerialSubscriber := ⟨[], 1⟩

def SerialSubscriber.enqueue (s : SerialSubscriber) (m : SubscriberMessage) : SerialSubscriber :=
  { s with writer := s.writer ++ [m] }

/-- `tracing::span::Id::from_u64`. -/
def idFromU64 (n : Nat) : Exec Nat := if n = 0 then .error .assertion else return n

/-- `new_span`.  `fetch_add` wraps. -/
def SerialSubscriber.newSpan (s : SerialSubscriber) (name : String) :
    Exec (Nat × SerialSubscriber) := do
  let id ← idFromU64 s.idCounter
  let s := { s with idCounter := (s.idCounter + 1) % 2 ^ 64 }
  return (id, s.enqueue (.newSpan id name))

/-- A call of the tracing framework. -/
inductive Call
  | newSpan (name : String)
  | enter (id : Nat)
  | exit (id : Nat)
  | event (content : String) (level : LogLevel)
  deriving DecidableEq, Repr

def SerialSubscriber.call (s : SerialSubscriber) : Call → Exec SerialSubscriber
  | .newSpan name => do
      let (_, s) ← s.newSpan name
      return s
  | .enter id => return s.enqueue (.enter id)
  | .exit id => return s.enqueue (.exit id)
  | .event content level => return s.enqueue (.event content level)

/-! ### The logger -/

/-- What the `println!` of the logger writes. -/
def logLine (level : LogLevel) (name content : String) : String :=
  "[" ++ level.fmt ++ "][" ++ name ++ "] " ++ content

/-- The variables of `logger`, with the lines it has printed. -/
structure Logger where
  spanNames : Nat → Option String
  currentName : List String
  printed : List String

def Logger.start : Logger := ⟨fun _ => none, [], []⟩

/-- One pass of the loop of `logger`. -/
def Logger.handle (l : Logger) : SubscriberMessage → Logger
  | .newSpan id name => { l with spanNames := Function.update l.spanNames id (some name) }
  | .enter id =>
      match l.spanNames id with
      | some name => { l with currentName := l.currentName ++ [name] }
      | none => l
  | .exit id =>
      match l.spanNames id with
      | none => l
      | some exitName =>
          match l.currentName.getLast? with
          | some last =>
              if last = exitName then { l with currentName := l.currentName.dropLast } else l
          | none => l
  | .event content level =>
      let name := l.currentName.getLast?.getD ""
      { l with printed := l.printed ++ [logLine level name content] }

/-- The logger after these messages. -/
def logger (messages : List SubscriberMessage) : Logger := messages.foldl Logger.handle .start

end Rucoonos.Logging
