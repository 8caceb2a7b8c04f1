/-
Every line of the log names the innermost open span.

The logger matches an exit by the name of the span and not by its id, and it ignores one
that does not match.  What it keeps is nevertheless the stack of open spans: as long as
the messages are well nested, an exit is always one of the innermost span, and the name
at the end of `current_name` is the one that span was announced with (`Follows.handle`).

That a span is announced once, and under one id, is the subscriber's part: the ids come
from a counter (`announced_once`).
-/
import Rucoonos.Lib.Run
import Rucoonos.Logging.Logger
import Mathlib.Data.List.Nodup

namespace Rucoonos.Logging

open Slice

/-! ### Sequences of messages -/

/-- What a message does to the open spans, outermost first; `none` if it exits one that is
not the innermost. -/
def openStep (opened : List Nat) : SubscriberMessage → Option (List Nat)
  | .enter id => some (opened ++ [id])
  | .exit id => if opened.getLast? = some id then some opened.dropLast else none
  | .newSpan _ _ => some opened
  | .event _ _ => some opened

/-- The spans that were entered and not yet exited. -/
def openSpans (messages : List SubscriberMessage) : Option (List Nat) :=
  Lts.run openStep [] messages

/-- Every exit is one of the innermost open span. -/
def WellNested (messages : List SubscriberMessage) : Prop := openSpans messages ≠ none

/-- The id a message announces. -/
def SubscriberMessage.announces : SubscriberMessage → Option Nat
  | .newSpan id _ => some id
  | _ => none

/-- The id a message uses. -/
def SubscriberMessage.uses : SubscriberMessage → Option Nat
  | .enter id => some id
  | .exit id => some id
  | _ => none

/-- The ids that were announced, in order. -/
def announced (messages : List SubscriberMessage) : List Nat :=
  messages.filterMap SubscriberMessage.announces

/-- Every id is announced once, and before it is used. -/
structure Announced (messages : List SubscriberMessage) : Prop where
  once : (announced messages).Nodup
  before : ∀ i, i < messages.length → ∀ id ∈ messages[i]?.bind SubscriberMessage.uses,
    id ∈ announced (messages.take i)

/-- The name that the message announces for the span. -/
def SubscriberMessage.nameFor (id : Nat) : SubscriberMessage → Option String
  | .newSpan id' name => if id' = id then some name else none
  | _ => none

/-- The name that a span was announced with. -/
def spanName (messages : List SubscriberMessage) (id : Nat) : Option String :=
  messages.findSome? (SubscriberMessage.nameFor id)

section Names

variable {pre : List SubscriberMessage} {m : SubscriberMessage} {id : Nat}

theorem spanName_snoc : spanName (pre ++ [m]) id = (spanName pre id).or (m.nameFor id) := by
  rw [spanName, List.findSome?_append]
  cases hname : m.nameFor id with
  | none => simp [hname, spanName]
  | some name => simp [hname, spanName]

theorem spanName_eq_none : spanName pre id = none ↔ id ∉ announced pre := by
  rw [spanName, List.findSome?_eq_none_iff, announced, List.mem_filterMap]
  constructor
  · rintro h ⟨m, hm, hid⟩
    have hname := h m hm
    cases m with
    | newSpan id' name =>
        cases hid
        simp [SubscriberMessage.nameFor] at hname
    | enter id' => cases hid
    | exit id' => cases hid
    | event content level => cases hid
  · intro h m hm
    cases m with
    | newSpan id' name =>
        have hne : id' ≠ id := fun heq => h ⟨_, hm, congrArg some heq⟩
        exact if_neg hne
    | enter id' => rfl
    | exit id' => rfl
    | event content level => rfl

theorem exists_spanName (h : id ∈ announced pre) : ∃ name, spanName pre id = some name := by
  cases hname : spanName pre id with
  | none => exact absurd h (spanName_eq_none.mp hname)
  | some name => exact ⟨name, rfl⟩

/-- Only an announcement gives a name. -/
theorem spanName_snoc_of_announces (pre : List SubscriberMessage) (h : m.announces = none) :
    spanName (pre ++ [m]) = spanName pre := by
  funext id
  rw [spanName_snoc]
  cases m with
  | newSpan id' name => cases h
  | enter id' => exact Option.or_none
  | exit id' => exact Option.or_none
  | event content level => exact Option.or_none

/-- An announcement gives a name to its id. -/
theorem spanName_snoc_newSpan {name : String} (hnew : id ∉ announced pre) :
    spanName (pre ++ [.newSpan id name]) = Function.update (spanName pre) id (some name) := by
  funext id'
  rw [spanName_snoc]
  by_cases hid : id' = id
  · subst hid
    rw [Function.update_self, spanName_eq_none.mpr hnew, Option.none_or]
    exact if_pos rfl
  · rw [Function.update_of_ne hid]
    have hother : (SubscriberMessage.newSpan id name).nameFor id' = none :=
      if_neg fun heq => hid heq.symm
    rw [hother, Option.or_none]

end Names

/-! ### The logger keeps the stack -/

/-- The logger knows the names that were announced, and its stack is that of the open
spans. -/
structure Follows (pre : List SubscriberMessage) (opened : List Nat) (l : Logger) : Prop where
  names : l.spanNames = spanName pre
  stack : l.currentName.map some = opened.map (spanName pre)

section Step

variable {pre : List SubscriberMessage} {opened opened' : List Nat} {l : Logger}

theorem Follows.last (h : Follows pre opened l) :
    l.currentName.getLast? = opened.getLast?.bind (spanName pre) := by
  have hlast := congrArg List.getLast? h.stack
  rw [List.getLast?_map, List.getLast?_map] at hlast
  cases hopened : opened.getLast? with
  | none =>
      rw [hopened] at hlast
      simpa using hlast
  | some id =>
      rw [hopened] at hlast
      cases hname : l.currentName.getLast? with
      | none =>
          rw [hname] at hlast
          cases hlast
      | some name =>
          rw [hname] at hlast
          exact Option.some.inj hlast

/-- An open span was announced. -/
theorem Follows.mem_announced (h : Follows pre opened l) {id : Nat} (hid : id ∈ opened) :
    id ∈ announced pre := by
  have hmem : spanName pre id ∈ l.currentName.map some := by
    rw [h.stack]
    exact List.mem_map_of_mem hid
  obtain ⟨name, -, hname⟩ := List.mem_map.mp hmem
  by_contra hnew
  rw [spanName_eq_none.mpr hnew] at hname
  cases hname

/-- One message, whichever it is. -/
theorem Follows.handle {m : SubscriberMessage} (h : Follows pre opened l)
    (hstep : openStep opened m = some opened')
    (honce : ∀ id, m.announces = some id → id ∉ announced pre)
    (hbefore : ∀ id, m.uses = some id → id ∈ announced pre) :
    Follows (pre ++ [m]) opened' (l.handle m) := by
  cases m with
  | newSpan id name =>
      cases hstep
      have hnew := honce id rfl
      refine ⟨?_, ?_⟩
      · rw [spanName_snoc_newSpan hnew, ← h.names]
        rfl
      · show l.currentName.map some = _
        rw [h.stack]
        refine List.map_congr_left fun id' hid' => ?_
        -- An open span has its name already, so it is not the one announced here.
        have hne : id' ≠ id := fun heq => hnew (heq ▸ h.mem_announced hid')
        rw [spanName_snoc_newSpan hnew, Function.update_of_ne hne]
  | enter id =>
      cases hstep
      obtain ⟨name, hname⟩ := exists_spanName (hbefore id rfl)
      have hhandle : l.handle (.enter id) = { l with currentName := l.currentName ++ [name] } := by
        rw [Logger.handle, h.names, hname]
      rw [hhandle]
      have hkept := spanName_snoc_of_announces pre (m := .enter id) rfl
      refine ⟨h.names.trans hkept.symm, ?_⟩
      rw [hkept, List.map_append, List.map_append, h.stack, List.map_singleton, List.map_singleton,
        hname]
  | exit id =>
      have hlast : opened.getLast? = some id := by
        by_contra hne
        rw [openStep, if_neg hne] at hstep
        cases hstep
      rw [openStep, if_pos hlast] at hstep
      cases hstep
      obtain ⟨name, hname⟩ := exists_spanName (hbefore id rfl)
      have hinnermost : l.currentName.getLast? = some name := by
        rw [h.last, hlast, Option.bind_some, hname]
      have hhandle : l.handle (.exit id) = { l with currentName := l.currentName.dropLast } := by
        rw [Logger.handle, h.names, hname]
        simp only [hinnermost, if_true]
      rw [hhandle]
      have hkept := spanName_snoc_of_announces pre (m := .exit id) rfl
      refine ⟨h.names.trans hkept.symm, ?_⟩
      rw [hkept, List.map_dropLast, List.map_dropLast, h.stack]
  | event content level =>
      cases hstep
      have hkept := spanName_snoc_of_announces pre (m := .event content level) rfl
      exact ⟨h.names.trans hkept.symm, by rw [hkept]; exact h.stack⟩

end Step

theorem logger_snoc (pre : List SubscriberMessage) (m : SubscriberMessage) :
    logger (pre ++ [m]) = (logger pre).handle m := by
  rw [logger, List.foldl_append]
  rfl

/-- After any part of the messages. -/
theorem follows_of_prefix {messages : List SubscriberMessage} (hannounced : Announced messages)
    (hnested : WellNested messages) : ∀ {pre : List SubscriberMessage}, pre <+: messages →
    ∃ opened, openSpans pre = some opened ∧ Follows pre opened (logger pre) := by
  intro pre
  induction pre using List.reverseRecOn with
  | nil =>
      intro _
      exact ⟨[], rfl, rfl, rfl⟩
  | append_singleton pre m ih =>
      intro hpre
      obtain ⟨opened, hopened, hfollows⟩ := ih ((List.prefix_append pre [m]).trans hpre)
      -- The exits behind `m` are not at fault if `m` itself is out of order.
      obtain ⟨opened', hstep⟩ : ∃ opened', openStep opened m = some opened' := by
        cases hstep : openStep opened m with
        | some opened' => exact ⟨opened', rfl⟩
        | none =>
            obtain ⟨rest, rfl⟩ := hpre
            refine absurd ?_ hnested
            rw [openSpans, Lts.run_append, Lts.run_append]
            rw [openSpans] at hopened
            rw [hopened, Option.bind_some, Lts.run_cons, hstep]
            rfl
      refine ⟨opened', Lts.run_snoc.mpr ⟨opened, hopened, hstep⟩, ?_⟩
      rw [logger_snoc]
      refine hfollows.handle hstep (fun id hid hmem => ?_) (fun id hid => ?_)
      · have honce := hannounced.once.sublist (hpre.sublist.filterMap SubscriberMessage.announces)
        rw [List.filterMap_append, List.nodup_append] at honce
        exact honce.2.2 id hmem id (by simp [hid]) rfl
      · obtain ⟨rest, rfl⟩ := hpre
        have hbefore := hannounced.before pre.length (by simp)
        simp only [List.append_assoc, List.take_left, List.getElem?_append_right (Nat.le_refl _),
          Nat.sub_self, List.singleton_append, List.getElem?_cons_zero, Option.bind_some] at hbefore
        exact hbefore id hid

/--
**Lines are attributed to the innermost open span.**  For every sequence of messages in
which each id is announced once and before it is used, and in which the exits are those
of the innermost spans: after any part of it `current_name` is the names of the open
spans, outermost first, and an event prints the name of the innermost of them, or the
empty name if there is none.
-/
theorem lines_name_innermost (messages : List SubscriberMessage) (hannounced : Announced messages)
    (hnested : WellNested messages) (pre : List SubscriberMessage) (hpre : pre <+: messages) :
    ∃ opened, openSpans pre = some opened ∧
      (logger pre).currentName.map some = opened.map (spanName pre) ∧
      ∀ content level, (logger (pre ++ [.event content level])).printed =
        (logger pre).printed ++
          [logLine level ((opened.getLast?.bind (spanName pre)).getD "") content] := by
  obtain ⟨opened, hopened, hfollows⟩ := follows_of_prefix hannounced hnested hpre
  refine ⟨opened, hopened, hfollows.stack, fun content level => ?_⟩
  rw [logger_snoc, ← hfollows.last]
  rfl

/-- A task is interrupted, and the handler has a span of the same name and one of its own. -/
def interruptedTask : List SubscriberMessage :=
  [.newSpan 1 "poll", .enter 1, .event "start" .info, .newSpan 2 "poll", .enter 2,
    .newSpan 3 "irq", .enter 3, .event "packet" .debug, .exit 3, .exit 2, .enter 1, .exit 1,
    .event "done" .info, .exit 1]

theorem lines_name_innermost_interrupted :
    Announced interruptedTask ∧ WellNested interruptedTask ∧
      ∃ opened, openSpans interruptedTask = some opened ∧
        (logger interruptedTask).currentName.map some = opened.map (spanName interruptedTask) ∧
        ∀ content level, (logger (interruptedTask ++ [.event content level])).printed =
          (logger interruptedTask).printed ++
            [logLine level ((opened.getLast?.bind (spanName interruptedTask)).getD "") content] := by
  have hannounced : Announced interruptedTask := ⟨by decide, by decide⟩
  have hnested : WellNested interruptedTask := by
    unfold WellNested
    decide
  exact ⟨hannounced, hnested,
    lines_name_innermost _ hannounced hnested _ (List.prefix_refl _)⟩

example : (logger interruptedTask).printed
    = ["[I][poll] start", "[D][irq] packet", "[I][poll] done"] := by
  decide

/-! ### The subscriber announces every id once -/

/-- The ids so far are those the counter has passed.  Once it has wrapped around, the next
call for a new span panics. -/
structure Fresh (s : SerialSubscriber) : Prop where
  once : (announced s.writer).Nodup
  passed : s.idCounter = 0 ∨ ∀ id ∈ announced s.writer, id < s.idCounter
  bounded : s.idCounter < 2 ^ 64

theorem announced_snoc (messages : List SubscriberMessage) (m : SubscriberMessage) :
    announced (messages ++ [m]) = announced messages ++ m.announces.toList := by
  rw [announced, List.filterMap_append]
  cases hm : m.announces with
  | none => simp [announced, hm]
  | some id => simp [announced, hm]

/-- A message that announces nothing changes nothing. -/
theorem Fresh.enqueue {s : SerialSubscriber} {m : SubscriberMessage} (h : Fresh s)
    (hm : m.announces = none) : Fresh (s.enqueue m) := by
  have hkept : announced (s.enqueue m).writer = announced s.writer := by
    rw [SerialSubscriber.enqueue, announced_snoc, hm]
    exact List.append_nil _
  refine ⟨?_, ?_, h.bounded⟩
  · rw [hkept]
    exact h.once
  · rw [hkept]
    exact h.passed

/-- The counter has passed the id it gives away. -/
theorem Fresh.newSpan {s : SerialSubscriber} (h : Fresh s) (hne : s.idCounter ≠ 0) (name : String) :
    Fresh ⟨s.writer ++ [.newSpan s.idCounter name], (s.idCounter + 1) % 2 ^ 64⟩ := by
  have hpassed := h.passed.resolve_left hne
  have hbounded := h.bounded
  have hids : announced (s.writer ++ [.newSpan s.idCounter name])
      = announced s.writer ++ [s.idCounter] := announced_snoc _ _
  refine ⟨?_, ?_, Nat.mod_lt _ (by decide)⟩
  · rw [hids, List.nodup_append]
    refine ⟨h.once, List.nodup_singleton _, fun a ha b hb => ?_⟩
    rw [List.mem_singleton.mp hb]
    exact Nat.ne_of_lt (hpassed a ha)
  · rw [hids]
    dsimp only
    by_cases hwraps : s.idCounter + 1 = 2 ^ 64
    · left
      rw [hwraps, Nat.mod_self]
    · right
      intro id hid
      rw [List.mem_append, List.mem_singleton] at hid
      rw [Nat.mod_eq_of_lt (by omega)]
      rcases hid with hid | rfl
      · have hlt := hpassed id hid
        omega
      · omega

theorem Fresh.call {s s' : SerialSubscriber} {call : Call} (h : Fresh s)
    (hcall : (s.call call).toOption = some s') : Fresh s' := by
  have hcall := eq_ok_of_toOption hcall
  cases call with
  | newSpan name =>
      obtain ⟨⟨id, s₁⟩, hnew, hcall⟩ := bind_eq_ok.mp hcall
      cases hcall
      obtain ⟨id', hid, hnew⟩ := bind_eq_ok.mp hnew
      unfold idFromU64 at hid
      split at hid
      · cases hid
      · rename_i hne
        cases hid
        cases hnew
        exact h.newSpan hne name
  | enter id =>
      cases hcall
      exact h.enqueue rfl
  | exit id =>
      cases hcall
      exact h.enqueue rfl
  | event content level =>
      cases hcall
      exact h.enqueue rfl

/-- Whatever is called on it, the subscriber never announces an id twice. -/
theorem announced_once (calls : List Call) (s : SerialSubscriber)
    (hrun : Lts.run (fun s call => (SerialSubscriber.call s call).toOption) .start calls = some s) :
    (announced s.writer).Nodup := by
  have hstart : Fresh .start := ⟨List.nodup_nil, .inr (fun id hid => by cases hid), by decide⟩
  exact (Lts.run_invariant (fun _ _ _ => Fresh.call) hstart hrun).once

end Rucoonos.Logging
