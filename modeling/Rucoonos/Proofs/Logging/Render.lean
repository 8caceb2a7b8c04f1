/-
What is printed, read off the program that logs.

A program makes spans, runs code inside of them and logs.  The framework asks the
subscriber whether it is interested: an event that is not enabled is not passed on, and
code inside of a span that is not enabled runs as if there were no span.  A task that is
instrumented has one span, which it is inside of whenever it is polled; an interrupt is
code that runs between any two calls, inside of a span of its own.

`render` is what such a program should print: each event that is enabled, in order, with
the name of the innermost enabled span around it.  The subscriber makes messages of the
program and the logger makes lines of the messages.  `logger_renders` says that together
they print that: the ids, the map of names and the stack of names are not seen.
-/
import Rucoonos.Proofs.Logging.Spans

namespace Rucoonos.Logging

open Slice

/-! ### Programs that log -/

/-- `inSpan k` runs code inside of the span that was made as the `k`-th. -/
inductive Code
  | skip
  | seq (first second : Code)
  | event (content : String) (level : LogLevel)
  | newSpan (name : String) (level : LogLevel)
  | inSpan (k : Nat) (body : Code)
  deriving DecidableEq, Repr

/-- How many spans the code makes. -/
def Code.spans : Code → Nat
  | .skip => 0
  | .seq first second => first.spans + second.spans
  | .event _ _ => 0
  | .newSpan _ _ => 1
  | .inSpan _ body => body.spans

/-- The lines that the code should print inside of a span called `current`, and the spans
there are after it; `none` is one that is not enabled. -/
def Code.render (level : LogLevel) (spans : List (Option String)) (current : String) :
    Code → List String × List (Option String)
  | .skip => ([], spans)
  | .seq first second =>
      let (lines, spans) := first.render level spans current
      let (lines', spans) := second.render level spans current
      (lines ++ lines', spans)
  | .event content mLevel =>
      (if level.enabled mLevel = true then [logLine mLevel current content] else [], spans)
  | .newSpan name mLevel => ([], spans ++ [if level.enabled mLevel = true then some name else none])
  | .inSpan k body => body.render level spans (spans[k]?.join.getD current)

/-- The calls that the code makes, with the ids of the spans there are. -/
def Code.exec (level : LogLevel) (s : SerialSubscriber) (ids : List (Option Nat)) :
    Code → Exec (SerialSubscriber × List (Option Nat))
  | .skip => return (s, ids)
  | .seq first second => do
      let (s, ids) ← first.exec level s ids
      second.exec level s ids
  | .event content mLevel => do
      if level.enabled mLevel = true then
        let s ← s.call (.event content mLevel)
        return (s, ids)
      return (s, ids)
  | .newSpan name mLevel => do
      if level.enabled mLevel = true then
        let (id, s) ← s.newSpan name
        return (s, ids ++ [some id])
      return (s, ids ++ [none])
  | .inSpan k body =>
      match ids[k]?.join with
      | none => body.exec level s ids
      | some id => do
          let s ← s.call (.enter id)
          let (s, ids) ← body.exec level s ids
          let s ← s.call (.exit id)
          return (s, ids)

/-! ### The logger keeps up -/

/-- What the program calls its spans is what the logger knows them as, and the ids to come
are new. -/
structure Matches (s : SerialSubscriber) (ids : List (Option Nat)) (spans : List (Option String)) :
    Prop where
  names : ids.map (fun id => id.bind (logger s.writer).spanNames) = spans
  known : ∀ id, some id ∈ ids → ∃ name, (logger s.writer).spanNames id = some name
  passed : ∀ id, some id ∈ ids → id < s.idCounter
  positive : 0 < s.idCounter

/-- The messages from one point to another print these lines, and leave the stack of names and
the names of the spans there were as they are. -/
structure Prints (s s' : SerialSubscriber) (lines : List String) : Prop where
  stack : (logger s'.writer).currentName = (logger s.writer).currentName
  printed : (logger s'.writer).printed = (logger s.writer).printed ++ lines
  counter : s.idCounter ≤ s'.idCounter
  kept : ∀ id, id < s.idCounter → (logger s'.writer).spanNames id = (logger s.writer).spanNames id

section Step

variable {s s' s'' : SerialSubscriber} {ids : List (Option Nat)} {spans : List (Option String)}

theorem Prints.refl (s : SerialSubscriber) : Prints s s [] :=
  ⟨rfl, (List.append_nil _).symm, Nat.le_refl _, fun _ _ => rfl⟩

theorem Prints.trans {lines lines' : List String} (h : Prints s s' lines)
    (h' : Prints s' s'' lines') : Prints s s'' (lines ++ lines') := by
  refine ⟨h'.stack.trans h.stack, ?_, h.counter.trans h'.counter, fun id hid => ?_⟩
  · rw [h'.printed, h.printed, List.append_assoc]
  · exact (h'.kept id (Nat.lt_of_lt_of_le hid h.counter)).trans (h.kept id hid)

/-- A message that announces nothing leaves the names alone. -/
theorem Matches.enqueue (h : Matches s ids spans) {m : SubscriberMessage}
    (hm : (logger (s.writer ++ [m])).spanNames = (logger s.writer).spanNames) :
    Matches (s.enqueue m) ids spans where
  names := by
    rw [SerialSubscriber.enqueue, hm]
    exact h.names
  known := fun id hid => by
    rw [SerialSubscriber.enqueue, hm]
    exact h.known id hid
  passed := h.passed
  positive := h.positive

theorem spanNames_event (w : List SubscriberMessage) (content : String) (level : LogLevel) :
    (logger (w ++ [.event content level])).spanNames = (logger w).spanNames := by
  rw [logger_snoc]
  rfl

theorem spanNames_enter (w : List SubscriberMessage) (id : Nat) :
    (logger (w ++ [.enter id])).spanNames = (logger w).spanNames := by
  rw [logger_snoc, Logger.handle]
  split
  · rfl
  · rfl

theorem spanNames_exit (w : List SubscriberMessage) (id : Nat) :
    (logger (w ++ [.exit id])).spanNames = (logger w).spanNames := by
  rw [logger_snoc, Logger.handle]
  split
  · rfl
  · split
    · split
      · rfl
      · rfl
    · rfl

/-- A span that is not enabled is not announced. -/
theorem Matches.disabled (h : Matches s ids spans) :
    Matches s (ids ++ [none]) (spans ++ [none]) where
  names := by
    rw [List.map_append, h.names]
    rfl
  known := fun id hid => h.known id (by simpa using hid)
  passed := fun id hid => h.passed id (by simpa using hid)
  positive := h.positive

/-- A new span has a new id. -/
theorem Matches.newSpan (h : Matches s ids spans) (hroom : s.idCounter + 1 < 2 ^ 64)
    (name : String) :
    ∃ s', s.newSpan name = .ok (s.idCounter, s') ∧ s'.idCounter = s.idCounter + 1 ∧
      Matches s' (ids ++ [some s.idCounter]) (spans ++ [some name]) ∧ Prints s s' [] := by
  have hpositive := h.positive
  have hid : idFromU64 s.idCounter = .ok s.idCounter := if_neg (by omega)
  have hcounter : (s.idCounter + 1) % 2 ^ 64 = s.idCounter + 1 := Nat.mod_eq_of_lt hroom
  have hnames : (logger (s.writer ++ [.newSpan s.idCounter name])).spanNames
      = Function.update (logger s.writer).spanNames s.idCounter (some name) := by
    rw [logger_snoc]
    rfl
  refine ⟨⟨s.writer ++ [.newSpan s.idCounter name], s.idCounter + 1⟩, ?_, rfl, ?_, ?_⟩
  · rw [SerialSubscriber.newSpan, hid, ok_bind, hcounter]
    rfl
  · have hold : ∀ id, some id ∈ ids → Function.update (logger s.writer).spanNames s.idCounter
        (some name) id = (logger s.writer).spanNames id := by
      intro id hmem
      exact Function.update_of_ne (Nat.ne_of_lt (h.passed id hmem)) ..
    refine ⟨?_, ?_, ?_, Nat.succ_pos _⟩
    · rw [hnames, List.map_append, ← h.names]
      refine congrArg₂ _ (List.map_congr_left fun id hmem => ?_) ?_
      · cases id with
        | none => rfl
        | some id => exact hold id hmem
      · exact congrArg (fun n => [n]) (Function.update_self ..)
    · intro id hmem
      rw [hnames]
      rcases List.mem_append.mp hmem with hmem | hnew
      · rw [hold id hmem]
        exact h.known id hmem
      · rw [List.mem_singleton, Option.some.injEq] at hnew
        rw [hnew]
        exact ⟨name, Function.update_self ..⟩
    · intro id hmem
      rcases List.mem_append.mp hmem with hmem | hnew
      · exact Nat.lt_succ_of_lt (h.passed id hmem)
      · rw [List.mem_singleton, Option.some.injEq] at hnew
        rw [hnew]
        exact Nat.lt_succ_self _
  · refine ⟨?_, ?_, Nat.le_succ _, fun id hid => ?_⟩
    · show (logger (s.writer ++ [_])).currentName = _
      rw [logger_snoc]
      rfl
    · show (logger (s.writer ++ [_])).printed = _
      rw [logger_snoc, List.append_nil]
      rfl
    · show (logger (s.writer ++ [_])).spanNames id = _
      rw [hnames, Function.update_of_ne (Nat.ne_of_lt hid)]

/-- The span that the program means, as both sides see it. -/
theorem Matches.span (h : Matches s ids spans) (k : Nat) :
    (ids[k]?.join = none ∧ spans[k]?.join = none) ∨
      ∃ id name, ids[k]?.join = some id ∧ spans[k]?.join = some name ∧
        (logger s.writer).spanNames id = some name := by
  have hspans : spans[k]? = ids[k]?.map fun id => id.bind (logger s.writer).spanNames := by
    rw [← h.names, List.getElem?_map]
  cases hk : ids[k]? with
  | none =>
      rw [hk] at hspans
      exact .inl ⟨rfl, by rw [hspans]; rfl⟩
  | some span =>
      rw [hk] at hspans
      cases span with
      | none => exact .inl ⟨rfl, by rw [hspans]; rfl⟩
      | some id =>
          obtain ⟨name, hname⟩ := h.known id (List.mem_of_getElem? hk)
          refine .inr ⟨id, name, rfl, ?_, hname⟩
          rw [hspans]
          exact hname

end Step

/-- Entering and leaving a span around messages that leave the stack alone. -/
theorem logger_enter {w : List SubscriberMessage} {id : Nat} {name : String}
    (hname : (logger w).spanNames id = some name) :
    (logger (w ++ [.enter id])).currentName = (logger w).currentName ++ [name] ∧
      (logger (w ++ [.enter id])).printed = (logger w).printed := by
  rw [logger_snoc, Logger.handle, hname]
  exact ⟨rfl, rfl⟩

theorem logger_exit {w : List SubscriberMessage} {id : Nat} {name : String} {names : List String}
    (hname : (logger w).spanNames id = some name)
    (hstack : (logger w).currentName = names ++ [name]) :
    (logger (w ++ [.exit id])).currentName = names ∧
      (logger (w ++ [.exit id])).printed = (logger w).printed := by
  have hlast : (logger w).currentName.getLast? = some name := by
    rw [hstack, List.getLast?_concat]
  rw [logger_snoc, Logger.handle, hname]
  simp only [hlast, if_true]
  refine ⟨?_, trivial⟩
  rw [hstack, List.dropLast_concat]

theorem mem_of_join {A : Type} {l : List (Option A)} {k : Nat} {x : A}
    (h : l[k]?.join = some x) : some x ∈ l :=
  List.mem_of_getElem? (Option.join_eq_some_iff.mp h)

/-- The logger only ever appends to what it has printed. -/
theorem printed_prefix {pre messages : List SubscriberMessage} (h : pre <+: messages) :
    (logger pre).printed <+: (logger messages).printed := by
  obtain ⟨rest, rfl⟩ := h
  induction rest using List.reverseRecOn with
  | nil => rw [List.append_nil]
  | append_singleton rest m ih =>
      refine ih.trans ?_
      rw [← List.append_assoc, logger_snoc, Logger.handle.eq_def]
      cases m with
      | newSpan id name => exact List.prefix_refl _
      | enter id =>
          dsimp only
          split
          · exact List.prefix_refl _
          · exact List.prefix_refl _
      | exit id =>
          dsimp only
          split
          · exact List.prefix_refl _
          · split
            · split
              · exact List.prefix_refl _
              · exact List.prefix_refl _
            · exact List.prefix_refl _
      | event content level => exact List.prefix_append ..

/-- **The code prints what it should.** -/
theorem exec_renders (level : LogLevel) (code : Code) : ∀ {s : SerialSubscriber}
    {ids : List (Option Nat)} {spans : List (Option String)}, Matches s ids spans →
    s.idCounter + code.spans < 2 ^ 64 →
    ∃ s' ids', code.exec level s ids = .ok (s', ids') ∧
      s'.idCounter ≤ s.idCounter + code.spans ∧
      Matches s' ids' (code.render level spans ((logger s.writer).currentName.getLast?.getD "")).2 ∧
      Prints s s' (code.render level spans ((logger s.writer).currentName.getLast?.getD "")).1 := by
  induction code with
  | skip =>
      intro s ids spans h _
      exact ⟨s, ids, rfl, Nat.le_refl _, h, .refl s⟩
  | seq first second ihfirst ihsecond =>
      intro s ids spans h hroom
      rw [Code.spans] at hroom
      obtain ⟨s₁, ids₁, hexec₁, hcounter₁, h₁, hprints₁⟩ := ihfirst h (by omega)
      obtain ⟨s₂, ids₂, hexec₂, hcounter₂, h₂, hprints₂⟩ := ihsecond h₁ (by omega)
      rw [hprints₁.stack] at h₂ hprints₂
      refine ⟨s₂, ids₂, ?_, ?_, h₂, hprints₁.trans hprints₂⟩
      · rw [Code.exec, hexec₁, ok_bind]
        exact hexec₂
      · rw [Code.spans]
        omega
  | event content mLevel =>
      intro s ids spans h _
      by_cases henabled : level.enabled mLevel = true
      · refine ⟨s.enqueue (.event content mLevel), ids, ?_, Nat.le_refl _,
          h.enqueue (spanNames_event ..), ?_, ?_, Nat.le_refl _,
          fun id _ => congrFun (spanNames_event ..) id⟩
        · rw [Code.exec, if_pos henabled]
          rfl
        · show (logger (s.writer ++ [_])).currentName = _
          rw [logger_snoc]
          rfl
        · show (logger (s.writer ++ [_])).printed = _
          rw [logger_snoc, Code.render, if_pos henabled]
          rfl
      · refine ⟨s, ids, ?_, Nat.le_refl _, h, ?_⟩
        · rw [Code.exec, if_neg henabled]
          rfl
        · rw [Code.render, if_neg henabled]
          exact .refl s
  | newSpan name mLevel =>
      intro s ids spans h hroom
      by_cases henabled : level.enabled mLevel = true
      · obtain ⟨s', hnew, hcounter, h', hprints⟩ := h.newSpan hroom name
        refine ⟨s', ids ++ [some s.idCounter], ?_, Nat.le_of_eq hcounter, ?_, hprints⟩
        · rw [Code.exec, if_pos henabled, hnew]
          rfl
        · rw [Code.render, if_pos henabled]
          exact h'
      · refine ⟨s, ids ++ [none], ?_, Nat.le_add_right .., ?_, .refl s⟩
        · rw [Code.exec, if_neg henabled]
          rfl
        · rw [Code.render, if_neg henabled]
          exact h.disabled
  | inSpan k body ih =>
      intro s ids spans h hroom
      rcases h.span k with ⟨hids, hspans⟩ | ⟨id, name, hids, hspans, hname⟩
      · obtain ⟨s', ids', hexec, hrest⟩ := ih h hroom
        refine ⟨s', ids', ?_, ?_⟩
        · rw [Code.exec, hids]
          exact hexec
        · rw [Code.render, hspans]
          exact hrest
      · obtain ⟨hstack, hprinted⟩ := logger_enter hname
        have henter : Matches (s.enqueue (.enter id)) ids spans := h.enqueue (spanNames_enter ..)
        obtain ⟨s', ids', hexec, hcounter, h', hprints⟩ := ih henter hroom
        have hcurrent : (logger (s.enqueue (.enter id)).writer).currentName
            = (logger s.writer).currentName ++ [name] := hstack
        rw [hcurrent, List.getLast?_concat, Option.getD_some] at h' hprints
        have hname' : (logger s'.writer).spanNames id = some name := by
          have hid : id < s.idCounter := h.passed id (mem_of_join hids)
          rw [hprints.kept id hid]
          exact (congrFun (spanNames_enter ..) id).trans hname
        obtain ⟨hstack', hprinted'⟩ := logger_exit hname' (hprints.stack.trans hcurrent)
        refine ⟨s'.enqueue (.exit id), ids', ?_, hcounter, ?_, ?_, ?_, hprints.counter, ?_⟩
        · rw [Code.exec, hids]
          show (do
            let (s, ids) ← body.exec level (s.enqueue (.enter id)) ids
            let s ← s.call (.exit id)
            return (s, ids)) = _
          rw [hexec]
          rfl
        · rw [Code.render, hspans]
          exact h'.enqueue (spanNames_exit ..)
        · exact hstack'
        · rw [Code.render, hspans]
          refine hprinted'.trans (hprints.printed.trans ?_)
          exact congrArg (· ++ _) hprinted
        · intro id' hid'
          refine (congrFun (spanNames_exit ..) id').trans ((hprints.kept id' hid').trans ?_)
          exact congrFun (spanNames_enter ..) id'

/--
**What is printed is what the program says.**  For every level and every program that makes
fewer than 2^64 - 1 spans, whatever spans its code is inside of and whatever interrupts it:
the subscriber takes all its calls, the logger prints the enabled events in order, each with
the name of the innermost enabled span around it, and is outside of all spans after that.
At any time before, it has printed the first of these lines.
-/
theorem logger_renders (level : LogLevel) (code : Code) (hspans : code.spans + 1 < 2 ^ 64) :
    ∃ s ids, code.exec level .start [] = .ok (s, ids) ∧
      (logger s.writer).printed = (code.render level [] "").1 ∧
      (logger s.writer).currentName = [] ∧
      ∀ pre, pre <+: s.writer → (logger pre).printed <+: (code.render level [] "").1 := by
  have hstart : Matches .start [] [] :=
    ⟨rfl, fun id hid => (by cases hid), fun id hid => (by cases hid), Nat.one_pos⟩
  have hroom : SerialSubscriber.start.idCounter + code.spans < 2 ^ 64 := by
    rw [Nat.add_comm]
    exact hspans
  obtain ⟨s, ids, hexec, -, -, hprints⟩ := exec_renders level code hstart hroom
  have hprinted : (logger s.writer).printed = (code.render level [] "").1 := hprints.printed
  refine ⟨s, ids, hexec, hprinted, hprints.stack, fun pre hpre => ?_⟩
  rw [← hprinted]
  exact printed_prefix hpre

/-- Two instrumented tasks are polled in turn.  The first poll is interrupted, and the second
task calls a function whose span is not enabled. -/
def polledInTurn : Code :=
  .seq (.newSpan "network_handler" .info) (.seq (.newSpan "ping" .info)
    (.seq (.inSpan 0 (.seq (.event "After Init" .info)
        (.seq (.newSpan "Networking-Interrupt" .error)
          (.seq (.inSpan 2 (.event "Could not get lock for Devices" .error))
            (.event "Raw-Packet" .debug)))))
      (.seq (.newSpan "inner" .trace)
        (.inSpan 1 (.inSpan 3 (.seq (.event "poll" .trace) (.event "Received Ping" .info)))))))

theorem logger_renders_polledInTurn :
    polledInTurn.spans + 1 < 2 ^ 64 ∧
      (polledInTurn.render .debug [] "").1 = ["[I][network_handler] After Init",
        "[E][Networking-Interrupt] Could not get lock for Devices",
        "[D][network_handler] Raw-Packet", "[I][ping] Received Ping"] ∧
      ∃ s ids, polledInTurn.exec .debug .start [] = .ok (s, ids) ∧
        (logger s.writer).printed = (polledInTurn.render .debug [] "").1 ∧
        (logger s.writer).currentName = [] ∧
        ∀ pre, pre <+: s.writer → (logger pre).printed <+: (polledInTurn.render .debug [] "").1 :=
  ⟨by decide, by decide +kernel, logger_renders .debug polledInTurn (by decide)⟩

end Rucoonos.Logging
