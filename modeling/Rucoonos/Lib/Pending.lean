/-
Requests that wait for an answer, with one place per key.

A client posts a letter with the key it asks about.  The letters are taken in order;
taking one asks for its key and puts the client into the place of that key, whoever was
there before.  An answer for a key empties its place.

What a client is entitled to does not depend on the places: it has asked, and every
answer for its key from then on answers it.  `Complete` says that the places do it
justice: whoever still waits is in the place of its key.  It survives every operation
but one, the taking of a letter for a key that somebody still waits for
(`Complete.step`).
-/
import Mathlib.Data.List.Nodup
import Mathlib.Logic.Function.Basic

namespace Pending

structure Client (K : Type) where
  key : K
  asked : Bool
  answered : Bool
  /-- The client has not given up. -/
  live : Bool
  deriving DecidableEq, Repr

structure Desk (K I : Type) where
  letters : List (K × I)
  slot : K → Option I
  clients : I → Option (Client K)

inductive Op (K I : Type)
  | post (key : K) (client : I)
  | take
  | answer (key : K)
  | cancel (client : I)
  deriving DecidableEq, Repr

section Client

variable {K : Type} [DecidableEq K]

/-- A client that has posted its letter. -/
def Client.new (key : K) : Client K := ⟨key, false, false, true⟩

def Client.ask (c : Client K) : Client K := { c with asked := true }

/-- An answer for `key` goes by. -/
def Client.hear (key : K) (c : Client K) : Client K :=
  if c.key = key ∧ c.asked = true then { c with answered := true } else c

def Client.cancel (c : Client K) : Client K := { c with live := false }

def Client.Waiting (c : Client K) : Prop := c.live = true ∧ c.asked = true ∧ c.answered = false

instance (c : Client K) : Decidable c.Waiting := by unfold Client.Waiting; infer_instance

@[simp] theorem Client.hear_key (key : K) (c : Client K) : (c.hear key).key = c.key := by
  unfold hear
  split
  · rfl
  · rfl

@[simp] theorem Client.hear_asked (key : K) (c : Client K) : (c.hear key).asked = c.asked := by
  unfold hear
  split
  · rfl
  · rfl

/-- Other keys, and clients that have not asked, are not concerned. -/
theorem Client.hear_of_not {key : K} {c : Client K} (h : ¬ (c.key = key ∧ c.asked = true)) :
    c.hear key = c := by
  rw [hear, if_neg h]

/-- Whoever still waits after an answer was not waiting for it. -/
theorem Client.waiting_of_hear {key : K} {c : Client K} (h : (c.hear key).Waiting) :
    c.Waiting ∧ c.key ≠ key := by
  by_cases hkey : c.key = key ∧ c.asked = true
  · rw [hear, if_pos hkey] at h
    cases h.2.2
  · rw [Client.hear_of_not hkey] at h
    exact ⟨h, fun hk => hkey ⟨hk, h.2.1⟩⟩

end Client

variable {K I : Type} [DecidableEq K] [DecidableEq I]

def Desk.step (d : Desk K I) : Op K I → Option (Desk K I)
  | .post key i =>
      match d.clients i with
      | some _ => none
      | none => some { d with
          letters := d.letters ++ [(key, i)]
          clients := Function.update d.clients i (some (.new key)) }
  | .take =>
      match d.letters with
      | [] => none
      | (key, i) :: rest => some {
          letters := rest
          slot := Function.update d.slot key (some i)
          clients := Function.update d.clients i ((d.clients i).map Client.ask) }
  | .answer key => some { d with
      slot := Function.update d.slot key none
      clients := fun i => (d.clients i).map (Client.hear key) }
  | .cancel i => some { d with
      clients := Function.update d.clients i ((d.clients i).map Client.cancel) }

/-- Letters and places belong to clients, each to one that can use it. -/
structure Sound (d : Desk K I) : Prop where
  letters : ∀ key i, (key, i) ∈ d.letters →
    ∃ c, d.clients i = some c ∧ c.key = key ∧ c.asked = false
  once : (d.letters.map Prod.snd).Nodup
  slot : ∀ key i, d.slot key = some i →
    ∃ c, d.clients i = some c ∧ c.key = key ∧ c.asked = true ∧ c.answered = false
  fresh : ∀ i c, d.clients i = some c → c.asked = false → c.answered = false

/-- Whoever waits is in the place of its key. -/
def Complete (d : Desk K I) : Prop :=
  ∀ i c, d.clients i = some c → c.Waiting → d.slot c.key = some i

omit [DecidableEq K] [DecidableEq I] in
/-- A desk where nobody has been yet. -/
theorem Sound.empty {d : Desk K I} (hletters : d.letters = []) (hslot : ∀ key, d.slot key = none)
    (hclients : ∀ i, d.clients i = none) : Sound d where
  letters := fun key i hmem => by
    rw [hletters] at hmem
    cases hmem
  once := by
    rw [hletters]
    exact List.nodup_nil
  slot := fun key i hkey => by
    rw [hslot] at hkey
    cases hkey
  fresh := fun i c hc => by
    rw [hclients] at hc
    cases hc

/-- A letter is only taken when nobody waits for its key. -/
def Clear (d : Desk K I) : Op K I → Prop
  | .take => ∀ key i, d.letters.head? = some (key, i) →
      ∀ j c, d.clients j = some c → c.Waiting → c.key ≠ key
  | _ => True

/-! ### One operation -/

section Update

variable {clients : I → Option (Client K)} {i j : I} {c : Client K}

omit [DecidableEq K] in
/-- A new client does not touch the others. -/
theorem update_new {new : Option (Client K)} (hi : clients i = none) (hj : clients j = some c) :
    Function.update clients i new j = some c := by
  have hne : j ≠ i := by
    rintro rfl
    rw [hi] at hj
    cases hj
  rw [Function.update_of_ne hne, hj]

omit [DecidableEq K] in
theorem update_map_eq_some {f : Client K → Client K} {c' : Client K} :
    Function.update clients i ((clients i).map f) j = some c' ↔
      ∃ c, clients j = some c ∧ c' = if j = i then f c else c := by
  by_cases hji : j = i
  · subst hji
    rw [Function.update_self, Option.map_eq_some_iff]
    simp only [if_pos, eq_comm]
  · rw [Function.update_of_ne hji]
    simp only [if_neg hji]
    constructor
    · intro h
      exact ⟨c', h, rfl⟩
    · rintro ⟨c, h, rfl⟩
      exact h

end Update

variable {d d' : Desk K I} {op : Op K I}

omit [DecidableEq K] in
theorem Sound.post {key : K} {i : I} (h : Sound d) (hnew : d.clients i = none) :
    Sound { d with
      letters := d.letters ++ [(key, i)]
      clients := Function.update d.clients i (some (.new key)) } := by
  refine ⟨?_, ?_, ?_, ?_⟩
  · intro key' j hmem
    rcases List.mem_append.mp hmem with hmem | hmem
    · obtain ⟨c, hc, hrest⟩ := h.letters key' j hmem
      exact ⟨c, update_new hnew hc, hrest⟩
    · rw [List.mem_singleton, Prod.mk.injEq] at hmem
      obtain ⟨rfl, rfl⟩ := hmem
      exact ⟨.new key', Function.update_self .., rfl, rfl⟩
  · rw [List.map_append, List.nodup_append]
    refine ⟨h.once, List.nodup_singleton _, ?_⟩
    rintro j hj k hk rfl
    rw [List.map_cons, List.map_nil, List.mem_singleton] at hk
    subst hk
    obtain ⟨⟨key', _⟩, hmem, rfl⟩ := List.mem_map.mp hj
    obtain ⟨c, hc, -⟩ := h.letters _ _ hmem
    rw [hnew] at hc
    cases hc
  · intro key' j hslot
    obtain ⟨c, hc, hrest⟩ := h.slot key' j hslot
    exact ⟨c, update_new hnew hc, hrest⟩
  · intro j c hc hasked
    dsimp only at hc
    by_cases hji : j = i
    · subst hji
      rw [Function.update_self, Option.some.injEq] at hc
      rw [← hc]
      rfl
    · rw [Function.update_of_ne hji] at hc
      exact h.fresh j c hc hasked

theorem Sound.take {key : K} {i : I} {rest : List (K × I)} (h : Sound d)
    (hletters : d.letters = (key, i) :: rest) :
    Sound {
      letters := rest
      slot := Function.update d.slot key (some i)
      clients := Function.update d.clients i ((d.clients i).map Client.ask) } := by
  obtain ⟨c, hc, hkey, hasked⟩ := h.letters key i (by rw [hletters]; exact List.mem_cons_self)
  have honce := h.once
  rw [hletters, List.map_cons, List.nodup_cons] at honce
  refine ⟨?_, honce.2, ?_, ?_⟩
  · intro key' j hmem
    dsimp only at hmem ⊢
    obtain ⟨c', hc', hrest⟩ := h.letters key' j (by rw [hletters]; exact List.mem_cons_of_mem _ hmem)
    have hji : j ≠ i := by
      rintro rfl
      exact honce.1 (List.mem_map.mpr ⟨_, hmem, rfl⟩)
    exact ⟨c', by rw [Function.update_of_ne hji, hc'], hrest⟩
  · intro key' j hslot
    dsimp only at hslot ⊢
    by_cases hk : key' = key
    · subst hk
      rw [Function.update_self, Option.some.injEq] at hslot
      subst hslot
      exact ⟨c.ask, update_map_eq_some.mpr ⟨c, hc, (if_pos rfl).symm⟩, hkey, rfl,
        h.fresh i c hc hasked⟩
    · rw [Function.update_of_ne hk] at hslot
      obtain ⟨c', hc', hkey', hasked', hanswered⟩ := h.slot key' j hslot
      have hji : j ≠ i := by
        rintro rfl
        rw [hc, Option.some.injEq] at hc'
        rw [← hc', hasked] at hasked'
        cases hasked'
      exact ⟨c', by rw [Function.update_of_ne hji, hc'], hkey', hasked', hanswered⟩
  · intro j c' hc' hasked'
    obtain ⟨c₀, hc₀, rfl⟩ := update_map_eq_some.mp hc'
    by_cases hji : j = i
    · rw [if_pos hji] at hasked'
      cases hasked'
    · rw [if_neg hji] at hasked' ⊢
      exact h.fresh j c₀ hc₀ hasked'

omit [DecidableEq I] in
theorem Sound.answer {key : K} (h : Sound d) :
    Sound { d with
      slot := Function.update d.slot key none
      clients := fun i => (d.clients i).map (Client.hear key) } := by
  refine ⟨?_, h.once, ?_, ?_⟩
  · intro key' j hmem
    obtain ⟨c, hc, hkey, hasked⟩ := h.letters key' j hmem
    exact ⟨c.hear key, Option.map_eq_some_iff.mpr ⟨c, hc, rfl⟩, (c.hear_key key).trans hkey,
      (c.hear_asked key).trans hasked⟩
  · intro key' j hslot
    dsimp only at hslot ⊢
    by_cases hk : key' = key
    · subst hk
      rw [Function.update_self] at hslot
      cases hslot
    · rw [Function.update_of_ne hk] at hslot
      obtain ⟨c, hc, hkey, hrest⟩ := h.slot key' j hslot
      have hhear : c.hear key = c := Client.hear_of_not fun hc => hk (hkey ▸ hc.1)
      exact ⟨c, by rw [hc, Option.map_some, hhear], hkey, hrest⟩
  · intro j c' hc' hasked'
    obtain ⟨c, hc, rfl⟩ := Option.map_eq_some_iff.mp hc'
    rw [c.hear_asked] at hasked'
    rw [Client.hear_of_not (fun hk => by rw [hasked'] at hk; cases hk.2)]
    exact h.fresh j c hc hasked'

omit [DecidableEq K] in
theorem Sound.cancel {i : I} (h : Sound d) :
    Sound { d with clients := Function.update d.clients i ((d.clients i).map Client.cancel) } := by
  have hkept : ∀ {j c}, d.clients j = some c →
      ∃ c', Function.update d.clients i ((d.clients i).map Client.cancel) j = some c' ∧
        c'.key = c.key ∧ c'.asked = c.asked ∧ c'.answered = c.answered := by
    intro j c hc
    refine ⟨_, update_map_eq_some.mpr ⟨c, hc, rfl⟩, ?_⟩
    split
    · exact ⟨rfl, rfl, rfl⟩
    · exact ⟨rfl, rfl, rfl⟩
  refine ⟨?_, h.once, ?_, ?_⟩
  · intro key j hmem
    obtain ⟨c, hc, hkey, hasked⟩ := h.letters key j hmem
    obtain ⟨c', hc', hkey', hasked', -⟩ := hkept hc
    exact ⟨c', hc', hkey'.trans hkey, hasked'.trans hasked⟩
  · intro key j hslot
    obtain ⟨c, hc, hkey, hasked, hanswered⟩ := h.slot key j hslot
    obtain ⟨c', hc', hkey', hasked', hanswered'⟩ := hkept hc
    exact ⟨c', hc', hkey'.trans hkey, hasked'.trans hasked, hanswered'.trans hanswered⟩
  · intro j c' hc' hasked
    obtain ⟨c, hc, rfl⟩ := update_map_eq_some.mp hc'
    have hold := h.fresh j c hc
    split at hasked
    · rename_i hji
      rw [if_pos hji]
      exact hold hasked
    · rename_i hji
      rw [if_neg hji]
      exact hold hasked

/-- Letters and places stay with their clients. -/
theorem Sound.step (h : Sound d) (hstep : d.step op = some d') : Sound d' := by
  cases op with
  | post key i =>
      rw [Desk.step] at hstep
      split at hstep
      · cases hstep
      · rename_i hnew
        cases hstep
        exact h.post hnew
  | take =>
      rw [Desk.step] at hstep
      split at hstep
      · cases hstep
      · rename_i hletters
        cases hstep
        exact h.take hletters
  | answer key =>
      cases hstep
      exact h.answer
  | cancel i =>
      cases hstep
      exact h.cancel

/-- Only a letter for a key that somebody waits for puts anybody out of its place. -/
theorem Complete.step (h : Complete d) (hs : Sound d) (hclear : Clear d op)
    (hstep : d.step op = some d') : Complete d' := by
  intro j c' hc' hwaiting
  cases op with
  | post key i =>
      rw [Desk.step] at hstep
      split at hstep
      · cases hstep
      · cases hstep
        by_cases hji : j = i
        · subst hji
          dsimp only at hc'
          rw [Function.update_self, Option.some.injEq] at hc'
          rw [← hc'] at hwaiting
          cases hwaiting.2.1
        · dsimp only at hc'
          rw [Function.update_of_ne hji] at hc'
          exact h j c' hc' hwaiting
  | take =>
      rw [Desk.step] at hstep
      split at hstep
      · cases hstep
      · rename_i key i rest hletters
        cases hstep
        obtain ⟨c, hc, rfl⟩ := update_map_eq_some.mp hc'
        by_cases hji : j = i
        · subst hji
          obtain ⟨c₀, hc₀, hkey, -⟩ := hs.letters key j (by rw [hletters]; exact List.mem_cons_self)
          rw [hc, Option.some.injEq] at hc₀
          rw [if_pos rfl, show c.ask.key = key from hc₀ ▸ hkey]
          exact Function.update_self ..
        · rw [if_neg hji] at hwaiting ⊢
          have hne := hclear key i (by rw [hletters]; rfl) j c hc hwaiting
          exact (Function.update_of_ne hne ..).trans (h j c hc hwaiting)
  | answer key =>
      cases hstep
      obtain ⟨c, hc, rfl⟩ := Option.map_eq_some_iff.mp hc'
      obtain ⟨hwaits, hne⟩ := Client.waiting_of_hear hwaiting
      rw [c.hear_key]
      exact (Function.update_of_ne hne ..).trans (h j c hc hwaits)
  | cancel i =>
      cases hstep
      obtain ⟨c, hc, rfl⟩ := update_map_eq_some.mp hc'
      by_cases hji : j = i
      · rw [if_pos hji] at hwaiting
        cases hwaiting.1
      · rw [if_neg hji] at hwaiting ⊢
        exact h j c hc hwaiting

/-- An operation, or none. -/
def Desk.move (d : Desk K I) : Option (Op K I) → Option (Desk K I)
  | none => some d
  | some op => d.step op

theorem Sound.move {op : Option (Op K I)} (h : Sound d) (hmove : d.move op = some d') :
    Sound d' := by
  cases op with
  | none =>
      cases hmove
      exact h
  | some op => exact h.step hmove

theorem Complete.move {op : Option (Op K I)} (h : Complete d) (hs : Sound d)
    (hclear : ∀ o, op = some o → Clear d o) (hmove : d.move op = some d') : Complete d' := by
  cases op with
  | none =>
      cases hmove
      exact h
  | some op => exact h.step hs (hclear op rfl) hmove

/-! ### Clients in a list

The clients of a system are often the records of a list, each seen as a client once it has
posted its letter.
-/

section Clients

variable {A : Type} {view : A → Option (Client K)} {f : A → A} {g : Client K → Client K}

def clientsOf (view : A → Option (Client K)) (l : List A) : Nat → Option (Client K) :=
  fun i => l[i]?.bind view

omit [DecidableEq K] in
/-- The next client has no number yet. -/
theorem clientsOf_length (view : A → Option (Client K)) (l : List A) :
    clientsOf view l l.length = none := by
  rw [clientsOf, List.getElem?_eq_none (Nat.le_refl _)]
  rfl

omit [DecidableEq K] in
theorem clientsOf_append (view : A → Option (Client K)) (l : List A) (a : A) :
    clientsOf view (l ++ [a]) = Function.update (clientsOf view l) l.length (view a) := by
  funext i
  by_cases hi : i = l.length
  · subst hi
    rw [Function.update_self, clientsOf, List.getElem?_concat_length]
    rfl
  · rw [Function.update_of_ne hi, clientsOf, clientsOf, List.getElem?_append]
    split
    · rfl
    · rename_i hlt
      rw [List.getElem?_eq_none (show [a].length ≤ i - l.length by simp; omega),
        List.getElem?_eq_none (by omega)]

omit [DecidableEq K] in
theorem clientsOf_set {l : List A} {i : Nat} {a : A} (hi : l[i]? = some a) (b : A) :
    clientsOf view (l.set i b) = Function.update (clientsOf view l) i (view b) := by
  have hlt : i < l.length := (List.getElem?_eq_some_iff.mp hi).1
  funext j
  by_cases hji : j = i
  · subst hji
    rw [Function.update_self, clientsOf, List.getElem?_set_self hlt]
    rfl
  · rw [Function.update_of_ne hji, clientsOf, List.getElem?_set_ne (Ne.symm hji)]
    rfl

omit [DecidableEq K] in
theorem clientsOf_modify (hview : ∀ a, view (f a) = (view a).map g) (l : List A) (i : Nat) :
    clientsOf view (l.modify i f)
      = Function.update (clientsOf view l) i ((clientsOf view l i).map g) := by
  funext j
  by_cases hji : j = i
  · subst hji
    rw [Function.update_self, clientsOf, clientsOf, List.getElem?_modify_eq]
    cases l[j]? with
    | none => rfl
    | some a => exact hview a
  · rw [Function.update_of_ne hji, clientsOf, List.getElem?_modify_ne f l (Ne.symm hji)]
    rfl

omit [DecidableEq K] in
theorem clientsOf_map (hview : ∀ a, view (f a) = (view a).map g) (l : List A) :
    clientsOf view (l.map f) = fun i => (clientsOf view l i).map g := by
  funext i
  rw [clientsOf, clientsOf, List.getElem?_map]
  cases l[i]? with
  | none => rfl
  | some a => exact hview a

end Clients

end Pending
