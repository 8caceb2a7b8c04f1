/-
The DHCP client of one card.

What the handler is to do for each of its cards, without frames, queues or the other
cards: the client takes the first Offer of its exchange, asks for what was offered, and
is done with the first Ack after that.  An answer is of the exchange if it has the
exchange's transaction id; nothing else is asked of it.

The client remembers the Offer, so where it has got to is a function of the messages it
was given, and `offer_after` says which of them the Offer is.
-/
import Rucoonos.Net.Dhcp

namespace Rucoonos.Client

/-- How far the exchange has got, with the Offer that was taken. -/
inductive Phase
  | discover
  | requested (offer : Dhcp.Data)
  | done (offer : Dhcp.Data)
  deriving DecidableEq, Repr

def Phase.offer : Phase → Option Dhcp.Data
  | .discover => none
  | .requested offer => some offer
  | .done offer => some offer

/-- The address the client holds. -/
def Phase.ip : Phase → Option Ip
  | .done offer => some offer.yiaddr
  | _ => none

/-- How many Requests the client has sent. -/
def Phase.requests : Phase → Nat
  | .discover => 0
  | _ => 1

variable (xid : UInt32)

def isOffer (data : Dhcp.Data) : Bool := data.operation = .offer ∧ data.xid = xid

def isAck (data : Dhcp.Data) : Bool := data.operation = .ack ∧ data.xid = xid

/-- What a message does to the client. -/
def next : Phase → Dhcp.Data → Phase
  | .discover, data => if isOffer xid data then .requested data else .discover
  | .requested offer, data => if isAck xid data then .done offer else .requested offer
  | .done offer, _ => .done offer

/-- Where some messages take the client. -/
def after (given : List Dhcp.Data) : Phase := given.foldl (next xid) .discover

/-- A message that may or may not be there. -/
def nextOf (phase : Phase) : Option Dhcp.Data → Phase
  | none => phase
  | some data => next xid phase data

theorem after_filterMap_snoc {A : Type} (f : A → Option Dhcp.Data) (as : List A) (a : A) :
    after xid ((as ++ [a]).filterMap f) = nextOf xid (after xid (as.filterMap f)) (f a) := by
  rw [List.filterMap_append, after, List.foldl_append]
  cases hf : f a with
  | none => rw [List.filterMap_cons_none hf]; rfl
  | some data => rw [List.filterMap_cons_some hf]; rfl

/-- The client only ever moves on, one phase at a time, and keeps its Offer. -/
theorem next_cases (phase : Phase) (data : Dhcp.Data) :
    next xid phase data = phase ∨
      (phase = .discover ∧ isOffer xid data = true ∧ next xid phase data = .requested data) ∨
      ∃ offer, phase = .requested offer ∧ isAck xid data = true ∧
        next xid phase data = .done offer := by
  cases phase with
  | discover =>
      rw [next]
      by_cases h : isOffer xid data = true
      · exact .inr (.inl ⟨rfl, h, if_pos h⟩)
      · exact .inl (if_neg h)
  | requested offer =>
      rw [next]
      by_cases h : isAck xid data = true
      · exact .inr (.inr ⟨offer, rfl, h, if_pos h⟩)
      · exact .inl (if_neg h)
  | done offer => exact .inl rfl

theorem offer_next (phase : Phase) (data : Dhcp.Data) :
    (next xid phase data).offer = phase.offer.or ([data].find? (isOffer xid)) := by
  cases phase with
  | discover =>
      rw [next, List.find?_singleton]
      split <;> rfl
  | requested offer =>
      rw [next]
      split <;> rfl
  | done offer => rfl

/-- **The Offer taken is the first of the exchange.** -/
theorem offer_after (given : List Dhcp.Data) :
    (after xid given).offer = given.find? (isOffer xid) := by
  induction given using List.reverseRecOn with
  | nil => rfl
  | append_singleton given data ih =>
      rw [after, List.foldl_append, List.find?_append, ← ih]
      exact offer_next xid _ data

end Rucoonos.Client
