import AccountVault.Notice.Basic

/-!
# Notice board

Notices wait in a queue, first in, first out, until they are handed to the subscribers.  `dispatch`
takes one notice and names those who get it: the subscribers at that time whose filter accepts it, in
the order in which they subscribed.  A board that is closed takes no more notices, but hands out those
that are waiting.

A notice is an account event, the board the notifier with the channel to its dispatcher, and a filter
the event filter of a subscription.
-/

namespace AccountVault

/-- Subscriptions are numbered from 1.  The numbers are not bounded here: a counter of 64 bits would come
round only after 2 ^ 64 subscriptions to one vault, which is out of reach. -/
abbrev SubscriptionId := Nat

structure Subscription where
  id : SubscriptionId
  filter : NoticeFilter
  deriving DecidableEq, Repr

structure Board where
  /-- The id of the next subscription. -/
  next : SubscriptionId := 1
  subscribers : List Subscription := []
  queue : List Notice := []
  isOpen : Bool := true
  deriving DecidableEq, Repr

/-- A notice handed to a subscriber. -/
structure Delivery where
  subscription : SubscriptionId
  notice : Notice
  deriving DecidableEq, Repr

namespace Board

instance : Inhabited Board := ⟨{}⟩

def subscribe (b : Board) (filter : NoticeFilter) : Board × SubscriptionId :=
  ({ b with next := b.next + 1, subscribers := b.subscribers ++ [⟨b.next, filter⟩] }, b.next)

def unsubscribe (b : Board) (id : SubscriptionId) : Board :=
  { b with subscribers := b.subscribers.filter (·.id ≠ id) }

/-- Puts a notice at the end of the queue; a closed board drops it. -/
def publish (b : Board) (n : Notice) : Board :=
  if b.isOpen then { b with queue := b.queue ++ [n] } else b

def close (b : Board) : Board := { b with isOpen := false }

/-- Who gets a notice. -/
def deliveries (b : Board) (n : Notice) : List Delivery :=
  (b.subscribers.filter (·.filter.accepts n)).map fun s => ⟨s.id, n⟩

/-- Hands out the first waiting notice. -/
def dispatch (b : Board) : Board × List Delivery :=
  match b.queue with
  | [] => (b, [])
  | n :: rest => ({ b with queue := rest }, b.deliveries n)

/-- Hands out all waiting notices. -/
def drain (b : Board) : Board × List Delivery :=
  ({ b with queue := [] }, b.queue.flatMap b.deliveries)

theorem queue_publish (b : Board) (n : Notice) :
    (b.publish n).queue = if b.isOpen then b.queue ++ [n] else b.queue := by
  unfold publish
  split <;> rfl

/-- Handing out everything is handing out the first notice and then the rest. -/
theorem drain_eq_dispatch (b : Board) :
    b.drain.2 = b.dispatch.2 ++ b.dispatch.1.drain.2 ∧ b.drain.1 = b.dispatch.1.drain.1 := by
  unfold drain dispatch
  cases h : b.queue with
  | nil => simp [h]
  | cons n rest => exact ⟨rfl, rfl⟩

end Board

end AccountVault
