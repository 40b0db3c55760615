import AccountVault.Storage.Request
import Std.Data.ExtTreeMap

/-!
# Turns

Tasks that write take turns: for each account one task at a time commits or deletes, and one task at a
time raises the mark.  Each turn has a queue, first come, first served, whose first task holds the
turn.

A turn is a lock that is held while waiting: `Turn.account` is the commit lock of an account, and
`Turn.mark` the lock of the sequence of ids.  To join a queue is to ask for the lock, to be first in it is
to have it, and to leave is to let it go.
-/

namespace AccountVault

abbrev TaskId := Nat

/-- What tasks take turns at. -/
inductive Turn
  | account (id : AccountId)
  | mark
  deriving DecidableEq, Repr

structure Turns where
  accounts : Std.ExtTreeMap AccountId (List TaskId) := ∅
  mark : List TaskId := []
  deriving DecidableEq

namespace Turns

instance : Inhabited Turns := ⟨{}⟩

/-- The tasks at a turn, the one that holds it first. -/
def queue (t : Turns) : Turn → List TaskId
  | .account id => t.accounts[id]?.getD []
  | .mark => t.mark

def setQueue (t : Turns) (turn : Turn) (q : List TaskId) : Turns :=
  match turn with
  | .account id => { t with accounts := t.accounts.insert id q }
  | .mark => { t with mark := q }

/-- The task that holds a turn. -/
def holder? (t : Turns) (turn : Turn) : Option TaskId := (t.queue turn).head?

/-- Puts a task at the end of a queue. -/
def join (t : Turns) (turn : Turn) (task : TaskId) : Turns :=
  t.setQueue turn (t.queue turn ++ [task])

/-- Takes the holder out of a queue, so that the next task holds the turn. -/
def leave (t : Turns) (turn : Turn) : Turns := t.setQueue turn (t.queue turn).tail

theorem queue_setQueue (t : Turns) (turn other : Turn) (q : List TaskId) :
    (t.setQueue turn q).queue other = if turn = other then q else t.queue other := by
  cases turn <;> cases other <;>
    simp [setQueue, queue, Std.ExtTreeMap.getElem?_insert, Std.LawfulEqCmp.compare_eq_iff_eq]
  split <;> simp_all

theorem queue_join (t : Turns) (turn other : Turn) (task : TaskId) :
    (t.join turn task).queue other =
      if turn = other then t.queue turn ++ [task] else t.queue other :=
  queue_setQueue ..

theorem queue_leave (t : Turns) (turn other : Turn) :
    (t.leave turn).queue other = if turn = other then (t.queue turn).tail else t.queue other :=
  queue_setQueue ..

end Turns

end AccountVault
