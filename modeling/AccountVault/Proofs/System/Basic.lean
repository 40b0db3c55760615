import AccountVault.Storage.Contents
import AccountVault.Vault.Task

/-!
# Systems

A system is a vault, the contents of the storage it writes to, and the tasks that run on the vault.
An `Action` is one step of whoever takes one: a caller, a task, the storage or the one who hands out
notices.  Any list of actions is a run (`System.run`), so that whatever holds after every list holds
under every schedule.  Looking at an account changes nothing and is no action.

It is assumed that whoever acts is interrupted only where it waits, for a turn, for the storage or for the
board to be empty.  So what is done from one wait to the next is one action (`System.step?`), although the
account, the roster and the board are each under a lock of their own, which is let go before the next is
taken (`Vault.recordSaved`, `Vault.recordRemoved`).  What a caller does without waiting is one action as
well, but for `Vault.switchService`, which is two in a row (`System.run_switchService`).
-/

namespace AccountVault

structure System where
  vault : Vault
  contents : Contents
  tasks : Std.ExtTreeMap TaskId Task := ∅
  /-- The tokens that have been used. -/
  cancelled : List TokenId := []
  /-- The notices that have left the board. -/
  handed : List Notice := []
  /-- The requests that went well, in order. -/
  served : List Request := []

inductive Action
  | create (provider : String)
  | edit (id : AccountId) (e : Edit)
  | setOverride (service key : String) (value : Value)
  | clearOverride (service key : String)
  | subscribe (f : NoticeFilter)
  | unsubscribe (id : SubscriptionId)
  /-- Hands out the first waiting notice. -/
  | dispatch
  /-- Sets a new task going. -/
  | spawn (t : TaskId) (op : Operation)
  | cancel (token : TokenId)
  /-- Lets a task take the next step that it can take without the storage. -/
  | run (t : TaskId)
  /-- Ends the request that a task waits for.  A request that fails has no effect. -/
  | answer (t : TaskId) (fault : Option Fault)

namespace System

/-- A vault that has just been opened. -/
def start (v : Vault) (c : Contents) : System := { vault := v, contents := c }

def isCancelled (s : System) (token : TokenId) : Bool := s.cancelled.contains token

/-- Takes in what a task has done. -/
def record (s : System) (t : TaskId) (p : Progress) : System :=
  { s with vault := p.vault, tasks := s.tasks.insert t p.task }

/-- Takes in what a caller has done to the vault, if it went well. -/
def accept (s : System) : Except Problem Vault → Option System
  | .ok vault => some { s with vault }
  | .error _ => none

/-- The next step of a task. -/
def runTask? (s : System) (t : TaskId) : Option System := do
  let task ← s.tasks[t]?
  let p ← task.step s.isCancelled s.vault t
  return s.record t p

/-- The answer to the request of a task. -/
def answer? (s : System) (t : TaskId) (fault : Option Fault) : Option System := do
  let task ← s.tasks[t]?
  let r ← task.request?
  match fault with
  | some e => return s.record t (task.answered s.vault t (.error e))
  | none =>
    let (contents, reply) := s.contents.serve r
    return { s.record t (task.answered s.vault t (.ok reply)) with
      contents, served := s.served ++ [r] }

/-- The system after an action, if the action is possible. -/
def step? (s : System) : Action → Option System
  | .create provider => s.accept ((s.vault.create provider).map (·.1))
  | .edit id e => s.accept ((s.vault.edit id e).map (·.1))
  | .setOverride service key value => s.accept (s.vault.setOverride service key value)
  | .clearOverride service key => some { s with vault := (s.vault.clearOverride service key).1 }
  | .subscribe f => some { s with vault := (s.vault.subscribe f).1 }
  | .unsubscribe id => some { s with vault := s.vault.unsubscribe id }
  | .dispatch => some { s with
      vault := { s.vault with board := s.vault.board.dispatch.1 }
      handed := s.handed ++ s.vault.board.queue.take 1 }
  | .spawn t op =>
    if s.tasks[t]?.isNone then some { s with tasks := s.tasks.insert t (.starting op) } else none
  | .cancel token => some { s with cancelled := token :: s.cancelled }
  | .run t => s.runTask? t
  | .answer t fault => s.answer? t fault

/-- The system after an action; one that is not possible changes nothing. -/
def step (s : System) (a : Action) : System := (s.step? a).getD s

def run (s : System) (as : List Action) : System := as.foldl step s

/-- All notices that have been put up, in order. -/
def published (s : System) : List Notice := s.handed ++ s.vault.board.queue

/-- The result of a task, once it has finished. -/
def outcome? (s : System) (t : TaskId) : Option Outcome := s.tasks[t]?.bind Task.outcome?

@[simp] theorem run_nil (s : System) : s.run [] = s := rfl

@[simp] theorem run_cons (s : System) (a : Action) (as : List Action) :
    s.run (a :: as) = (s.step a).run as := rfl

theorem run_append (s : System) (as bs : List Action) : s.run (as ++ bs) = (s.run as).run bs :=
  List.foldl_append

theorem step_of_step? {s s' : System} {a : Action} (h : s.step? a = some s') : s.step a = s' := by
  rw [step, h]
  rfl

theorem step_of_step?_eq_none {s : System} {a : Action} (h : s.step? a = none) : s.step a = s := by
  rw [step, h]
  rfl

theorem step_of_accept {s : System} {a : Action} {r : Except Problem Vault} {v' : Vault}
    (ha : s.step? a = s.accept r) (hr : r = .ok v') : s.step a = { s with vault := v' } := by
  refine step_of_step? ?_
  rw [ha, hr]
  rfl

theorem step_edit {s : System} {id : AccountId} {e : Edit} {v' : Vault} {found : Bool}
    (h : s.vault.edit id e = .ok (v', found)) : s.step (.edit id e) = { s with vault := v' } :=
  step_of_accept rfl (congrArg (Except.map (·.1)) h)

/-- To bind a service and switch it is two actions with nothing between them. -/
theorem run_switchService {s : System} {id : AccountId} {service : String} {on found : Bool} {v' : Vault}
    (h : s.vault.switchService id service on = .ok (v', found)) :
    s.run [.edit id (.bind service), .edit id (.setServiceEnabled service on)] =
      { s with vault := v' } := by
  rw [Vault.switchService] at h
  cases hbind : s.vault.edit id (.bind service) with
  | error e =>
    rw [hbind] at h
    cases h
  | ok r =>
    rw [hbind] at h
    rw [run_cons, step_edit hbind, run_cons, run_nil]
    exact step_edit h

/-- What holds at the start and is kept by every step that is possible holds after every run. -/
theorem run_induction {P : System → Prop} (h : ∀ s s' a, P s → s.step? a = some s' → P s')
    {s : System} (hs : P s) (as : List Action) : P (s.run as) := by
  induction as generalizing s with
  | nil => exact hs
  | cons a as ih =>
    rw [run_cons]
    refine ih ?_
    cases hstep : s.step? a with
    | none =>
      rw [step_of_step?_eq_none hstep]
      exact hs
    | some s' =>
      rw [step_of_step? hstep]
      exact h s s' a hs hstep

end System

end AccountVault
