import AccountVault.Vault.Work

/-!
# Tasks

A task carries out one operation that may have to wait: for its turn, for the storage, or for notices
to be handed out.  `Task.step` does what a task can do without an answer from the storage, one step at
a time, and is `none` where the task has to wait; `Task.answered` goes on after an answer.  Both say
which tasks have come to hold a turn.

Other tasks come in between two steps and never within one.  A step ends at the latest where the task has
to wait; it may end before, as between `Task.start` and `Task.advance`, which allows more schedules and
not fewer.
-/

namespace AccountVault

abbrev TokenId := Nat

/-- An operation that may have to wait. -/
inductive Operation
  /-- Writes an account. -/
  | commit (id : AccountId)
  /-- Deletes an account. -/
  | delete (id : AccountId)
  /-- Deletes the account that is found under an id; that there is none, or that it was deleted in the
  meantime, is fine. -/
  | deleteFound (id : AccountId)
  /-- Writes all written accounts that have changes.  A token can call it off between two accounts. -/
  | flush (token : Option TokenId)
  /-- Flushes if the options say so, and closes the notice board once it is empty. -/
  | close
  deriving DecidableEq, Repr

/-- A walk over accounts that are to be written. -/
structure Sweep where
  token : Option TokenId
  /-- Whether the vault is being closed. -/
  closing : Bool
  rest : List AccountId
  /-- How many accounts are done with, at most as many as there were to write. -/
  flushed : Nat := 0
  /-- The first failure. -/
  failure : Option Problem := none

/-- What becomes of the result of the work on an account. -/
inductive Goal
  /-- It is the result of the task. -/
  | report
  /-- So it is, but a deleted account is fine. -/
  | forgive
  /-- A sweep goes on. -/
  | sweep (s : Sweep)

/-- The result of a task: how many accounts a flush went over, 0 for other operations. -/
abbrev Outcome := Except Problem Nat

inductive Task
  | starting (operation : Operation)
  | working (goal : Goal) (id : AccountId) (work : Work) (point : Point)
  | sweeping (s : Sweep)
  /-- Waits for the notice board to be empty. -/
  | draining (outcome : Outcome)
  | finished (outcome : Outcome)

namespace Sweep

/-- Takes in the result of the work on an account. -/
def note (s : Sweep) : Except Problem Unit → Sweep
  | .ok () => { s with flushed := s.flushed + 1 }
  | .error (.stale _) => s
  | .error e => { s with failure := some (s.failure.getD e) }

/-- The result of a sweep over all accounts. -/
def outcome (s : Sweep) : Outcome :=
  match s.failure with
  | some e => .error e
  | none => .ok s.flushed

end Sweep

/-- A task after a step, with the vault and the tasks that have come to hold a turn. -/
structure Progress where
  vault : Vault
  task : Task
  woken : List TaskId := []

namespace Task

/-- The request that a task waits for an answer to. -/
def request? : Task → Option Request
  | working _ id _ p => p.request? id
  | _ => none

def outcome? : Task → Option Outcome
  | finished o => some o
  | _ => none

/-- Whether a token that can call off a sweep has been used. -/
def isCalledOff (cancelled : TokenId → Bool) (s : Sweep) : Bool := s.token.any cancelled

/-- Queues up for an account's turn. -/
def enqueue (v : Vault) (self : TaskId) (goal : Goal) (id : AccountId) (work : Work) : Progress :=
  ⟨{ v with turns := v.turns.join (.account id) self }, working goal id work .entering, []⟩

/-- Gives up a turn; the next task in the queue holds it then. -/
def release (v : Vault) (turn : Turn) : Vault × List TaskId :=
  let turns := v.turns.leave turn
  ({ v with turns }, (turns.holder? turn).toList)

/-- The task after the work on an account. -/
def conclude (goal : Goal) (r : Except Problem Unit) : Task :=
  match goal, r with
  | .report, r => finished (r.map fun () => 0)
  | .forgive, .error (.stale _) => finished (.ok 0)
  | .forgive, r => finished (r.map fun () => 0)
  | .sweep s, r => sweeping (s.note r)

/-- The task after a stage of its work; a task that is done with an account gives up the turn. -/
def proceed (v : Vault) (self : TaskId) (goal : Goal) (id : AccountId) (work : Work) :
    Stage → Progress
  | .paused (.awaitingMark d) =>
    ⟨{ v with turns := v.turns.join .mark self }, working goal id work (.awaitingMark d), []⟩
  | .paused p => ⟨v, working goal id work p, []⟩
  | .done r =>
    let (v, woken) := release v (.account id)
    ⟨v, conclude goal r, woken⟩

/-- Closes the notice board and waits for it to be empty. -/
def shut (v : Vault) (o : Outcome) : Progress :=
  ⟨{ v with board := v.board.close }, draining (o.map fun _ => 0), []⟩

/-- The first step of an operation. -/
def start (v : Vault) (self : TaskId) : Operation → Progress
  | .commit id => enqueue v self .report id .commit
  | .delete id => enqueue v self .report id .delete
  | .deleteFound id =>
    if v.finds id then enqueue v self .forgive id .delete else ⟨v, finished (.ok 0), []⟩
  | .flush token => ⟨v, sweeping { token, closing := false, rest := v.dirtyIds }, []⟩
  | .close =>
    if v.options.flushOnClose then
      ⟨v, sweeping { token := none, closing := true, rest := v.dirtyIds }, []⟩
    else shut v (.ok 0)

/-- The next step of a sweep. -/
def advance (cancelled : TokenId → Bool) (v : Vault) (self : TaskId) (s : Sweep) : Progress :=
  match s.rest with
  | [] => if s.closing then shut v s.outcome else ⟨v, finished s.outcome, []⟩
  | id :: rest =>
    if isCalledOff cancelled s then ⟨v, finished (.error .cancelled), []⟩
    else enqueue v self (.sweep { s with rest }) id .commit

/-- What a task does next, if it does not have to wait. -/
def step (cancelled : TokenId → Bool) (v : Vault) (self : TaskId) : Task → Option Progress
  | starting op => some (start v self op)
  | sweeping s => some (advance cancelled v self s)
  | working goal id work .entering =>
    if v.turns.holder? (.account id) = some self then
      let (v, stage) := v.enter id work
      some (proceed v self goal id work stage)
    else none
  | working goal id work (.awaitingMark d) =>
    if v.turns.holder? .mark = some self then
      match v.atMark d with
      | .raisingMark d next => some ⟨v, working goal id work (.raisingMark d next), []⟩
      | p =>
        let (v, woken) := release v .mark
        some ⟨v, working goal id work p, woken⟩
    else none
  | working _ _ _ _ => none
  | draining o => if v.board.queue = [] then some ⟨v, finished o, []⟩ else none
  | finished _ => none

/-- What a task does after the answer to its request. -/
def answered (v : Vault) (self : TaskId) (r : Except Fault Reply) : Task → Progress
  | working goal id work p =>
    let (v, first) := match p with
      | .raisingMark _ _ => release v .mark
      | _ => (v, [])
    let (v, stage) := v.answered id p r
    let progress := proceed v self goal id work stage
    { progress with woken := first ++ progress.woken }
  | t => ⟨v, t, []⟩

end Task

end AccountVault
