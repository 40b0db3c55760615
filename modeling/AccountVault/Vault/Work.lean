import AccountVault.Record.Format
import AccountVault.Vault.Basic

/-!
# Writing and deleting accounts

What a task does with an account while it holds the account's turn.  To commit, it takes a draft of
what there is to write; for a new account it first makes sure that the stored mark is above every id
given out, in its turn at the mark; then it writes the record.  To delete, it removes the record of a
written account.  Memory changes only after the storage has answered well.

It is assumed that tasks come in between each other only where they wait, for a turn or for the storage.
So what a task does from one wait to the next is one step here, although it may go about it piece by
piece, each piece under a lock of its own: `Vault.recordSaved` settles the log of the account, puts the
account on the roster and publishes the notice, and `Vault.recordRemoved` takes the account off the
roster, marks it as deleted and publishes the notice, with no wait between the pieces.
-/

namespace AccountVault

/-- What a commit is about to write, as it was when the commit began. -/
structure Draft where
  record : Record
  /-- The revision of the account that the record holds, not bounded, as in the log. -/
  revision : Nat
  /-- Whether the account has never been written. -/
  isNew : Bool
  keys : List String
  services : List String
  deriving DecidableEq

namespace Draft

def ofAccount (id : AccountId) (a : Account) : Draft :=
  { record := .ofAccount id a
    revision := a.changes.revision
    isNew := a.state = .unsaved
    keys := a.changes.pendingKeys
    services := a.changes.pendingServices }

/-- The notice of a draft that has been written. -/
def notice (d : Draft) : Notice :=
  if d.isNew then .created d.record.id d.keys d.services
  else .updated d.record.id d.keys d.services

end Draft

/-- What a task does with an account. -/
inductive Work
  | commit
  | delete
  deriving DecidableEq, Repr

/-- How far the work on an account has got. -/
inductive Point
  /-- In the queue for the account's turn. -/
  | entering
  /-- In the queue for the turn at the mark. -/
  | awaitingMark (draft : Draft)
  /-- The storage is writing the mark. -/
  | raisingMark (draft : Draft) (next : AccountId)
  /-- The storage is writing the record. -/
  | saving (draft : Draft)
  /-- The storage is removing the record. -/
  | removing
  deriving DecidableEq

namespace Point

/-- The request that is under way. -/
def request? (id : AccountId) : Point → Option Request
  | raisingMark _ next => some (.saveMark next)
  | saving d => some (.save id d.record.encode)
  | removing => some (.remove id)
  | _ => none

end Point

/-- Where work on an account is after a step: at a point, or done. -/
inductive Stage
  | paused (point : Point)
  | done (result : Except Problem Unit)

/-- The end of work that a request failed in. -/
def Stage.ofFault (e : Fault) : Stage := .done (.error (.persistence (.fault e)))

namespace Vault

/-- What a commit would write; nothing for a written account without changes. -/
def draft? (v : Vault) (id : AccountId) : Except Problem (Option Draft) := do
  let a ← v.live id
  if a.state = .saved ∧ !a.isDirty then return none
  return some (.ofAccount id a)

/-- Records that a draft has been written. -/
def recordSaved (v : Vault) (id : AccountId) (d : Draft) : Vault :=
  let v := match v.account? id with
    | none => v
    | some a => v.putAccount id (a.markSaved d.revision)
  let v := if d.isNew then { v with roster := v.roster.insert id } else v
  v.publish d.notice

/-- Marks an account as deleted. -/
def markDeleted (v : Vault) (id : AccountId) : Vault :=
  match v.account? id with
  | none => v
  | some a => v.putAccount id { a with state := .deleted }

/-- Records that the record of an account has been removed. -/
def recordRemoved (v : Vault) (id : AccountId) : Vault :=
  ({ v with roster := v.roster.erase id }.markDeleted id).publish (.deleted id)

/-- What the holder of an account's turn finds to do. -/
def enter (v : Vault) (id : AccountId) : Work → Vault × Stage
  | .commit =>
    match v.draft? id with
    | .error e => (v, .done (.error e))
    | .ok none => (v, .done (.ok ()))
    | .ok (some d) => (v, .paused (if d.isNew then .awaitingMark d else .saving d))
  | .delete =>
    match v.live id with
    | .error e => (v, .done (.error e))
    | .ok a => if a.state = .saved then (v, .paused .removing) else (v.markDeleted id, .done (.ok ()))

/-- What the holder of the turn at the mark finds to do: the mark is raised only if an id has been
given out that is not below it. -/
def atMark (v : Vault) (d : Draft) : Point :=
  if v.mark < v.nextId then .raisingMark d v.nextId else .saving d

/-- Goes on after the storage's answer. -/
def answered (v : Vault) (id : AccountId) (p : Point) (r : Except Fault Reply) : Vault × Stage :=
  match p, r with
  | .raisingMark d next, .ok _ => ({ v with mark := next }, .paused (.saving d))
  | .saving d, .ok _ => (v.recordSaved id d, .done (.ok ()))
  | .removing, .ok _ => (v.recordRemoved id, .done (.ok ()))
  | p, .ok _ => (v, .paused p)
  | _, .error e => (v, .ofFault e)

end Vault

end AccountVault
