import AccountVault.Proofs.Account.Edits
import AccountVault.Proofs.System.Basic

/-!
# Chronicles

What has happened to one account since its vault was opened, as an onlooker writes it down: the edits,
what each task saw when it began to commit the account, and what was saved.  No step depends on a
chronicle.  `System.chronicle` writes it along a run, whether the actions of the run are possible or
not.
-/

namespace AccountVault

/-- An account as it was after some edits. -/
structure Snapshot where
  account : Account
  /-- How many edits had been made. -/
  edits : Nat
  deriving DecidableEq

structure Chronicle where
  /-- The edits that were accepted, each with the account that it was made on. -/
  edits : List (Account × Edit) := []
  /-- What each task saw when it last began to commit the account. -/
  drawn : Std.ExtTreeMap TaskId Snapshot := ∅
  /-- What was written by the saves that went well, in order. -/
  saves : List Snapshot := []
  /-- What is stored: what was loaded or what the last save wrote, nothing once it was removed. -/
  kept : Option Snapshot := none

namespace Chronicle

/-- The chronicle of an account that was loaded, or of one that is not there yet. -/
def opened (loaded : Option Account) : Chronicle := { kept := loaded.map (⟨·, 0⟩) }

def addEdit (c : Chronicle) (a : Account) (e : Edit) : Chronicle :=
  { c with edits := c.edits ++ [(a, e)] }

/-- A task begins to commit the account. -/
def draw (c : Chronicle) (t : TaskId) (a : Account) : Chronicle :=
  { c with drawn := c.drawn.insert t ⟨a, c.edits.length⟩ }

/-- What a task saw has been saved. -/
def save (c : Chronicle) (t : TaskId) : Chronicle :=
  { c with saves := c.saves ++ c.drawn[t]?.toList, kept := c.drawn[t]? }

def remove (c : Chronicle) : Chronicle := { c with kept := none }

/-- Writes down an action that is possible in a system, as far as it concerns an account. -/
def note (id : AccountId) (s : System) (c : Chronicle) : Action → Chronicle
  | .edit i e =>
    match s.vault.account? i with
    | some a => if i = id then c.addEdit a e else c
    | none => c
  | .run t =>
    match s.tasks[t]? with
    | some (.working _ i .commit .entering) =>
      match s.vault.account? i with
      | some a => if i = id then c.draw t a else c
      | none => c
    | _ => c
  | .answer t none =>
    match s.tasks[t]?.bind Task.request? with
    | some (.save i _) => if i = id then c.save t else c
    | some (.remove i) => if i = id then c.remove else c
    | _ => c
  | _ => c

/-- What some edits touched, each when it was made. -/
def touches (l : List (Account × Edit)) : List (Option Touch) := l.map fun p => p.2.touch? p.1

/-- How many edits the last save had seen, 0 if there was none. -/
def reported (c : Chronicle) : Nat := (c.saves.getLast?.map (·.edits)).getD 0

/-- Where the window of a save begins: where that of the save before ended. -/
def windowStart (c : Chronicle) : Nat → Nat
  | 0 => 0
  | n + 1 => (c.saves[n]?.map (·.edits)).getD 0

end Chronicle

/-- The chronicle of an account along a run. -/
def System.chronicle (id : AccountId) : System → Chronicle → List Action → Chronicle
  | _, c, [] => c
  | s, c, a :: as =>
    chronicle id (s.step a) (if (s.step? a).isSome then c.note id s a else c) as

theorem System.chronicle_append (id : AccountId) (s : System) (c : Chronicle)
    (as bs : List Action) : s.chronicle id c (as ++ bs) =
      (s.run as).chronicle id (s.chronicle id c as) bs := by
  induction as generalizing s c with
  | nil => rfl
  | cons a as ih => exact ih _ _

end AccountVault
