import AccountVault.Catalog.Definitions
import AccountVault.Timeline.Basic
import AccountVault.Vault.Opening

/-!
# Letting a timeline run

`Timeline.run` runs everything as far as it can go without time passing, `Timeline.passTo` lets time
pass up to a moment, and `Timeline.await` until a task has finished.  Whenever time passes, it goes on
to the end of the next request and what waits for that runs.  The steps are bounded by
`Timeline.budget`, which is more than the tasks can take.
-/

namespace AccountVault

namespace Timeline

/-- More steps than everything that runs can take. -/
def budget (t : Timeline) : Nat :=
  let accounts := t.vaults.foldl (fun n s => n + s.vault.accounts.size) 0
  32 * (t.tasks.length + 1) * (accounts + 2)

/-- Runs a task until it has to wait. -/
def runTask (id : TaskId) : Nat → Timeline → Timeline
  | 0, t => t
  | fuel + 1, t =>
    match t.tasks[id]? with
    | none => t
    | some (vault, task) =>
      match t.pending[id]? with
      | some p =>
        if p.due ≤ t.now then
          let (t, reply) := t.endCall (t.seat vault).depot p
          let t := { t with pending := t.pending.erase id }
          runTask id fuel (t.record id vault (task.answered (t.vault vault) id reply))
        else t
      | none =>
        match task.step t.isCancelled (t.vault vault) id with
        | some p => runTask id fuel (t.record id vault p)
        | none =>
          match task.request? with
          | none => t
          | some r =>
            let (t, p) := t.call (t.seat vault).depot (t.vault vault).options.timeLimit r
            runTask id fuel { t with pending := t.pending.insert id p }

/-- The tasks that wait for the board of a vault to be empty. -/
def draining (t : Timeline) (vault : VaultId) : List TaskId :=
  t.tasks.zipIdx.filterMap fun p =>
    match p with
    | ((v, .draining _), id) => if v = vault then some id else none
    | _ => none

/-- Hands out the notices of a vault; with the last ones of a closed board, those who wait for that go
on. -/
def runDispatch (vault : VaultId) (t : Timeline) : Timeline :=
  let v := t.vault vault
  let (board, deliveries) := v.board.drain
  let t := { t.setVault vault { v with board } with
    delivered := t.delivered ++ deliveries.map fun d => (vault, d) }
  if board.isOpen then t else (t.draining vault).foldl wake t

def runJob (t : Timeline) : Job → Timeline
  | .task id => t.runTask id t.budget
  | .dispatch vault => t.runDispatch vault

/-- Runs what can run, a given number of jobs at most. -/
def runJobs : Nat → Timeline → Timeline
  | 0, t => t
  | fuel + 1, t =>
    match t.ready with
    | job :: rest => runJobs fuel ({ t with ready := rest }.runJob job)
    | [] =>
      match t.front, t.frontReady with
      | some id, true => runJobs fuel ({ t with frontReady := false }.runJob (.task id))
      | _, _ => t

/-- Runs everything as far as it can go without time passing. -/
def run (t : Timeline) : Timeline := t.runJobs t.budget

/-- The task whose request ends next, and when that is. -/
def next? (t : Timeline) : Option (TaskId × Nat) :=
  t.pending.foldl (fun best id p =>
    match best with
    | some (_, due) => if p.due < due then some (id, p.due) else best
    | none => some (id, p.due)) none

/-- Lets time pass up to a moment. -/
def passSteps (moment : Nat) : Nat → Timeline → Timeline
  | 0, t => t
  | fuel + 1, t =>
    let t := t.run
    match t.next? with
    | some (id, due) =>
      if due ≤ moment then passSteps moment fuel ({ t with now := due }.wake id)
      else { t with now := moment }
    | none => { t with now := moment }

def passTo (t : Timeline) (moment : Nat) : Timeline := passSteps moment t.budget t

/-- Lets time pass until a task has finished. -/
def awaitSteps (id : TaskId) : Nat → Timeline → Timeline
  | 0, t => t
  | fuel + 1, t =>
    let t := t.run
    if (t.outcome? id).isSome then t
    else
      match t.next? with
      | some (other, due) => awaitSteps id fuel ({ t with now := due }.wake other)
      | none => t

def await (t : Timeline) (id : TaskId) : Timeline := awaitSteps id t.budget t

/-! ### Operations -/

/-- Sets a task going. -/
def spawn (t : Timeline) (vault : VaultId) (task : Task) : Timeline × TaskId :=
  let (t, id) := t.addTask vault task
  ((t.queue (.task id)).run, id)

/-- Carries out a task in front of everything else, to its end. -/
def perform (t : Timeline) (vault : VaultId) (task : Task) : Timeline × Option Outcome :=
  let (t, id) := t.addTask vault task
  let t := { t with front := some id }.runTask id t.budget
  let t := { t.await id with front := none }
  (t, t.outcome? id)

/-- Makes a request and waits for the answer. -/
def ask (depot : DepotId) (limit : Duration) (r : Request) :
    StateM Timeline (Except Fault Reply) := do
  let t ← get
  let (t, p) := t.call depot limit r
  let t := if p.due = t.now then t else t.passTo p.due
  let (t, reply) := t.endCall depot p
  set t
  return reply

/-- Opens a vault on a depot. -/
def openVault (depot : DepotId) (options : Options) (catalog : Catalog) :
    StateM Timeline (Except Problem VaultId) := do
  match ← (Vault.opening (ask depot options.timeLimit) options catalog).run with
  | .error e => return .error e
  | .ok v =>
    let (t, id) := (← get).addVault ⟨v, depot⟩
    set t
    return .ok id

/-- The catalog that the options ask for. -/
def catalogOf (t : Timeline) (options : Options) : Except Problem Catalog :=
  match options.definitionsFile with
  | none => .ok {}
  | some path =>
    match t.files.read (.ofText path) with
    | .error e => .error (.config (.definitionsFile path e))
    | .ok bytes =>
      match Text.decodeUtf8? bytes with
      | none => .error (.config (.definitionsFile path .notText))
      | some text => Catalog.ofText text

/-- Opens a vault on what its options name: a directory, or memory of its own. -/
def openAlone (options : Options) : StateM Timeline (Except Problem VaultId) := do
  match (← get).catalogOf options with
  | .error e => return .error e
  | .ok catalog =>
    let backing := match options.directory with
      | none => Backing.memory ∅
      | some d => .directory ⟨d⟩
    let (t, depot) := (← get).addDepot { backing }
    set t
    openVault depot options catalog

end Timeline

end AccountVault
