import AccountVault.Timeline.Depot
import AccountVault.Vault.Task

/-!
# Timelines

A timeline holds vaults, the depots they write to, and the tasks that run on them, at a moment of a
clock that counts milliseconds.  Time passes only while everything that runs is waiting for a depot.
What can run is queued, first come, first served; the task in front, whose end somebody is waiting for,
runs only when nothing else can.
-/

namespace AccountVault

abbrev VaultId := Nat

abbrev DepotId := Nat

/-- A vault and the depot that it writes to. -/
structure Seat where
  vault : Vault
  depot : DepotId

instance : Inhabited Seat := ⟨⟨{}, 0⟩⟩

/-- Something that can run. -/
inductive Job
  | task (id : TaskId)
  /-- Handing out the notices of a vault. -/
  | dispatch (vault : VaultId)
  deriving DecidableEq, Repr

/-- A request that has been made and not answered. -/
structure Pending where
  request : Request
  due : Nat
  ending : Ending

structure Timeline where
  now : Nat := 0
  files : FileTree := ∅
  depots : List Depot := []
  vaults : List Seat := []
  /-- The tasks, each with the vault that it runs on. -/
  tasks : List (VaultId × Task) := []
  pending : Std.ExtTreeMap TaskId Pending := ∅
  ready : List Job := []
  /-- The task in front. -/
  front : Option TaskId := none
  /-- Whether the task in front can run. -/
  frontReady : Bool := false
  /-- What has been handed to subscribers since it was last looked at. -/
  delivered : List (VaultId × Delivery) := []
  /-- The tokens that have been used. -/
  cancelled : List TokenId := []

namespace Timeline

instance : Inhabited Timeline := ⟨{}⟩

/-! ### Vaults, depots and tasks -/

def addDepot (t : Timeline) (d : Depot) : Timeline × DepotId :=
  ({ t with depots := t.depots ++ [d] }, t.depots.length)

def depot (t : Timeline) (id : DepotId) : Depot := t.depots.getD id {}

def setDepot (t : Timeline) (id : DepotId) (d : Depot) : Timeline :=
  { t with depots := t.depots.set id d }

def addVault (t : Timeline) (s : Seat) : Timeline × VaultId :=
  ({ t with vaults := t.vaults ++ [s] }, t.vaults.length)

def seat (t : Timeline) (id : VaultId) : Seat := t.vaults.getD id default

def vault (t : Timeline) (id : VaultId) : Vault := (t.seat id).vault

def setVault (t : Timeline) (id : VaultId) (v : Vault) : Timeline :=
  { t with vaults := t.vaults.set id { t.seat id with vault := v } }

def addTask (t : Timeline) (vault : VaultId) (task : Task) : Timeline × TaskId :=
  ({ t with tasks := t.tasks ++ [(vault, task)] }, t.tasks.length)

def outcome? (t : Timeline) (id : TaskId) : Option Outcome := t.tasks[id]?.bind (·.2.outcome?)

def cancel (t : Timeline) (token : TokenId) : Timeline :=
  { t with cancelled := token :: t.cancelled }

def isCancelled (t : Timeline) (token : TokenId) : Bool := t.cancelled.contains token

/-! ### What can run -/

/-- Queues a job, unless it is queued already. -/
def queue (t : Timeline) (job : Job) : Timeline :=
  if job ∈ t.ready then t else { t with ready := t.ready ++ [job] }

/-- Makes a task run again. -/
def wake (t : Timeline) (id : TaskId) : Timeline :=
  if t.front = some id then { t with frontReady := true } else t.queue (.task id)

/-- Puts a vault in place, and queues its dispatch if that has something to do. -/
def putVault (t : Timeline) (id : VaultId) (v : Vault) : Timeline :=
  let isNews := v.board.queue.length ≠ (t.vault id).board.queue.length ||
    v.board.isOpen ≠ (t.vault id).board.isOpen
  let t := t.setVault id v
  if isNews then t.queue (.dispatch id) else t

/-- Takes in what a task has done. -/
def record (t : Timeline) (id : TaskId) (vault : VaultId) (p : Progress) : Timeline :=
  let t := { t.putVault vault p.vault with tasks := t.tasks.set id (vault, p.task) }
  p.woken.foldl wake t

/-- Makes a request at a depot, for a caller with a time limit: it is logged, and its end is planned. -/
def call (t : Timeline) (depot : DepotId) (limit : Duration) (r : Request) : Timeline × Pending :=
  let d := t.depot depot
  let plan := d.plan limit r
  (t.setDepot depot { d with log := d.log ++ [r] }, ⟨r, t.now + plan.1, plan.2⟩)

/-- Ends a request at a depot. -/
def endCall (t : Timeline) (depot : DepotId) (p : Pending) : Timeline × Except Fault Reply :=
  let (d, files, reply) := (t.depot depot).finish t.files p.request p.ending
  ({ t.setDepot depot d with files }, reply)

end Timeline

end AccountVault
