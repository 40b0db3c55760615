import AccountVault.Storage.Contents
import AccountVault.Storage.Directory

/-!
# Depots

A depot is a storage at the end of a line that can be slow or out of order.  A request takes the delay
of its call, and then it is refused or served; if the delay is longer than the caller waits, the caller
gives up and the storage is not reached.  Each request is logged when it is made.
-/

namespace AccountVault

/-- Where records are kept. -/
inductive Backing
  | memory (contents : Contents)
  | directory (d : Directory)

namespace Backing

/-- Serves a request on a backing and the files it may be on. -/
def serve (b : Backing) (files : FileTree) (r : Request) :
    Backing × FileTree × Except Fault Reply :=
  match b with
  | memory contents =>
    let (contents, reply) := contents.serve r
    (memory contents, files, .ok reply)
  | directory d =>
    let (files, reply) := d.serve files r
    (directory d, files, reply.mapError .file)

end Backing

/-- How a request ends. -/
inductive Ending
  | served
  | refused
  | timedOut (limit : Duration)
  deriving DecidableEq, Repr

structure Depot where
  backing : Backing := .memory ∅
  /-- The ticks that calls take; a call that is not named takes none. -/
  delays : List (Call × Nat) := []
  /-- The calls that are refused. -/
  refused : List Call := []
  /-- Ids that are listed before those of the storage. -/
  extraIds : List AccountId := []
  /-- The requests made since the log was last read. -/
  log : List Request := []

namespace Depot

instance : Inhabited Depot := ⟨{}⟩

/-- The ticks that a request takes for a caller with a time limit, and how it ends. -/
def plan (d : Depot) (limit : Duration) (r : Request) : Nat × Ending :=
  let delay := (d.delays.lookup r.call).getD 0
  if limit.ticks < delay then (limit.ticks, .timedOut limit)
  else (delay, if r.call ∈ d.refused then .refused else .served)

/-- Puts the depot's extra ids before those that were listed. -/
def withExtraIds (d : Depot) : Reply → Reply
  | .ids l => .ids (d.extraIds ++ l)
  | r => r

/-- Ends a request as it was planned. -/
def finish (d : Depot) (files : FileTree) (r : Request) :
    Ending → Depot × FileTree × Except Fault Reply
  | .served =>
    let (backing, files, reply) := d.backing.serve files r
    ({ d with backing }, files, reply.map d.withExtraIds)
  | .refused => (d, files, .error (.refused r.call))
  | .timedOut limit => (d, files, .error (.timedOut r.call limit))

end Depot

end AccountVault
