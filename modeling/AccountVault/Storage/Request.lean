import AccountVault.Duration.Basic
import AccountVault.Text.Bytes

/-!
# Requests to a storage

A storage keeps one record of bytes for each account id, and a mark: an id that lies above every id
given out so far.  A `Request` is one call on a storage, a `Reply` what a call that went well answers,
a `Fault` why one did not.
-/

namespace AccountVault

abbrev AccountId := UInt64

/-- The id after one that is not the last. -/
theorem AccountId.toNat_add_one {id : AccountId} (h : id.toNat + 1 < UInt64.size) :
    (id + 1).toNat = id.toNat + 1 := by
  rw [UInt64.toNat_add]
  exact Nat.mod_eq_of_lt h

theorem AccountId.lt_add_one {id : AccountId} (h : id.toNat + 1 < UInt64.size) : id < id + 1 := by
  rw [UInt64.lt_iff_toNat_lt, toNat_add_one h]
  omega

theorem AccountId.toNat_max (i j : AccountId) : (max i j).toNat = max i.toNat j.toNat := by
  show (if i ≤ j then j else i).toNat = _
  split
  · exact (Nat.max_eq_right (UInt64.le_iff_toNat_le.1 ‹_›)).symm
  · exact (Nat.max_eq_left (Nat.le_of_lt (UInt64.lt_iff_toNat_lt.1 (UInt64.not_le.1 ‹_›)))).symm

theorem AccountId.pairwise_mergeSort (ids : List AccountId) :
    (ids.mergeSort (· ≤ ·)).Pairwise (· ≤ ·) := by
  have htrans : ∀ i j k : AccountId, decide (i ≤ j) = true → decide (j ≤ k) = true →
      decide (i ≤ k) = true := by
    simp only [decide_eq_true_eq]
    exact fun i j k => UInt64.le_trans
  have htotal : ∀ i j : AccountId, (decide (i ≤ j) || decide (j ≤ i)) = true := by
    simp only [Bool.or_eq_true, decide_eq_true_eq]
    exact UInt64.le_total
  exact (List.pairwise_mergeSort htrans htotal ids).imp of_decide_eq_true

/-- What can be asked of a storage. -/
inductive Call
  | list
  | load
  | save
  | remove
  | loadMark
  | saveMark
  deriving DecidableEq, Repr

namespace Call

/-- The name of a call in logs and refusals. -/
def name : Call → String
  | list => "list_ids"
  | load => "load"
  | save => "save"
  | remove => "remove"
  | loadMark => "load_next_id"
  | saveMark => "save_next_id"

/-- What the call does, as a time limit that ran out reports it. -/
def purpose : Call → String
  | list => "list"
  | c => c.name

/-- Every call. -/
def all : List Call := [list, load, save, remove, loadMark, saveMark]

/-- The call with a given name. -/
def ofName? (s : String) : Option Call := all.find? fun c => c.name = s

end Call

/-- One call on a storage. -/
inductive Request
  | list
  | load (id : AccountId)
  | save (id : AccountId) (record : Bytes)
  | remove (id : AccountId)
  | loadMark
  | saveMark (next : AccountId)
  deriving DecidableEq, Repr

namespace Request

def call : Request → Call
  | list => .list
  | load _ => .load
  | save _ _ => .save
  | remove _ => .remove
  | loadMark => .loadMark
  | saveMark _ => .saveMark

/-- Whether a request can change what is stored. -/
def isWrite : Request → Bool
  | save _ _ => true
  | remove _ => true
  | saveMark _ => true
  | _ => false

/-- The line that a log of requests shows. -/
def logLine : Request → String
  | load id => "load " ++ toString id
  | save id _ => "save " ++ toString id
  | remove id => "remove " ++ toString id
  | saveMark next => "save_next_id " ++ toString next
  | r => r.call.name

end Request

/-- The answer to a request. -/
inductive Reply
  | done
  | ids (ids : List AccountId)
  | record (record : Option Bytes)
  | mark (next : Option AccountId)
  deriving DecidableEq, Repr

namespace Reply

/-- The listed ids, none for another kind of answer. -/
def ids? : Reply → List AccountId
  | ids l => l
  | _ => []

/-- The loaded record, if the answer holds one. -/
def record? : Reply → Option Bytes
  | record r => r
  | _ => none

/-- The loaded mark, if the answer holds one. -/
def mark? : Reply → Option AccountId
  | mark n => n
  | _ => none

end Reply

/-- What a directory of files could not do, with the path it tried. -/
inductive FileFault
  | createDirectory (path : String)
  | write (path : String)
  | replace (path : String)
  | read (path : String)
  | remove (path : String)
  | list (path : String)
  | mark (path : String)
  deriving DecidableEq, Repr

namespace FileFault

def message : FileFault → String
  | createDirectory p => "failed to create " ++ p
  | write p => "failed to write " ++ p
  | replace p => "failed to replace " ++ p
  | read p => "failed to read " ++ p
  | remove p => "failed to remove " ++ p
  | list p => "failed to list " ++ p
  | mark p => "corrupt id sequence in " ++ p

end FileFault

/-- Why a request was not answered. -/
inductive Fault
  | refused (call : Call)
  | timedOut (call : Call) (limit : Duration)
  | file (fault : FileFault)
  deriving DecidableEq, Repr

namespace Fault

def message : Fault → String
  | refused c => c.name ++ " refused"
  | timedOut c limit => c.purpose ++ " timed out after " ++ limit.text
  | file f => f.message

end Fault

end AccountVault
