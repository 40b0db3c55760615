import AccountVault.Storage.Request
import Std.Data.ExtTreeMap

/-!
# Contents of a storage

What a storage holds: a record for each of some ids, and a mark once one has been written.
`Contents.serve` answers a request as a map would.
-/

namespace AccountVault

structure Contents where
  records : Std.ExtTreeMap AccountId Bytes := ∅
  mark : Option AccountId := none
  deriving DecidableEq

namespace Contents

instance : EmptyCollection Contents := ⟨⟨∅, none⟩⟩

instance : Inhabited Contents := ⟨∅⟩

def record? (c : Contents) (id : AccountId) : Option Bytes := c.records[id]?

/-- The ids with a record, in order. -/
def ids (c : Contents) : List AccountId := c.records.keys

def size (c : Contents) : Nat := c.records.size

def contains (c : Contents) (id : AccountId) : Bool := c.records.contains id

def serve (c : Contents) : Request → Contents × Reply
  | .list => (c, .ids c.ids)
  | .load id => (c, .record (c.record? id))
  | .save id record => ({ c with records := c.records.insert id record }, .done)
  | .remove id => ({ c with records := c.records.erase id }, .done)
  | .loadMark => (c, .mark c.mark)
  | .saveMark next => ({ c with mark := some next }, .done)

theorem mem_ids_iff {c : Contents} {id : AccountId} : id ∈ c.ids ↔ (c.record? id).isSome := by
  rw [ids, Std.ExtTreeMap.mem_keys, record?, ← Std.ExtTreeMap.contains_iff_mem,
    Std.ExtTreeMap.contains_eq_isSome_getElem?]

theorem record?_serve_save (c : Contents) (id i : AccountId) (record : Bytes) :
    (c.serve (.save id record)).1.record? i = if id = i then some record else c.record? i := by
  simp [serve, record?, Std.ExtTreeMap.getElem?_insert]

theorem record?_serve_remove (c : Contents) (id i : AccountId) :
    (c.serve (.remove id)).1.record? i = if id = i then none else c.record? i := by
  simp [serve, record?, Std.ExtTreeMap.getElem?_erase]

theorem record?_serve_saveMark (c : Contents) (next i : AccountId) :
    (c.serve (.saveMark next)).1.record? i = c.record? i := rfl

end Contents

end AccountVault
