import AccountVault.Setting.Cell
import Std.Data.ExtTreeMap

/-!
# Tables

A table holds the cells of one scope by key, in the order of the keys' code points.  Setting a key to
an unset cell removes it, so a table built from the empty one never holds an unset cell
(`Table.AllSet`).
-/

namespace AccountVault

/-- Cells by key. -/
structure Table where
  cells : Std.ExtTreeMap String Cell := ∅
  deriving DecidableEq

namespace Table

instance : EmptyCollection Table := ⟨⟨∅⟩⟩

instance : Inhabited Table := ⟨∅⟩

def get? (t : Table) (key : String) : Option Cell := t.cells[key]?

def contains (t : Table) (key : String) : Bool := t.cells.contains key

def size (t : Table) : Nat := t.cells.size

/-- Removes a key. -/
def erase (t : Table) (key : String) : Table := ⟨t.cells.erase key⟩

/-- Puts a cell in place of what the key held; an unset cell removes the key. -/
def set (t : Table) (key : String) (c : Cell) : Table :=
  if c.isSet then ⟨t.cells.insert key c⟩ else t.erase key

/-- The table of some cells set one after the other. -/
def ofList (l : List (String × Cell)) : Table := l.foldl (fun t p => t.set p.1 p.2) ∅

def toList (t : Table) : List (String × Cell) := t.cells.toList

def keys (t : Table) : List String := t.cells.keys

/-- Whether a key begins with a prefix, where one is given. -/
def hasPrefix (lead : Option String) (key : String) : Bool :=
  match lead with
  | none => true
  | some p => p.toList.isPrefixOf key.toList

/-- The keys that begin with a prefix. -/
def keysWith (t : Table) (lead : Option String) : List String := t.keys.filter (hasPrefix lead)

/-- Every cell that the table holds is set. -/
def AllSet (t : Table) : Prop := ∀ key c, t.get? key = some c → c.isSet = true

@[ext] theorem ext {t u : Table} (h : ∀ key, t.get? key = u.get? key) : t = u := by
  cases t
  cases u
  exact congrArg mk (Std.ExtTreeMap.ext_getElem? h)

@[simp] theorem get?_empty (key : String) : (∅ : Table).get? key = none :=
  Std.ExtTreeMap.getElem?_empty

theorem get?_erase (t : Table) (k key : String) :
    (t.erase k).get? key = if k = key then none else t.get? key := by
  simp [get?, erase, Std.ExtTreeMap.getElem?_erase]

theorem get?_set (t : Table) (k key : String) (c : Cell) :
    (t.set k c).get? key =
      if k = key then (if c.isSet then some c else none) else t.get? key := by
  unfold set
  split
  · simp_all [get?, Std.ExtTreeMap.getElem?_insert]
  · simp_all [get?_erase]

theorem contains_eq_isSome (t : Table) (key : String) : t.contains key = (t.get? key).isSome :=
  Std.ExtTreeMap.contains_eq_isSome_getElem?

theorem mem_toList_iff {t : Table} {key : String} {c : Cell} :
    (key, c) ∈ t.toList ↔ t.get? key = some c :=
  Std.ExtTreeMap.mem_toList_iff_getElem?_eq_some

theorem mem_keys_iff {t : Table} {key : String} : key ∈ t.keys ↔ (t.get? key).isSome := by
  rw [keys, Std.ExtTreeMap.mem_keys, get?, ← Std.ExtTreeMap.contains_iff_mem,
    Std.ExtTreeMap.contains_eq_isSome_getElem?]

theorem allSet_empty : AllSet ∅ := by
  simp [AllSet]

theorem AllSet.erase {t : Table} (h : t.AllSet) (k : String) : (t.erase k).AllSet := by
  intro key c hc
  rw [get?_erase] at hc
  split at hc
  · exact absurd hc (by simp)
  · exact h key c hc

theorem AllSet.set {t : Table} (h : t.AllSet) (k : String) (c : Cell) : (t.set k c).AllSet := by
  intro key d hd
  rw [get?_set] at hd
  split at hd
  · split at hd
    · cases hd
      assumption
    · exact absurd hd (by simp)
  · exact h key d hd

theorem allSet_ofList (l : List (String × Cell)) : (ofList l).AllSet := by
  suffices h : ∀ t : Table, t.AllSet → (l.foldl (fun t p => t.set p.1 p.2) t).AllSet from
    h ∅ allSet_empty
  induction l with
  | nil => exact fun _ h => h
  | cons p l ih => exact fun t h => ih _ (h.set p.1 p.2)

end Table

end AccountVault
