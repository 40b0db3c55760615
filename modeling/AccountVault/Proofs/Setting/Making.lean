import AccountVault.Proofs.Record.RoundTrip
import Mathlib.Logic.Function.Basic

/-!
# Making cells and tables

A loose cell is a value and a source side by side, and nothing but the calls that make it keeps the two
together.  On a bench cells and tables are made by such calls, one after the other and each from what lies
there (`Craft.run`), by one and the same list of steps from loose cells or from cells (`Craft.loose`,
`Craft.firm`).  The outcome is the same (`Bench.loosen_run`): a loose cell that comes of it has a value
exactly if it has a source, and a table holds set cells only (`Bench.allSet_run`), so that its record keeps
all of it (`Table.AllSet.solid`).
-/

namespace AccountVault

/-! ### Loose cells -/

/-- A value and a source that need not go together. -/
structure LooseCell where
  value : Option Value := none
  source : Source := none
  deriving DecidableEq, Repr

/-- Loose cells by key. -/
abbrev LooseTable := Std.ExtTreeMap String LooseCell

namespace LooseCell

def isSet (c : LooseCell) : Bool := c.value.isSome

/-- The cell of a value from a given source; a value cannot come from nowhere. -/
def define (v : Value) (s : Source) : Except Problem LooseCell :=
  if s = none then .error (.invalid .sourceless) else .ok ⟨some v, s⟩

/-- The same value under another source.  Without a value, or without a source, nothing is set. -/
def retag (s : Source) (c : LooseCell) : LooseCell :=
  match c.value with
  | some v => if s ≠ none then ⟨some v, s⟩ else {}
  | none => {}

/-- The cell of a kept value; where a value came from nowhere, the record it was kept in is corrupt. -/
def ofStored (s : StoredCell) : Except Problem LooseCell :=
  match define s.value s.source with
  | .ok c => .ok c
  | .error _ => .error (.persistence .corrupt)

end LooseCell

namespace LooseTable

/-- Puts a cell in place of what the key held; an unset cell removes the key. -/
def set (t : LooseTable) (key : String) (c : LooseCell) : LooseTable :=
  if c.isSet then t.insert key c else t.erase key

/-- The table of some cells set one after the other. -/
def ofCells (l : List (String × LooseCell)) : LooseTable := l.foldl (fun t p => set t p.1 p.2) ∅

/-- The table that was kept. -/
def ofRecord (m : Std.ExtTreeMap String StoredCell) : Except Problem LooseTable := do
  let cells ← m.toList.mapM fun p => return (p.1, ← LooseCell.ofStored p.2)
  return ofCells cells

/-- What is kept of a table: every value, with its source. -/
def toRecord (t : LooseTable) : Std.ExtTreeMap String StoredCell :=
  t.filterMap fun _ c => c.value.map fun v => ⟨c.source, v⟩

end LooseTable

/-! ### Benches -/

/-- The calls by which cells and tables are made. -/
structure Craft (C T : Type) where
  unset : C
  define : Value → Source → Except Problem C
  retag : Source → C → C
  empty : T
  get? : T → String → Option C
  set : T → String → C → T
  erase : T → String → T
  ofList : List (String × C) → T
  ofRecord : Std.ExtTreeMap String StoredCell → Except Problem T

/-- Numbered cells and tables. -/
structure Bench (C T : Type) where
  cells : Nat → C
  tables : Nat → T

/-- One thing to do on a bench.  To declare a default, to force a setting or to write one to an account is
to write a cell and set it. -/
inductive Bench.Step
  | unset (i : Nat)
  /-- Writes a cell anew, which stays as it was if that is refused. -/
  | write (i : Nat) (v : Value) (s : Source)
  /-- Puts cell `j` in the place of cell `i`, under another source. -/
  | retag (i j : Nat) (s : Source)
  /-- Looks up a key in table `t`. -/
  | fetch (i t : Nat) (key : String)
  | clear (t : Nat)
  | set (t : Nat) (key : String) (i : Nat)
  | erase (t : Nat) (key : String)
  /-- Makes a table of some of the cells. -/
  | collect (t : Nat) (l : List (String × Nat))
  /-- Reads a table from a record, and leaves it as it was if that is refused. -/
  | read (t : Nat) (m : Std.ExtTreeMap String StoredCell)

namespace Bench

variable {C T : Type}

def putCell (b : Bench C T) (i : Nat) (c : C) : Bench C T :=
  { b with cells := Function.update b.cells i c }

def putTable (b : Bench C T) (i : Nat) (t : T) : Bench C T :=
  { b with tables := Function.update b.tables i t }

end Bench

namespace Craft

variable {C T : Type}

/-- The bench after a step. -/
def step (k : Craft C T) (b : Bench C T) : Bench.Step → Bench C T
  | .unset i => b.putCell i k.unset
  | .write i v s =>
    match k.define v s with
    | .ok c => b.putCell i c
    | .error _ => b
  | .retag i j s => b.putCell i (k.retag s (b.cells j))
  | .fetch i t key => b.putCell i ((k.get? (b.tables t) key).getD k.unset)
  | .clear t => b.putTable t k.empty
  | .set t key i => b.putTable t (k.set (b.tables t) key (b.cells i))
  | .erase t key => b.putTable t (k.erase (b.tables t) key)
  | .collect t l => b.putTable t (k.ofList (l.map fun p => (p.1, b.cells p.2)))
  | .read t m =>
    match k.ofRecord m with
    | .ok u => b.putTable t u
    | .error _ => b

/-- The bench after some steps, with unset cells and empty tables to begin with. -/
def run (k : Craft C T) (steps : List Bench.Step) : Bench C T :=
  steps.foldl k.step ⟨fun _ => k.unset, fun _ => k.empty⟩

theorem run_concat (k : Craft C T) (steps : List Bench.Step) (s : Bench.Step) :
    k.run (steps ++ [s]) = k.step (k.run steps) s := by
  rw [run, run, List.foldl_append]
  rfl

/-- To work with cells. -/
def firm : Craft Cell Table where
  unset := .unset
  define := Cell.define
  retag s c :=
    match s with
    | none => .unset
    | some layer => c.retag layer
  empty := ∅
  get? := Table.get?
  set := Table.set
  erase := Table.erase
  ofList := Table.ofList
  ofRecord := Record.toTable

/-- To work with loose cells. -/
def loose : Craft LooseCell LooseTable where
  unset := {}
  define := LooseCell.define
  retag := LooseCell.retag
  empty := ∅
  get? t key := t[key]?
  set := LooseTable.set
  erase t key := t.erase key
  ofList := LooseTable.ofCells
  ofRecord := LooseTable.ofRecord

end Craft

/-! ### From cells to loose cells -/

namespace Cell

/-- The value and the source of a cell. -/
def loosen (c : Cell) : LooseCell := ⟨c.value?, c.source⟩

@[simp] theorem isSet_loosen (c : Cell) : c.loosen.isSet = c.isSet := rfl

/-- A cell taken apart has a value exactly if it has a source. -/
theorem value_loosen_eq_none_iff (c : Cell) : c.loosen.value = none ↔ c.loosen.source = none := by
  cases c <;> simp [loosen, value?, source]

theorem loosen_define (v : Value) (s : Source) : (define v s).map loosen = LooseCell.define v s := by
  cases s <;> rfl

theorem loosen_retag (s : Source) (c : Cell) :
    (Craft.firm.retag s c).loosen = c.loosen.retag s := by
  cases s <;> cases c <;> rfl

end Cell

theorem StoredCell.loosen_toCell (s : StoredCell) :
    s.toCell.map Cell.loosen = LooseCell.ofStored s := by
  obtain ⟨source, value⟩ := s
  cases source <;> rfl

namespace Table

/-- A table with its cells taken apart. -/
def loosen (t : Table) : LooseTable := t.cells.map fun _ c => c.loosen

theorem getElem?_loosen (t : Table) (key : String) : t.loosen[key]? = (t.get? key).map Cell.loosen :=
  Std.ExtTreeMap.getElem?_map

theorem loosen_empty : (∅ : Table).loosen = ∅ := by
  refine Std.ExtTreeMap.ext_getElem? fun key => ?_
  rw [getElem?_loosen, get?_empty, Std.ExtTreeMap.getElem?_empty]
  rfl

theorem loosen_erase (t : Table) (key : String) : (t.erase key).loosen = t.loosen.erase key := by
  refine Std.ExtTreeMap.ext_getElem? fun other => ?_
  simp only [getElem?_loosen, get?_erase, Std.ExtTreeMap.getElem?_erase,
    Std.LawfulEqCmp.compare_eq_iff_eq]
  split <;> rfl

theorem loosen_set (t : Table) (key : String) (c : Cell) :
    (t.set key c).loosen = LooseTable.set t.loosen key c.loosen := by
  rw [LooseTable.set, Cell.isSet_loosen]
  -- both sides remove the key for an unset cell, and put in any other
  cases hc : c.isSet with
  | false =>
    rw [set, hc]
    exact loosen_erase t key
  | true =>
    refine Std.ExtTreeMap.ext_getElem? fun other => ?_
    simp only [getElem?_loosen, get?_set, hc, if_true, Std.ExtTreeMap.getElem?_insert,
      Std.LawfulEqCmp.compare_eq_iff_eq]
    split <;> rfl

theorem loosen_ofList (l : List (String × Cell)) :
    (ofList l).loosen = LooseTable.ofCells (l.map fun p => (p.1, p.2.loosen)) := by
  have hfold : ∀ t : Table, (l.foldl (fun t p => t.set p.1 p.2) t).loosen =
      (l.map fun p => (p.1, p.2.loosen)).foldl (fun t p => LooseTable.set t p.1 p.2) t.loosen := by
    induction l with
    | nil => exact fun t => rfl
    | cons p l ih =>
      intro t
      rw [List.foldl_cons, ih, loosen_set]
      rfl
  rw [ofList, hfold, loosen_empty]
  rfl

theorem loosen_toTable (m : Std.ExtTreeMap String StoredCell) :
    (Record.toTable m).map loosen = LooseTable.ofRecord m := by
  -- the first cell that is refused ends both readings with the same fault
  have hcells : ∀ l : List (String × StoredCell),
      (l.mapM fun p => (do return (p.1, ← p.2.toCell) : Except Problem (String × Cell))).map
          (List.map fun p => (p.1, p.2.loosen)) =
        l.mapM fun p => (do return (p.1, ← LooseCell.ofStored p.2) :
          Except Problem (String × LooseCell)) := by
    intro l
    induction l with
    | nil => rfl
    | cons p l ih =>
      rw [List.mapM_cons, List.mapM_cons, ← ih, ← StoredCell.loosen_toCell]
      cases p.2.toCell with
      | error e => rfl
      | ok c => cases l.mapM fun p => (do return (p.1, ← p.2.toCell) : Except Problem _) <;> rfl
  rw [Record.toTable, LooseTable.ofRecord, ← hcells]
  cases m.toList.mapM fun p => (do return (p.1, ← p.2.toCell) : Except Problem _) with
  | error e => rfl
  | ok cells => exact congrArg Except.ok (loosen_ofList cells)

theorem toRecord_loosen (t : Table) : LooseTable.toRecord t.loosen = Record.ofTable t := by
  refine Std.ExtTreeMap.ext_getElem? fun key => ?_
  rw [LooseTable.toRecord, Std.ExtTreeMap.getElem?_filterMap', getElem?_loosen, Record.getElem?_ofTable]
  cases t.get? key with
  | none => rfl
  | some c => cases c <;> rfl

end Table

namespace Bench

/-- A bench with its cells and tables taken apart. -/
def loosen (b : Bench Cell Table) : Bench LooseCell LooseTable :=
  ⟨Cell.loosen ∘ b.cells, Table.loosen ∘ b.tables⟩

theorem loosen_putCell (b : Bench Cell Table) (i : Nat) (c : Cell) :
    (b.putCell i c).loosen = b.loosen.putCell i c.loosen := by
  simp only [loosen, putCell, Function.comp_update]

theorem loosen_putTable (b : Bench Cell Table) (i : Nat) (t : Table) :
    (b.putTable i t).loosen = b.loosen.putTable i t.loosen := by
  simp only [loosen, putTable, Function.comp_update]

/-- It is the same to take a step and then everything apart, or first to take everything apart. -/
theorem loosen_step (b : Bench Cell Table) (s : Step) :
    (Craft.firm.step b s).loosen = Craft.loose.step b.loosen s := by
  cases s with
  | unset i => exact loosen_putCell b i .unset
  | write i v s =>
    have hdefine := Cell.loosen_define v s
    simp only [Craft.step, Craft.firm, Craft.loose, ← hdefine]
    cases Cell.define v s with
    | error e => rfl
    | ok c => exact loosen_putCell b i c
  | retag i j s =>
    refine (loosen_putCell b i _).trans ?_
    rw [Cell.loosen_retag]
    rfl
  | fetch i t key =>
    refine (loosen_putCell b i _).trans (congrArg (b.loosen.putCell i) ?_)
    show (((b.tables t).get? key).getD .unset).loosen = ((b.tables t).loosen[key]?).getD {}
    rw [Table.getElem?_loosen]
    cases (b.tables t).get? key <;> rfl
  | clear t =>
    refine (loosen_putTable b t _).trans ?_
    exact congrArg (b.loosen.putTable t) Table.loosen_empty
  | set t key i =>
    refine (loosen_putTable b t _).trans ?_
    exact congrArg (b.loosen.putTable t) (Table.loosen_set ..)
  | erase t key =>
    refine (loosen_putTable b t _).trans ?_
    exact congrArg (b.loosen.putTable t) (Table.loosen_erase ..)
  | collect t l =>
    refine (loosen_putTable b t _).trans (congrArg (b.loosen.putTable t) ?_)
    refine (Table.loosen_ofList _).trans (congrArg LooseTable.ofCells ?_)
    rw [List.map_map]
    rfl
  | read t m =>
    have hread := Table.loosen_toTable m
    simp only [Craft.step, Craft.firm, Craft.loose, ← hread]
    cases Record.toTable m with
    | error e => rfl
    | ok u => exact loosen_putTable b t u

/-- Loose cells and tables come out as those that are made of cells, taken apart. -/
theorem loosen_run (steps : List Step) : (Craft.firm.run steps).loosen = Craft.loose.run steps := by
  induction steps using List.reverseRecOn with
  | nil =>
    show Bench.mk (fun _ => Cell.unset.loosen) (fun _ => (∅ : Table).loosen) = Craft.loose.run []
    rw [Table.loosen_empty]
    rfl
  | append_singleton steps s ih => rw [Craft.run_concat, Craft.run_concat, loosen_step, ih]

/-! ### Tables of set cells -/

theorem allSet_putTable {b : Bench Cell Table} (h : ∀ t, (b.tables t).AllSet) (i : Nat) {u : Table}
    (hu : u.AllSet) : ∀ t, ((b.putTable i u).tables t).AllSet :=
  (Function.forall_update_iff b.tables fun _ t => t.AllSet).2 ⟨hu, fun t _ => h t⟩

/-- No step puts an unset cell into a table. -/
theorem allSet_step {b : Bench Cell Table} (h : ∀ t, (b.tables t).AllSet) (s : Step) (t : Nat) :
    ((Craft.firm.step b s).tables t).AllSet := by
  cases s with
  | unset | retag | fetch => exact h t
  | write i v s =>
    rw [Craft.step]
    split <;> exact h t
  | clear i => exact allSet_putTable h i Table.allSet_empty t
  | set i key j => exact allSet_putTable h i ((h i).set key _) t
  | erase i key => exact allSet_putTable h i ((h i).erase key) t
  | collect i l => exact allSet_putTable h i (Table.allSet_ofList _) t
  | read i m =>
    rw [Craft.step]
    split
    · next u hu =>
      obtain ⟨hsourced, rfl⟩ := Record.toTable_eq_ok_iff.1 hu
      exact allSet_putTable h i (Record.allSet_table hsourced) t
    · exact h t

theorem allSet_run (steps : List Step) (t : Nat) : ((Craft.firm.run steps).tables t).AllSet := by
  induction steps using List.reverseRecOn generalizing t with
  | nil => exact Table.allSet_empty
  | append_singleton steps s ih =>
    rw [Craft.run_concat]
    exact allSet_step ih s t

end Bench

/-! ### What records keep of tables -/

namespace Table

/-- Every cell of a table has a value and a source, and the record of the table has its keys and keeps both
under each of them. -/
structure Solid (t : Table) : Prop where
  isSet : ∀ key c, t.get? key = some c → c.isSet = true
  source : ∀ key c, t.get? key = some c → c.source ≠ none
  keys : (Record.ofTable t).keys = t.keys
  kept : ∀ (key : String) (c : Cell), t.get? key = some c →
    ∃ s, (Record.ofTable t)[key]? = some s ∧ s.source = c.source ∧ some s.value = c.value?

theorem AllSet.solid {t : Table} (h : t.AllSet) : t.Solid where
  isSet := h
  source key c hc := (Cell.isSet_iff_source c).1 (h key c hc)
  keys := by
    calc (Record.ofTable t).keys
        = (Record.table (Record.ofTable t)).keys := Std.ExtTreeMap.keys_map.symm
      _ = t.keys := by rw [Record.table_ofTable h]
  kept key c hc := by
    rw [Record.getElem?_ofTable, hc]
    cases c with
    | unset => exact absurd (h key .unset hc) (by simp)
    | defined v layer => exact ⟨⟨some layer, v⟩, rfl, rfl, rfl⟩

/-- What is found in a table of set cells that is taken apart has both parts. -/
theorem AllSet.of_loosen {t : Table} (h : t.AllSet) {key : String} {c : LooseCell}
    (hc : t.loosen[key]? = some c) : c.value ≠ none ∧ c.source ≠ none := by
  rw [getElem?_loosen, Option.map_eq_some_iff] at hc
  obtain ⟨cell, hcell, rfl⟩ := hc
  have hvalue : cell.loosen.value ≠ none := Option.isSome_iff_ne_none.1 (h key cell hcell)
  exact ⟨hvalue, mt cell.value_loosen_eq_none_iff.2 hvalue⟩

end Table

end AccountVault
