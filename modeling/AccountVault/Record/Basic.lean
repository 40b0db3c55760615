import AccountVault.Account.Basic

/-!
# Records

A record is what is kept of an account.  `Record.ofAccount` takes it from an account, and
`Record.toAccount` rebuilds the account as one that has just been saved; it refuses a record that
holds a value from nowhere.
-/

namespace AccountVault

/-- A kept value; other than in a cell, its source can be none. -/
structure StoredCell where
  source : Source
  value : Value
  deriving DecidableEq, Repr

/-- What is kept of a service. -/
structure BindingRecord where
  providerType : String
  enabled : Bool
  settings : Std.ExtTreeMap String StoredCell := ∅
  deriving DecidableEq

/-- What is kept of an account. -/
structure Record where
  id : AccountId
  provider : String
  displayName : Option String := none
  enabled : Bool
  settings : Std.ExtTreeMap String StoredCell := ∅
  services : Std.ExtTreeMap String BindingRecord := ∅
  deriving DecidableEq

namespace StoredCell

/-- What is kept of a cell, if it is set. -/
def ofCell? : Cell → Option StoredCell
  | .unset => none
  | .defined v l => some ⟨some l, v⟩

def toCell (c : StoredCell) : Except Problem Cell :=
  match Cell.define c.value c.source with
  | .ok cell => .ok cell
  | .error _ => .error (.persistence .corrupt)

end StoredCell

namespace Record

/-- What is kept of a table. -/
def ofTable (t : Table) : Std.ExtTreeMap String StoredCell :=
  t.cells.filterMap fun _ c => StoredCell.ofCell? c

/-- The table that was kept. -/
def toTable (m : Std.ExtTreeMap String StoredCell) : Except Problem Table := do
  let cells ← m.toList.mapM fun p => return (p.1, ← p.2.toCell)
  return Table.ofList cells

def ofBinding (b : Binding) : BindingRecord :=
  { providerType := b.providerType, enabled := b.enabled, settings := ofTable b.settings }

def toBinding (name : String) (r : BindingRecord) : Except Problem Binding := do
  let settings ← toTable r.settings
  return { name, providerType := r.providerType, enabled := r.enabled, settings }

def ofAccount (id : AccountId) (a : Account) : Record :=
  { id
    provider := a.provider
    displayName := a.displayName
    enabled := a.enabled
    settings := ofTable a.settings
    services := a.bindings.map fun _ b => ofBinding b }

/-- The account, saved and without pending changes. -/
def toAccount (r : Record) : Except Problem Account := do
  let settings ← toTable r.settings
  let bindings ← r.services.toList.foldlM (fun m p => do
    let b ← toBinding p.1 p.2
    return m.insert p.1 b) ∅
  return {
    provider := r.provider
    state := .saved
    displayName := r.displayName
    enabled := r.enabled
    settings
    bindings }

end Record

end AccountVault
