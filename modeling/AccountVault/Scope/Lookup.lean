import AccountVault.Account.Basic
import AccountVault.Catalog.Basic
import AccountVault.Scope.Overrides

/-!
# Lookups

What a scope of an account sees under a key.  `Layers.candidates` lists the cells that could supply
it, from the strongest layer to the weakest, and the first that is there wins.  A cell that a service
holds with a source below its own layer gives way to the account's.  `Layers.effective` is the table
of everything that a scope sees.
-/

namespace AccountVault

/-- All that a lookup consults. -/
structure Layers where
  catalog : Catalog
  overrides : Overrides
  account : Account

/-- A value and the source it was found in, `none` for a default of the caller's. -/
structure Resolved (α : Type) where
  value : α
  source : Source
  deriving DecidableEq, Repr

namespace Layers

/-- The cell forced by the application. -/
def forced? (l : Layers) (service key : String) : Option Cell := l.overrides.get? service key

/-- The cell that a service holds, whatever its source. -/
def bound? (l : Layers) (service key : String) : Option Cell :=
  l.account.stored? (.service service) key

/-- Whether a cell is from the service layer or a stronger one. -/
def isStrong (c : Cell) : Bool := Source.rank (some .service) ≤ Source.rank c.source

/-- The cells that can supply a key, the strongest first. -/
def candidates (l : Layers) (scope : Scope) (key : String) : List (Option Cell) :=
  let declared :=
    [(l.catalog.providerDefault? l.account.provider key).map (Cell.retag .providerDefault),
      (l.catalog.globalDefault? key).map (Cell.retag .globalDefault)]
  match scope with
  | .account => l.account.settings.get? key :: declared
  | .service name =>
    [l.forced? name key, (l.bound? name key).filter isStrong, l.account.settings.get? key,
      l.bound? name key, (l.catalog.serviceDefault? name key).map (Cell.retag .template)] ++ declared

/-- The cell that a scope sees under a key, unset where no layer defines it. -/
def lookup (l : Layers) (scope : Scope) (key : String) : Cell :=
  ((l.candidates scope key).findSome? id).getD .unset

/-- The value that a scope sees under a key at a type, or the caller's default where no layer defines
it.  A value of another type is a mismatch, whatever the default. -/
def resolve (l : Layers) (scope : Scope) (key : String) (t : ValueType) (fallback : t.Carrier) :
    Except Problem (Resolved t.Carrier) := do
  let cell := l.lookup scope key
  match ← cell.read key (some t) with
  | none => return ⟨fallback, none⟩
  | some v =>
    match v.as? t with
    | some p => return ⟨p, cell.source⟩
    | none => throw (.typeMismatch key (some t) (some v.type))

/-- The keys that some layer of a scope defines; a key may occur more than once. -/
def definedKeys (l : Layers) (scope : Scope) : List String :=
  let declared := l.catalog.globals.keys ++
    ((l.catalog.provider? l.account.provider).map (·.defaults.keys)).getD [] ++
    l.account.settings.keys
  match scope with
  | .account => declared
  | .service name =>
    declared ++ ((l.catalog.template? name).map (·.defaults.keys)).getD [] ++
      (l.account.settingsOf scope).keys ++ (l.overrides.table name).keys

/-- Everything that a scope sees under keys with a given beginning. -/
def effective (l : Layers) (scope : Scope) (lead : Option String) : Table :=
  Table.ofList (((l.definedKeys scope).filter (Table.hasPrefix lead)).map fun key =>
    (key, l.lookup scope key))

end Layers

end AccountVault
