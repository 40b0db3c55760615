import AccountVault.Record.Format
import AccountVault.Vault.Basic

/-!
# Opening a vault

`Vault.opening` loads every record that a storage lists, and goes on with the ids above all of them and
not below the stored mark.  How a request is answered is up to the caller: the monad can be one that
waits, or none at all.
-/

namespace AccountVault

namespace Vault

/-- The account that the record listed under an id holds. -/
def decodeAccount (id : AccountId) (bytes : Bytes) : Except Problem Account := do
  let r ← Record.decode bytes
  if r.id ≠ id then throw (.persistence (.misfiled id r.id))
  r.toAccount

/-- The first id above the last of some ids in order. -/
def idAfter (ids : List AccountId) : Except Problem AccountId :=
  match ids.getLast? with
  | none => .ok 1
  | some id =>
    if id.toNat + 1 < UInt64.size then .ok (id + 1)
    else .error (.persistence (.idsExhausted id))

/-- The vault that holds some accounts, all of them written. -/
def ofAccounts (options : Options) (catalog : Catalog) (accounts : Std.ExtTreeMap AccountId Account)
    (free : AccountId) (mark : Option AccountId) : Vault :=
  { options
    catalog
    accounts
    roster := Std.ExtTreeSet.ofList accounts.keys
    nextId := max (mark.getD 0) free
    mark := mark.getD 0 }

section

variable {m : Type → Type} [Monad m] (ask : Request → m (Except Fault Reply))

/-- The answer to a request; a fault ends the opening. -/
def request (r : Request) : ExceptT Problem m Reply := do
  match ← ask r with
  | .ok reply => return reply
  | .error e => throw (.persistence (.fault e))

/-- Adds the accounts under some ids; an id without a record is passed over. -/
def loadAccounts :
    List AccountId → Std.ExtTreeMap AccountId Account →
      ExceptT Problem m (Std.ExtTreeMap AccountId Account)
  | [], accounts => return accounts
  | id :: ids, accounts => do
    match (← request ask (.load id)).record? with
    | none => loadAccounts ids accounts
    | some bytes =>
      let a ← decodeAccount id bytes
      loadAccounts ids (accounts.insert id a)

/-- Opens a vault on a storage, once every declared key has been found to keep to the options' limit. -/
def opening (options : Options) (catalog : Catalog) : ExceptT Problem m Vault := do
  catalog.checkKeys options.keyLimit
  let ids := (← request ask .list).ids?.mergeSort (· ≤ ·)
  let accounts ← loadAccounts ask ids ∅
  let free ← idAfter ids
  let mark := (← request ask .loadMark).mark?
  return ofAccounts options catalog accounts free mark

end

end Vault

end AccountVault
