import AccountVault.Account.Edit
import AccountVault.Notice.Board
import AccountVault.Options
import AccountVault.Scope.Lookup
import AccountVault.Vault.Turns
import Std.Data.ExtTreeSet

/-!
# Vaults

A vault owns accounts, gives out their ids, and keeps what all of them share: the options, the catalog,
the application's overrides and the notice board.  Accounts that have been written are on the roster,
where they can be found by id; one that was only created is known to those who hold its id.  What a
vault asks of its storage is in `Vault.Work` and `Vault.Task`.

Other words are in use for the same things.  A vault is an account store, its catalog the provider
registry, what is forced the application overrides, its roster the map of accounts by id, its mark the next
id as it was last stored, its board the notifier and a notice an account event.  A `Binding` is a service
of an account, with its settings, and to bind is to ask an account for the service.  `Layers` is what the
resolver goes by, `Credentials` the authentication data of a service, and a `Turn` a lock that is held
across waits.
-/

namespace AccountVault

structure Vault where
  options : Options := {}
  catalog : Catalog := {}
  overrides : Overrides := ∅
  /-- Every account loaded or created since the vault was opened, the deleted ones included. -/
  accounts : Std.ExtTreeMap AccountId Account := ∅
  /-- The ids under which accounts are found. -/
  roster : Std.ExtTreeSet AccountId := ∅
  /-- The id of the next account. -/
  nextId : AccountId := 1
  /-- The mark that is known to be stored, 0 for none. -/
  mark : AccountId := 0
  /-- Who waits for whom. -/
  turns : Turns := {}
  board : Board := {}

/-- Which accounts are listed.  A condition that is not given holds of all. -/
structure AccountFilter where
  provider : Option String := none
  enabled : Option Bool := none
  /-- A service that is enabled on the account. -/
  service : Option String := none
  /-- A type of service that the account's provider is offered. -/
  serviceType : Option String := none
  deriving DecidableEq, Repr

/-- Whether an account meets the conditions. -/
def AccountFilter.accepts (f : AccountFilter) (catalog : Catalog) (a : Account) : Bool :=
  a.state ≠ .deleted && f.provider.all (· = a.provider) && f.enabled.all (· = a.enabled) &&
    f.serviceType.all (catalog.supports a.provider ·) && f.service.all (a.isServiceEnabled ·)

namespace Vault

instance : Inhabited Vault := ⟨{}⟩

/-- The account with an id, saved or not. -/
def account? (v : Vault) (id : AccountId) : Option Account := v.accounts[id]?

def putAccount (v : Vault) (id : AccountId) (a : Account) : Vault :=
  { v with accounts := v.accounts.insert id a }

/-- The account with an id, unless it has been deleted. -/
def live (v : Vault) (id : AccountId) : Except Problem Account :=
  match v.account? id with
  | none => .error (.stale id)
  | some a => do
    a.checkLive id
    return a

/-- Whether an account is found under an id. -/
def finds (v : Vault) (id : AccountId) : Bool := v.roster.contains id

/-- Everything that lookups for an account consult. -/
def layers (v : Vault) (a : Account) : Layers := ⟨v.catalog, v.overrides, a⟩

theorem account?_putAccount (v : Vault) (id other : AccountId) (a : Account) :
    (v.putAccount id a).account? other = if id = other then some a else v.account? other := by
  simp [account?, putAccount, Std.ExtTreeMap.getElem?_insert]

/-- An account can be worked on exactly while it is there and not deleted. -/
theorem live_eq_ok_iff {v : Vault} {id : AccountId} {a : Account} :
    v.live id = .ok a ↔ v.account? id = some a ∧ a.state ≠ .deleted := by
  unfold live
  cases h : v.account? id with
  | none => simp
  | some b =>
    by_cases hb : b.state = .deleted
    · have hc : b.checkLive id = .error (.stale id) := by
        simp [Account.checkLive, hb]
      simp only [hc, bind, Except.bind, reduceCtorEq, Option.some.injEq, false_iff]
      rintro ⟨rfl, h⟩
      exact h hb
    · have hc : b.checkLive id = .ok () := Account.checkLive_eq_ok_iff.2 hb
      simp only [hc, bind, Except.bind, pure, Except.pure, Except.ok.injEq, Option.some.injEq]
      exact ⟨fun e => ⟨e, e ▸ hb⟩, fun e => e.1⟩

/-! ### Accounts -/

/-- A new account of a provider, and its id.  The last id is never given out. -/
def create (v : Vault) (provider : String) : Except Problem (Vault × AccountId) := do
  Name.check "provider" provider
  if v.nextId.toNat + 1 < UInt64.size then
    return ({ v.putAccount v.nextId { provider } with nextId := v.nextId + 1 }, v.nextId)
  else throw (.invalid .idsExhausted)

/-- Changes an account, and says whether a key that was to be removed was there. -/
def edit (v : Vault) (id : AccountId) (e : Edit) : Except Problem (Vault × Bool) :=
  match v.account? id with
  | none => .error (.stale id)
  | some a => do
    let (a, found) ← a.edit v.options.keyLimit id e
    return (v.putAccount id a, found)

/-- Binds a service of an account and switches it.  These are two edits, each of which checks for itself
that the account is not deleted; whoever asks for both does not wait between them, so that nothing else
is done to the vault there. -/
def switchService (v : Vault) (id : AccountId) (service : String) (on : Bool) :
    Except Problem (Vault × Bool) := do
  let (v, _) ← v.edit id (.bind service)
  v.edit id (.setServiceEnabled service on)

/-- The ids of the roster whose accounts meet a condition, in order. -/
def rosterWhere (v : Vault) (p : Account → Bool) : List AccountId :=
  v.roster.toList.filter fun id => (v.account? id).any p

/-- The accounts that a filter accepts, in the order of their ids. -/
def list (v : Vault) (f : AccountFilter) : List AccountId := v.rosterWhere (f.accepts v.catalog)

/-- The written accounts that have changes to be saved, in the order of their ids. -/
def dirtyIds (v : Vault) : List AccountId := v.rosterWhere Account.isDirty

theorem mem_rosterWhere_iff {v : Vault} {p : Account → Bool} {id : AccountId} :
    id ∈ v.rosterWhere p ↔ v.finds id = true ∧ ∃ a, v.account? id = some a ∧ p a = true := by
  unfold rosterWhere
  rw [List.mem_filter, Std.ExtTreeSet.mem_toList, Option.any_eq_true, ← Std.ExtTreeSet.contains_iff_mem]
  rfl

/-! ### Overrides and subscriptions -/

/-- Forces a setting for a service. -/
def setOverride (v : Vault) (service key : String) (value : Value) : Except Problem Vault := do
  Name.check "service" service
  Key.check key v.options.keyLimit
  return { v with overrides := v.overrides.set service key value }

/-- Lifts an override, and says whether there was one. -/
def clearOverride (v : Vault) (service key : String) : Vault × Bool :=
  let (overrides, found) := v.overrides.clear service key
  ({ v with overrides }, found)

def subscribe (v : Vault) (f : NoticeFilter) : Vault × SubscriptionId :=
  let (board, id) := v.board.subscribe f
  ({ v with board }, id)

def unsubscribe (v : Vault) (id : SubscriptionId) : Vault :=
  { v with board := v.board.unsubscribe id }

/-- Puts up a notice. -/
def publish (v : Vault) (n : Notice) : Vault := { v with board := v.board.publish n }

end Vault

end AccountVault
