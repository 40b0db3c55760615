import AccountVault.Account.ChangeLog
import AccountVault.Setting.Table
import AccountVault.Setting.Key

/-!
# Accounts

An account belongs to a provider, has settings of its own and binds services by name, each with
settings of its own.  `Account.put`, `Account.remove` and the other changes keep the change log in
step with what they do; a change that leaves everything as it was is not logged.
-/

namespace AccountVault

/-- Where an account is in its life. -/
inductive Lifecycle
  /-- Created, and not written yet. -/
  | unsaved
  /-- Written at least once. -/
  | saved
  | deleted
  deriving DecidableEq, Repr

namespace Lifecycle

def name : Lifecycle → String
  | unsaved => "unsaved"
  | saved => "saved"
  | deleted => "deleted"

end Lifecycle

/-- A service of an account. -/
structure Binding where
  name : String
  providerType : String
  enabled : Bool := false
  settings : Table := ∅
  deriving DecidableEq

structure Account where
  provider : String
  state : Lifecycle := .unsaved
  displayName : Option String := none
  enabled : Bool := false
  settings : Table := ∅
  bindings : Std.ExtTreeMap String Binding := ∅
  changes : ChangeLog := {}
  deriving DecidableEq

/-- The part of an account that a setting belongs to. -/
inductive Scope
  | account
  | service (name : String)
  deriving DecidableEq, Repr

namespace Account

/-- The binding of a service, or a disabled one without settings. -/
def bindingOrNew (a : Account) (service : String) : Binding :=
  a.bindings[service]?.getD { name := service, providerType := a.provider }

def putBinding (a : Account) (service : String) (b : Binding) : Account :=
  { a with bindings := a.bindings.insert service b }

/-- Binds a service.  This alone is no change to be saved. -/
def bind (a : Account) (service : String) : Account :=
  a.putBinding service (a.bindingOrNew service)

/-- The settings of a scope; a service that is not bound has none. -/
def settingsOf (a : Account) : Scope → Table
  | .account => a.settings
  | .service name => (a.bindings[name]?.map (·.settings)).getD ∅

/-- The raw cell that a scope holds for a key. -/
def stored? (a : Account) (scope : Scope) (key : String) : Option Cell :=
  (a.settingsOf scope).get? key

/-- Writes a cell at a scope. -/
def put (a : Account) (scope : Scope) (key : String) (c : Cell) : Account :=
  match scope with
  | .account => { a with settings := a.settings.set key c, changes := a.changes.touchKey key }
  | .service name =>
    let b := a.bindingOrNew name
    let a := a.putBinding name { b with settings := b.settings.set key c }
    { a with changes := a.changes.touchServiceKey name key }

/-- Removes a key at a scope, and says whether it was there.  A service that is asked about becomes
bound. -/
def remove (a : Account) (scope : Scope) (key : String) : Account × Bool :=
  match scope with
  | .account =>
    if a.settings.contains key then
      ({ a with settings := a.settings.erase key, changes := a.changes.touchKey key }, true)
    else (a, false)
  | .service name =>
    let b := a.bindingOrNew name
    if b.settings.contains key then
      let a := a.putBinding name { b with settings := b.settings.erase key }
      ({ a with changes := a.changes.touchServiceKey name key }, true)
    else (a.bind name, false)

def rename (a : Account) (name : String) : Account :=
  if a.displayName = some name then a
  else { a with displayName := some name, changes := a.changes.touch }

def setEnabled (a : Account) (on : Bool) : Account :=
  if a.enabled = on then a else { a with enabled := on, changes := a.changes.touch }

/-- Switches a service, which becomes bound. -/
def setServiceEnabled (a : Account) (service : String) (on : Bool) : Account :=
  let b := a.bindingOrNew service
  if b.enabled = on then a.bind service
  else
    let a := a.putBinding service { b with enabled := on }
    { a with changes := a.changes.touchService service }

/-- Records that the state at `revision` was written. -/
def markSaved (a : Account) (revision : Nat) : Account :=
  { a with state := .saved, changes := a.changes.settle revision }

def isDirty (a : Account) : Bool := a.changes.isDirty

/-- Refuses a deleted account, which its handles know by `id`. -/
def checkLive (a : Account) (id : AccountId) : Except Problem Unit :=
  if a.state = .deleted then .error (.stale id) else .ok ()

/-- The services in order. -/
def services (a : Account) : List String := a.bindings.keys

/-- The names of the enabled services, in order. -/
def enabledServices (a : Account) : List String :=
  ((a.bindings.toList.map (·.2)).filter (·.enabled)).map (·.name)

def isServiceEnabled (a : Account) (service : String) : Bool :=
  (a.bindings[service]?).any (·.enabled)

theorem settingsOf_putBinding (a : Account) (service : String) (b : Binding) (scope : Scope) :
    (a.putBinding service b).settingsOf scope =
      if scope = .service service then b.settings else a.settingsOf scope := by
  cases scope with
  | account => simp [settingsOf, putBinding]
  | service name =>
    by_cases h : service = name
    · simp [settingsOf, putBinding, h]
    · simp [settingsOf, putBinding, Std.ExtTreeMap.getElem?_insert, h, Ne.symm h]

theorem settings_bindingOrNew (a : Account) (service : String) :
    (a.bindingOrNew service).settings = a.settingsOf (.service service) := by
  cases h : a.bindings[service]? <;> simp [bindingOrNew, settingsOf, h]

/-- Binding a service changes no settings. -/
theorem settingsOf_bind (a : Account) (service : String) (scope : Scope) :
    (a.bind service).settingsOf scope = a.settingsOf scope := by
  rw [bind, settingsOf_putBinding, settings_bindingOrNew]
  split <;> simp_all

/-- A write changes the settings of its own scope only. -/
theorem settingsOf_put (a : Account) (scope other : Scope) (key : String) (c : Cell) :
    (a.put scope key c).settingsOf other =
      if other = scope then (a.settingsOf scope).set key c else a.settingsOf other := by
  cases scope with
  | account => cases other <;> simp [put, settingsOf]
  | service name =>
    have h : (a.put (.service name) key c).settingsOf other =
        (a.putBinding name { a.bindingOrNew name with
          settings := (a.bindingOrNew name).settings.set key c }).settingsOf other := by
      cases other <;> rfl
    rw [h, settingsOf_putBinding, settings_bindingOrNew]

theorem checkLive_eq_ok_iff {a : Account} {id : AccountId} :
    a.checkLive id = .ok () ↔ a.state ≠ .deleted := by
  unfold checkLive
  split <;> simp_all

end Account

end AccountVault
