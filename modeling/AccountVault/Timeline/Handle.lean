import AccountVault.Text.Quoted
import AccountVault.Timeline.Run
import AccountVault.Vault.Query

/-!
# Handles

A handle stands for an account of a vault, or for one of its services.  Handles stay with the account
through its whole life: those of a deleted account refuse everything but saying what they stand for.
-/

namespace AccountVault

structure Handle where
  vault : VaultId
  account : AccountId
  scope : Scope := .account
  deriving DecidableEq, Repr

/-- The word for a state in descriptions. -/
def Lifecycle.title : Lifecycle → String
  | unsaved => "Unsaved"
  | saved => "Saved"
  | deleted => "Deleted"

/-- A description of a vault. -/
def Vault.describe (v : Vault) : String :=
  "AccountStore \x7b accounts: " ++ toString v.roster.size ++ " \x7d"

namespace Handle

/-- The layer that a plain write through a handle goes to. -/
def layer (h : Handle) : Layer :=
  match h.scope with
  | .account => .account
  | .service _ => .service

/-- The handle of a service of the same account. -/
def service (h : Handle) (name : String) : Handle := { h with scope := .service name }

/-- A description of an account by its id and state. -/
def describeAccount (id : AccountId) (state : Lifecycle) : String :=
  "Account \x7b id: " ++ toString id ++ ", state: " ++ state.title ++ " \x7d"

def describe (h : Handle) (state : Lifecycle) : String :=
  match h.scope with
  | .account => describeAccount h.account state
  | .service name =>
    "ServiceHandle \x7b account: " ++ describeAccount h.account state ++ ", name: " ++
      Text.quoted name ++ " \x7d"

/-- Committing the account of a handle through a vault, which has to be its own. -/
def commitThrough (h : Handle) (vault : VaultId) : Task :=
  if h.vault = vault then .starting (.commit h.account)
  else .finished (.error (.invalid (.foreignAccount h.account)))

end Handle

namespace Timeline

/-- The account that a handle stands for. -/
def account (t : Timeline) (h : Handle) : Account :=
  ((t.vault h.vault).account? h.account).getD { provider := "" }

/-- The answer to a question about the account of a handle. -/
def query (t : Timeline) (h : Handle) (q : Query) : Except Problem q.Answer :=
  (t.vault h.vault).ask h.account q

/-- Changes the account of a handle, and says whether a key that was to be removed was there. -/
def edit (t : Timeline) (h : Handle) (e : Edit) : Except Problem (Timeline × Bool) := do
  let (v, found) ← (t.vault h.vault).edit h.account e
  return (t.setVault h.vault v, found)

/-- Binds a service of the account of a handle and switches it. -/
def switchService (t : Timeline) (h : Handle) (service : String) (on : Bool) :
    Except Problem (Timeline × Bool) := do
  let (v, found) ← (t.vault h.vault).switchService h.account service on
  return (t.setVault h.vault v, found)

end Timeline

end AccountVault
