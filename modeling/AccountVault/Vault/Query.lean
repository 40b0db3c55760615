import AccountVault.Scope.Credentials
import AccountVault.Vault.Basic

/-!
# Queries

What can be asked about an account.  `Vault.ask` checks the question's own parts first, then that the
account has not been deleted, and only then looks.
-/

namespace AccountVault

/-- A question about an account. -/
inductive Query
  | isDirty
  | displayName
  | isEnabled (scope : Scope)
  /-- What a scope sees under a key at a type, or a default. -/
  | resolve (scope : Scope) (key : String) (type : ValueType) (fallback : type.Carrier)
  /-- The cell that a scope itself holds. -/
  | stored (scope : Scope) (key : String)
  /-- The keys that a scope itself holds. -/
  | keys (scope : Scope) (lead : Option String)
  /-- Everything that a scope sees. -/
  | effective (scope : Scope) (lead : Option String)
  | services
  | enabledServices
  | servicesOfType (type : String)
  | supports (type : String)
  | providerType (service : String)
  | credentials (service : String)

namespace Query

/-- The type of the answer. -/
@[reducible] def Answer : Query → Type
  | isDirty => Bool
  | displayName => Option String
  | isEnabled _ => Bool
  | resolve _ _ type _ => Resolved type.Carrier
  | stored _ _ => Option Cell
  | keys _ _ => List String
  | effective _ _ => Table
  | services => List String
  | enabledServices => List String
  | servicesOfType _ => List String
  | supports _ => Bool
  | providerType _ => String
  | credentials _ => Option Credentials

/-- Checks what can be wrong with a question itself. -/
def check (limit : Nat) : Query → Except Problem Unit
  | resolve _ key _ _ => Key.check key limit
  | _ => .ok ()

/-- The answer for an account and all that its lookups consult. -/
def answer (l : Layers) : (q : Query) → Except Problem q.Answer
  | isDirty => .ok l.account.isDirty
  | displayName => .ok l.account.displayName
  | isEnabled .account => .ok l.account.enabled
  | isEnabled (.service name) => .ok (l.account.isServiceEnabled name)
  | resolve scope key type fallback => l.resolve scope key type fallback
  | stored scope key => .ok (l.account.stored? scope key)
  | keys scope lead => .ok ((l.account.settingsOf scope).keysWith lead)
  | effective scope lead => .ok (l.effective scope lead)
  | services => .ok l.account.services
  | enabledServices => .ok l.account.enabledServices
  | servicesOfType type => .ok (l.catalog.servicesOfType l.account.provider type)
  | supports type => .ok (l.catalog.supports l.account.provider type)
  | providerType service =>
    .ok ((l.account.bindings[service]?.map (·.providerType)).getD l.account.provider)
  | credentials service => l.credentials service

end Query

/-- The answer to a question about an account. -/
def Vault.ask (v : Vault) (id : AccountId) (q : Query) : Except Problem q.Answer := do
  q.check v.options.keyLimit
  let a ← v.live id
  q.answer (v.layers a)

end AccountVault
