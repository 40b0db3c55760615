import AccountVault.Account.Basic

/-!
# Edits

The changes that callers ask for.  `Account.edit` checks an edit's own parts first, in the order in
which faults are reported, then that the account is not deleted, and only then changes it.
-/

namespace AccountVault

/-- A change that is asked of an account. -/
inductive Edit
  | rename (name : String)
  | setEnabled (on : Bool)
  | write (scope : Scope) (key : String) (value : Value) (source : Source)
  | remove (scope : Scope) (key : String)
  | bind (service : String)
  | setServiceEnabled (service : String) (on : Bool)
  deriving DecidableEq, Repr

namespace Account

/-- The account after an edit, and whether a key that was to be removed was there.  Keys may have up
to `limit` bytes. -/
def edit (a : Account) (limit : Nat) (id : AccountId) : Edit → Except Problem (Account × Bool)
  | .rename name => do
    a.checkLive id
    return (a.rename name, false)
  | .setEnabled on => do
    a.checkLive id
    return (a.setEnabled on, false)
  | .write scope key value source => do
    Key.check key limit
    let cell ← Cell.define value source
    a.checkLive id
    return (a.put scope key cell, false)
  | .remove scope key => do
    Key.check key limit
    a.checkLive id
    return a.remove scope key
  | .bind service => do
    Name.check "service" service
    a.checkLive id
    return (a.bind service, false)
  | .setServiceEnabled service on => do
    a.checkLive id
    return (a.setServiceEnabled service on, false)

end Account

end AccountVault
