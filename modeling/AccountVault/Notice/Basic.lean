import AccountVault.Storage.Request
import AccountVault.Setting.Table

/-!
# Notices

A notice tells that an account was written for the first time, written again, or deleted, and which
keys and services had changed.  A subscriber's filter can ask for one account, or for keys with a
given beginning; a deletion passes whatever keys are asked for.
-/

namespace AccountVault

inductive NoticeKind
  | created
  | updated
  | deleted
  deriving DecidableEq, Repr

namespace NoticeKind

def name : NoticeKind → String
  | created => "created"
  | updated => "updated"
  | deleted => "deleted"

def all : List NoticeKind := [created, updated, deleted]

/-- The kind with a given word. -/
def ofName? (s : String) : Option NoticeKind := all.find? fun k => k.name = s

end NoticeKind

/-- What happened to an account. -/
structure Notice where
  kind : NoticeKind
  account : AccountId
  /-- The keys written or removed since the last write, in any scope. -/
  keys : List String
  /-- The services whose settings or switch changed. -/
  services : List String
  deriving DecidableEq, Repr

namespace Notice

def created (account : AccountId) (keys services : List String) : Notice :=
  ⟨.created, account, keys, services⟩

def updated (account : AccountId) (keys services : List String) : Notice :=
  ⟨.updated, account, keys, services⟩

/-- A deletion names no keys and no services. -/
def deleted (account : AccountId) : Notice := ⟨.deleted, account, [], []⟩

end Notice

/-- Which notices a subscriber wants. -/
structure NoticeFilter where
  account : Option AccountId := none
  keyLead : Option String := none
  deriving DecidableEq, Repr

/-- Whether a notice passes. -/
def NoticeFilter.accepts (f : NoticeFilter) (n : Notice) : Bool :=
  f.account.all (· = n.account) &&
    match f.keyLead with
    | none => true
    | some p => n.kind = .deleted || n.keys.any (Table.hasPrefix (some p))

end AccountVault
