import Std.Data.ExtTreeMap

/-!
# Change log

What of an account has changed since it was last saved.  Every change takes the next revision; the log
remembers, for each key and each service, the revision of its latest change that is not saved yet.
Saving the revision `r` settles the changes up to `r`, and those made since stay pending.

Revisions count the changes since an account was loaded or created, and are not bounded here.  A counter
of 64 bits comes to the same: it would come round only after 2 ^ 64 changes of one account while one vault
is open, which is out of reach.
-/

namespace AccountVault

/-- Pending changes and the revisions they were made at. -/
structure ChangeLog where
  /-- How many changes there have been. -/
  revision : Nat := 0
  /-- The revision that was saved last. -/
  saved : Nat := 0
  keys : Std.ExtTreeMap String Nat := ∅
  services : Std.ExtTreeMap String Nat := ∅
  deriving DecidableEq

namespace ChangeLog

instance : Inhabited ChangeLog := ⟨{}⟩

/-- Whether there has been a change since the last save. -/
def isDirty (l : ChangeLog) : Bool := l.revision ≠ l.saved

/-- A change that concerns no key and no service. -/
def touch (l : ChangeLog) : ChangeLog := { l with revision := l.revision + 1 }

/-- A change of a key. -/
def touchKey (l : ChangeLog) (key : String) : ChangeLog :=
  { l.touch with keys := l.keys.insert key (l.revision + 1) }

/-- A change of a service, such as its being switched on. -/
def touchService (l : ChangeLog) (service : String) : ChangeLog :=
  { l.touch with services := l.services.insert service (l.revision + 1) }

/-- A change of a key of a service. -/
def touchServiceKey (l : ChangeLog) (service key : String) : ChangeLog :=
  { l.touchService service with keys := l.keys.insert key (l.revision + 1) }

/-- Records that the state at `revision` was saved. -/
def settle (l : ChangeLog) (revision : Nat) : ChangeLog :=
  { l with
    saved := revision
    keys := l.keys.filter fun _ r => revision < r
    services := l.services.filter fun _ r => revision < r }

/-- The keys with pending changes, in order. -/
def pendingKeys (l : ChangeLog) : List String := l.keys.keys

/-- The services with pending changes, in order. -/
def pendingServices (l : ChangeLog) : List String := l.services.keys

@[simp] theorem revision_settle (l : ChangeLog) (r : Nat) : (l.settle r).revision = l.revision := rfl

@[simp] theorem saved_settle (l : ChangeLog) (r : Nat) : (l.settle r).saved = r := rfl

end ChangeLog

end AccountVault
