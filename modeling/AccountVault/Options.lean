import AccountVault.Problem
import AccountVault.Duration.Reader
import AccountVault.Setting.Key
import AccountVault.Yaml.Fields

/-!
# Options

What can be set about a vault.  `Options.ofText` reads them from a YAML text in which every option may
be left out; a time limit or key limit of zero is refused.
-/

namespace AccountVault

structure Options where
  /-- How long one request to the storage may take. -/
  timeLimit : Duration := .ofSeconds 5
  /-- Whether closing the vault writes what is not saved yet. -/
  flushOnClose : Bool := true
  /-- The longest key, in bytes of UTF-8. -/
  keyLimit : Nat := Key.defaultLimit
  /-- The directory that keeps the records; they are kept in memory where none is given. -/
  directory : Option String := none
  /-- The file that holds the definitions of the catalog. -/
  definitionsFile : Option String := none
  deriving DecidableEq, Repr

namespace Options

instance : Inhabited Options := ⟨{}⟩

/-- An option that may be left out. -/
def given? {α : Type} (read : Yaml.Tree → Option α) (fallback : α) : Option Yaml.Tree → Option α
  | none => some fallback
  | some t => read t

def ofTree? (t : Yaml.Tree) : Option Options := do
  match ← t.fields? ["persistence_timeout", "flush_on_shutdown", "max_key_length", "storage_dir",
    "providers_file"] with
  | [timeLimit, flush, keyLimit, directory, definitions] =>
    let o : Options := {}
    return {
      timeLimit := ← given? (fun t => t.text?.bind Duration.ofText?) o.timeLimit timeLimit
      flushOnClose := ← given? Yaml.Tree.boolean? o.flushOnClose flush
      keyLimit := ← given? Yaml.Tree.count? o.keyLimit keyLimit
      directory := ← given? Yaml.Tree.optionalText? o.directory directory
      definitionsFile := ← given? Yaml.Tree.optionalText? o.definitionsFile definitions }
  | _ => none

/-- Refuses limits under which nothing would be possible. -/
def check (o : Options) : Except Problem Unit := do
  if o.timeLimit.nanoseconds = 0 then throw (.config .zeroTimeLimit)
  if o.keyLimit = 0 then throw (.config .zeroKeyLength)

/-- The options that a text sets. -/
def ofText (text : String) : Except Problem Options :=
  match (Yaml.Tree.parse? text).bind ofTree? with
  | none => .error (.config .unreadableOptions)
  | some o => do
    o.check
    return o

end Options

end AccountVault
