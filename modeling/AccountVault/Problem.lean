import AccountVault.Setting.Value
import AccountVault.Storage.Request

/-!
# Problems

Why an operation failed.  A `Problem` names the cause and what it is about; the wording is in the
`message` functions alone.
-/

namespace AccountVault

/-- What is wrong with a key, a name or a value. -/
inductive Invalid
  | emptyKey
  | longKey (key : String) (limit : Nat)
  | emptySegment (key : String)
  | keyCharacter (key : String)
  | emptyName (kind : String)
  | nameStart (kind name : String)
  | nameCharacter (kind name : String)
  /-- A value that is to come from nowhere. -/
  | sourceless
  | credentialsRange (n : Int64)
  | authSegment (part value : String)
  | foreignAccount (id : AccountId)
  | idsExhausted
  deriving DecidableEq, Repr

namespace Invalid

def message : Invalid → String
  | emptyKey => "settings key cannot be empty"
  | longKey key limit => "settings key '" ++ key ++ "' exceeds " ++ toString limit ++ " bytes"
  | emptySegment key => "settings key '" ++ key ++ "' contains an empty segment"
  | keyCharacter key => "settings key '" ++ key ++
      "' contains invalid characters. Only alphanumeric, '_', '-' and '.' are allowed"
  | emptyName kind => kind ++ " name cannot be empty"
  | nameStart kind name => kind ++ " name '" ++ name ++ "' must start with alphanumeric character"
  | nameCharacter kind name => kind ++ " name '" ++ name ++ "' contains invalid characters"
  | sourceless => "a defined value cannot have source 'none'"
  | credentialsRange n => "credentials id " ++ toString n ++ " is out of range"
  | authSegment part value => "auth " ++ part ++ " '" ++ value ++ "' must be a single key segment"
  | foreignAccount id => "account " ++ toString id ++ " does not belong to this store"
  | idsExhausted => "account id space exhausted"

end Invalid

/-- Why records could not be written or read back. -/
inductive Unstored
  | fault (fault : Fault)
  /-- The bytes of a record are not the text of one. -/
  | unreadable
  | misfiled (listed claimed : AccountId)
  /-- A record holds a value that came from nowhere. -/
  | corrupt
  | idsExhausted (highest : AccountId)
  deriving DecidableEq, Repr

namespace Unstored

def message : Unstored → String
  | fault f => f.message
  | unreadable => "<json>"
  | misfiled listed claimed =>
    "record stored under id " ++ toString listed ++ " claims id " ++ toString claimed
  | corrupt => "corrupt record: Validation error: " ++ Invalid.message .sourceless
  | idsExhausted highest =>
    "stored account id " ++ toString highest ++ " exhausts the id space"

end Unstored

/-- Why a file of definitions cannot be opened. -/
inductive OpenFault
  | missing
  | notDirectory
  | isDirectory
  | nameTooLong
  | zeroByte
  | notText
  deriving DecidableEq, Repr

namespace OpenFault

def message : OpenFault → String
  | missing => "No such file or directory (os error 2)"
  | notDirectory => "Not a directory (os error 20)"
  | isDirectory => "Is a directory (os error 21)"
  | nameTooLong => "File name too long (os error 36)"
  | zeroByte => "file name contained an unexpected NUL byte"
  | notText => "stream did not contain valid UTF-8"

end OpenFault

/-- What is wrong with the options of a vault or with the definitions it is opened with. -/
inductive Misconfigured
  | unreadableOptions
  | zeroTimeLimit
  | zeroKeyLength
  | unreadableDefinitions
  | unsupportedValue (key : String)
  | declaredKey (cause : Invalid)
  | definitionsFile (path : String) (cause : OpenFault)
  deriving DecidableEq, Repr

namespace Misconfigured

def message : Misconfigured → String
  | unreadableOptions => "invalid store config: <yaml>"
  | zeroTimeLimit => "persistence_timeout must be positive"
  | zeroKeyLength => "max_key_length must be positive"
  | unreadableDefinitions => "Invalid provider definitions: <yaml>"
  | unsupportedValue key => "Unsupported value for '" ++ key ++
      "': expected string, integer, boolean or list of strings"
  | declaredKey cause => "Invalid provider definitions: Validation error: " ++ cause.message
  | definitionsFile path cause => "Cannot read provider file " ++ path ++ ": " ++ cause.message

end Misconfigured

/-- Why an operation failed.  A missing account or setting is never a problem. -/
inductive Problem
  /-- A value is there, but cannot be read as what was asked for. -/
  | typeMismatch (key : String) (expected found : Kind)
  /-- The account has been deleted. -/
  | stale (id : AccountId)
  | persistence (cause : Unstored)
  | invalid (cause : Invalid)
  /-- A flush was called off. -/
  | cancelled
  | config (cause : Misconfigured)
  deriving DecidableEq, Repr

namespace Problem

def message : Problem → String
  | typeMismatch key expected found =>
    "Type mismatch for '" ++ key ++ "': expected " ++ Kind.name expected ++ ", found " ++
      Kind.name found
  | stale id => "Account " ++ toString id ++ " has been deleted"
  | persistence cause => "Persistence error: " ++ cause.message
  | invalid cause => "Validation error: " ++ cause.message
  | cancelled => "Flush cancelled"
  | config cause => "Configuration error: " ++ cause.message

end Problem

end AccountVault
