import AccountVault.Yaml.Tag

/-!
# YAML tokens

What a YAML text is cut into before its nodes are put together.  Indentation and keys that are only
recognised by the colon after them show up as tokens of their own.
-/

namespace AccountVault.Yaml

/-- How a scalar is written. -/
inductive Style
  | plain
  | singleQuoted
  | doubleQuoted
  | literal
  | folded
  deriving DecidableEq, Repr

inductive Token
  | version (major minor : Nat)
  | tagHandle (handle : String) (lead : Bytes)
  | documentStart
  | documentEnd
  | blockSequenceStart
  | blockMappingStart
  | blockEnd
  | flowSequenceStart
  | flowSequenceEnd
  | flowMappingStart
  | flowMappingEnd
  | blockEntry
  | flowEntry
  | key
  | value
  | reference (name : String)
  | anchor (name : String)
  | tag (handle : String) (suffix : Bytes)
  | scalar (text : String) (style : Style)
  deriving DecidableEq, Repr

end AccountVault.Yaml
