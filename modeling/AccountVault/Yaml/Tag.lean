import AccountVault.Text.Bytes

/-!
# YAML tags

A tag is a sequence of bytes, since the escapes in it can spell any.  A tag that begins with `!` is the
mark of a local kind if it is text; tags of the standard kinds share their first part.
-/

namespace AccountVault.Yaml

structure Tag where
  bytes : Bytes
  deriving DecidableEq, Repr

namespace Tag

/-- Where a part of a tag ends: before its first zero. -/
def untilZero (bs : Bytes) : Bytes := bs.takeWhile (· ≠ 0)

/-- The tag that consists of what its handle stands for and a suffix. -/
def ofParts (lead suffix : Bytes) : Tag := ⟨untilZero lead ++ untilZero suffix⟩

/-- The first part of the tags of the standard kinds. -/
def standardLead : Bytes := Text.utf8 "tag:yaml.org,2002:"

/-- The tag of a standard kind. -/
def standard (kind : String) : Tag := ⟨standardLead ++ Text.utf8 kind⟩

/-- The lone mark, where nothing else is said. -/
def lone : Bytes := Text.utf8 "!"

/-- A name without the mark of a local kind. -/
def unmarked (name : String) : String :=
  match name.toList with
  | '!' :: c :: cs => String.ofList (c :: cs)
  | _ => name

/-- Whether a tag begins like one of a local kind. -/
def isMarked (t : Tag) : Bool := lone.isPrefixOf t.bytes

/-- The name of a local kind; the lone mark is a name as well. -/
def localName? (t : Tag) : Option String :=
  if t.isMarked then (Text.decodeUtf8? t.bytes).map unmarked else none

end Tag

end AccountVault.Yaml
