/-!
# Values

A setting holds a text, a 32-bit or 64-bit integer, a truth value or a list of texts.  `Value.widen`
reads a value as a requested kind; the one conversion is from 32 to 64 bits.  `Value.as?` takes out
the payload at a type.
-/

namespace AccountVault

/-- The type of a value. -/
inductive ValueType
  | text
  | integer
  | integer64
  | boolean
  | textList
  deriving DecidableEq, Repr

namespace ValueType

/-- The word for a type in records, answers and messages. -/
def name : ValueType → String
  | text => "string"
  | integer => "integer"
  | integer64 => "integer64"
  | boolean => "boolean"
  | textList => "string_list"

/-- Every type. -/
def all : List ValueType := [text, integer, integer64, boolean, textList]

/-- The type with a given word. -/
def ofName? (s : String) : Option ValueType := all.find? fun t => t.name = s

theorem ofName?_name (t : ValueType) : ofName? t.name = some t := by
  cases t <;> decide +kernel

/-- What a value of the type carries. -/
@[reducible] def Carrier : ValueType → Type
  | text => String
  | integer => Int32
  | integer64 => Int64
  | boolean => Bool
  | textList => List String

end ValueType

/-- The type of what a cell holds; `none` where it holds nothing. -/
abbrev Kind := Option ValueType

namespace Kind

/-- The word for a kind in answers and messages. -/
def name : Kind → String
  | none => "unset"
  | some t => t.name

/-- Whether what is stored as `stored` may be read as `requested`: the same kind always, and a
32-bit integer also as a 64-bit one. -/
def widensTo (stored requested : Kind) : Bool :=
  stored = requested ∨ (stored = some .integer ∧ requested = some .integer64)

end Kind

/-- A typed setting. -/
inductive Value
  | text (s : String)
  | integer (n : Int32)
  | integer64 (n : Int64)
  | boolean (b : Bool)
  | textList (items : List String)
  deriving DecidableEq, Repr

namespace Value

def type : Value → ValueType
  | text _ => .text
  | integer _ => .integer
  | integer64 _ => .integer64
  | boolean _ => .boolean
  | textList _ => .textList

/-- The payload, at the value's own type. -/
def payload : (v : Value) → v.type.Carrier
  | text s => s
  | integer n => n
  | integer64 n => n
  | boolean b => b
  | textList items => items

/-- The value with a given payload. -/
def ofPayload : (t : ValueType) → t.Carrier → Value
  | .text, s => text s
  | .integer, n => integer n
  | .integer64, n => integer64 n
  | .boolean, b => boolean b
  | .textList, items => textList items

/-- The payload at `t`, if that is the value's type; nothing is converted. -/
def as? : Value → (t : ValueType) → Option t.Carrier
  | text s, .text => some s
  | integer n, .integer => some n
  | integer64 n, .integer64 => some n
  | boolean b, .boolean => some b
  | textList items, .textList => some items
  | _, _ => none

/-- The value read as `requested`, or the value itself as the error where it cannot be. -/
def widen : Value → Kind → Except Value Value
  | integer n, some .integer64 => .ok (integer64 n.toInt64)
  | v, k => if some v.type = k then .ok v else .error v

theorem as?_isSome_iff (v : Value) (t : ValueType) : (v.as? t).isSome ↔ v.type = t := by
  cases v <;> cases t <;> simp [as?, type]

/-- Whether a value can be read as a kind is decided by its own kind alone. -/
theorem widen_isOk_iff (v : Value) (k : Kind) :
    (v.widen k).isOk ↔ Kind.widensTo (some v.type) k := by
  rcases v with _ | _ | _ | _ | _ <;> rcases k with _ | (_ | _ | _ | _ | _) <;>
    simp [widen, type, Kind.widensTo, Except.isOk, Except.toBool]

/-- A value that was read as some type has that type. -/
theorem type_of_widen {v w : Value} {t : ValueType} (h : v.widen (some t) = .ok w) :
    w.type = t := by
  unfold widen at h
  split at h
  · cases h
    simp_all [type]
  · split at h
    · cases h
      simp_all
    · exact absurd h (by simp)

end Value

end AccountVault
