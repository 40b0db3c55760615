/-!
# JSON

JSON values as they are read and written here.  Numbers matter only as integers, so a number with a
fraction or an exponent is kept as `Json.Number.fractional` without its digits.  A string whose
escapes or bytes do not spell Unicode text is `none`: it may stand where a value is skipped, and
nowhere else.  Members keep their order, and a name may occur twice.
-/

namespace AccountVault

/-- The number of a JSON text. -/
inductive Json.Number
  /-- A sign and digits. -/
  | integral (negative : Bool) (magnitude : Nat)
  /-- A fraction or an exponent is written, whatever the value. -/
  | fractional
  deriving DecidableEq, Repr

inductive Json
  | null
  | boolean (b : Bool)
  | number (n : Json.Number)
  | string (s : Option String)
  | array (items : List Json)
  | object (members : List (Option String × Json))
  deriving Repr

namespace Json

instance : Inhabited Json := ⟨null⟩

/-- The string of well-formed text. -/
def text (s : String) : Json := string (some s)

/-- The number that an integer is written as. -/
def int (n : Int) : Json := number (.integral (n < 0) n.natAbs)

/-- An object whose names are well-formed text. -/
def record (members : List (String × Json)) : Json :=
  object (members.map fun m => (some m.1, m.2))

/-- The integer that a number writes.  Minus zero is not one: it is a number of its own, apart from
zero. -/
def Number.int? : Number → Option Int
  | .integral false n => some n
  | .integral true 0 => none
  | .integral true n => some (-n)
  | .fractional => none

theorem Number.int?_integral (n : Int) : Number.int? (.integral (n < 0) n.natAbs) = some n := by
  rcases n with n | n
  · have h : ¬ Int.ofNat n < 0 := by simp
    simp only [decide_eq_false h]
    rfl
  · have h : Int.negSucc n < 0 := Int.negSucc_lt_zero n
    simp only [decide_eq_true h]
    rfl

end Json

end AccountVault
