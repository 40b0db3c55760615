/-!
# Doubles

The numbers of the binary format of 64 bits, as far as telling them apart goes.  A finite one is a
whole number of steps of size `2 ^ -1074`; zero has no sign.  `Double.ofDecimal` rounds to nearest,
ties to even.
-/

namespace AccountVault.Yaml

inductive Double
  /-- A multiple of the smallest positive number. -/
  | finite (steps : Int)
  | infinite (negative : Bool)
  | undefined
  deriving DecidableEq, Repr

namespace Double

/-- Every finite number has fewer steps. -/
def stepsLimit : Nat := Nat.pow 2 2098

/-- The quotient to the nearest whole number, ties to even. -/
def roundQuotient (num den : Nat) : Nat :=
  let q := num / den
  let r := num % den
  if 2 * r < den ∨ (2 * r = den ∧ q % 2 = 0) then q else q + 1

/-- A quotient to 53 significant bits. -/
def significant (num den : Nat) : Nat :=
  let unit := Nat.pow 2 ((num / den).log2 - 52)
  roundQuotient num (den * unit) * unit

/-- The number nearest to `m * 10 ^ e`. -/
def ofDecimal (negative : Bool) (m : Nat) (e : Int) : Double :=
  let places : Int := (Nat.toDigits 10 m).length + e
  if m = 0 ∨ places < -400 then finite 0
  else if 400 < places then infinite negative
  else
    let num := m * Nat.pow 10 e.toNat * Nat.pow 2 1074
    let steps := significant num (Nat.pow 10 (-e).toNat)
    if steps < stepsLimit then finite (if negative then -steps else steps) else infinite negative

/-- Reads a sign. -/
def sign : List Char → Bool × List Char
  | '-' :: s => (true, s)
  | '+' :: s => (false, s)
  | s => (false, s)

/-- The number that the exponent part of a decimal writes. -/
def exponent? : List Char → Option Int
  | [] => some 0
  | c :: s =>
    let (negative, ds) := sign s
    if (c = 'e' ∨ c = 'E') ∧ ds ≠ [] ∧ ds.all Char.isDigit then
      let n := Nat.ofDigitChars 10 ds 0
      some (if negative then -n else n)
    else none

/-- Reads a decimal with optional sign, fraction and exponent, where a digit stands before or after the
point. -/
def ofText? (s : List Char) : Option Double := do
  let (negative, s) := sign s
  let whole := s.takeWhile Char.isDigit
  let s := s.drop whole.length
  let (part, s) := match s with
    | '.' :: s =>
      let part := s.takeWhile Char.isDigit
      (part, s.drop part.length)
    | s => ([], s)
  if whole = [] ∧ part = [] then none
  let e ← exponent? s
  return ofDecimal negative (Nat.ofDigitChars 10 (whole ++ part) 0) (e - part.length)

end Double

end AccountVault.Yaml
