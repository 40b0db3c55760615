import AccountVault.Duration.Basic
import AccountVault.Text.Blank

/-!
# Written durations

A written duration is one or more pairs of a number and a unit, such as `1h 30m` or `1.5s`; the
pairs are added up.  Blanks may stand around a pair, between the number and its unit, and between
the digits of a number.  Numbers, and the seconds and nanoseconds of each sum, keep to 64 bits, and
a decimal fraction has to come out even in nanoseconds (in whole seconds from the hour upwards).
-/

namespace AccountVault.Duration

/-- One of the units that a number can be followed by. -/
structure TimeUnit where
  /-- How many of the base step one unit is. -/
  factor : Nat
  /-- Whether the base step is a second rather than a nanosecond. -/
  inSeconds : Bool
  /-- The step that a decimal fraction of the unit is counted in, as `factor` is. -/
  fractionFactor : Option (Nat × Bool)

/-- The unit that a word stands for. -/
def TimeUnit.ofWord? (s : String) : Option TimeUnit :=
  if s ∈ ["nanos", "nsec", "ns"] then some ⟨1, false, none⟩
  else if s ∈ ["usec", "us", "µs"] then some ⟨1000, false, some (1000, false)⟩
  else if s ∈ ["millis", "msec", "ms"] then some ⟨1000000, false, some (1000000, false)⟩
  else if s ∈ ["seconds", "second", "secs", "sec", "s"] then
    some ⟨1, true, some (1000000000, false)⟩
  else if s ∈ ["minutes", "minute", "min", "mins", "m"] then
    some ⟨60, true, some (60000000000, false)⟩
  else if s ∈ ["hours", "hour", "hrs", "hr", "h"] then some ⟨3600, true, some (3600, true)⟩
  else if s ∈ ["days", "day", "d"] then some ⟨86400, true, some (86400, true)⟩
  else if s ∈ ["weeks", "week", "wks", "wk", "w"] then some ⟨604800, true, some (604800, true)⟩
  else if s ∈ ["months", "month", "M"] then some ⟨2630016, true, some (2630016, true)⟩
  else if s ∈ ["years", "year", "yrs", "yr", "y"] then
    some ⟨31557600, true, some (31557600, true)⟩
  else none

/-- A number that fits in 64 bits, or nothing. -/
def word64? (n : Nat) : Option Nat := if n < UInt64.size then some n else none

/-- Adds `n` base steps to a sum of seconds and nanoseconds. -/
def addSteps (sum : Nat × Nat) (n : Nat) (inSeconds : Bool) : Option (Nat × Nat) := do
  let n ← word64? n
  let nanos ← word64? (sum.2 + if inSeconds then 0 else n)
  let seconds ← word64? ((if inSeconds then n else 0) + nanos / nanosPerSecond)
  let seconds ← word64? (sum.1 + seconds)
  return (seconds, nanos % nanosPerSecond)

/-- Whether a character can be part of a unit's word. -/
def isUnitLetter (c : Char) : Bool := c.isAlpha || c = 'µ'

/-- Reads the digits of a number that begins with `n`, up to its unit, a point or the end. -/
def number : Nat → List Char → Option (Nat × List Char)
  | n, [] => some (n, [])
  | n, c :: s =>
    if c.isDigit then (word64? (n * 10 + (c.toNat - '0'.toNat))).bind fun n => number n s
    else if Text.isBlank c then number n s
    else if isUnitLetter c || c = '.' then some (n, c :: s)
    else none

/-- Reads the digits after a decimal point, as a numerator over a power of ten. -/
def decimals : Nat → Nat → List Char → Option ((Nat × Nat) × List Char)
  | num, den, [] => some ((num, den), [])
  | num, den, c :: s =>
    if c.isDigit then do
      let den ← word64? (den * 10)
      let num ← word64? (num * 10 + (c.toNat - '0'.toNat))
      decimals num den s
    else if Text.isBlank c then decimals num den s
    else if isUnitLetter c then some ((num, den), c :: s)
    else none

/-- Adds a number with its fraction, counted in the unit, to the sum. -/
def addPair (sum : Nat × Nat) (n : Nat) (part : Option (Nat × Nat)) (unit : List Char) :
    Option (Nat × Nat) := do
  let u ← TimeUnit.ofWord? (String.ofList unit)
  let sum ← addSteps sum (n * u.factor) u.inSeconds
  match part with
  | none => return sum
  | some (num, den) =>
    let (factor, inSeconds) ← u.fractionFactor
    let n ← word64? (num * factor)
    if n % den = 0 then addSteps sum (n / den) inSeconds else none

/-- Reads pairs until the text ends; `fuel` bounds their number. -/
def pairs : Nat → Nat × Nat → List Char → Option (Nat × Nat)
  | 0, _, _ => none
  | fuel + 1, sum, s =>
    match Text.trimLeft s with
    | [] => some sum
    | c :: s => do
      guard c.isDigit
      let (n, s) ← number (c.toNat - '0'.toNat) s
      let (part, s) ← match s with
        | '.' :: s => do
          let (part, s) ← decimals 0 1 s
          guard (part.2 ≠ 1)
          pure (some part, s)
        | s => pure (none, s)
      let unit := s.takeWhile isUnitLetter
      let rest := s.drop unit.length
      guard (rest.head?.all fun c => c.isDigit || Text.isBlank c)
      pairs fuel (← addPair sum n part unit) rest

/-- The duration that a text writes.  A lone `0` needs no unit. -/
def ofText? (s : String) : Option Duration :=
  if s = "0" then some ⟨0⟩
  else
    let cs := s.toList
    if (Text.trimLeft cs).isEmpty then none
    else (pairs (cs.length + 1) (0, 0) cs).map fun sum => ⟨sum.1 * nanosPerSecond + sum.2⟩

end AccountVault.Duration
