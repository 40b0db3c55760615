import AccountVault.Timestamp.Calendar
import AccountVault.Duration.Basic
import AccountVault.Text.Blank

/-!
# Timestamps

Points in time as a date and a time of day in UTC.  `Timestamp.text` writes them in the form of
RFC 3339 with a `Z` and with 0, 3, 6 or 9 decimal places, the fewest that are exact.
`Timestamp.ofText?` reads a relaxed form of it: one or two digits for most fields, blanks around
them, a blank in place of the `T`, a year with a sign, `UTC` for the offset.
-/

namespace AccountVault

/-- A point in time, in UTC.  A leap second is a 59th second with a whole second of nanoseconds more. -/
structure Timestamp where
  date : Calendar.Date
  hour : Nat
  minute : Nat
  second : Nat
  nanosecond : Nat
  deriving DecidableEq, Repr

namespace Timestamp

def twoDigits (n : Nat) : List Char := Duration.padded 2 n

/-- Four digits from the year 0 to 9999; a sign and at least four digits otherwise. -/
def yearText (y : Int) : List Char :=
  if 0 ≤ y ∧ y ≤ 9999 then Duration.padded 4 y.toNat
  else (if y < 0 then '-' else '+') :: Duration.padded 4 y.natAbs

/-- A point and 3, 6 or 9 digits, or nothing for zero. -/
def fractionText (n : Nat) : List Char :=
  if n = 0 then []
  else if n % 1000000 = 0 then '.' :: Duration.padded 3 (n / 1000000)
  else if n % 1000 = 0 then '.' :: Duration.padded 6 (n / 1000)
  else '.' :: Duration.padded 9 n

def text (t : Timestamp) : String :=
  let leap : Bool := t.nanosecond ≥ 1000000000
  let second := if leap then t.second + 1 else t.second
  let nanosecond := if leap then t.nanosecond - 1000000000 else t.nanosecond
  String.ofList <|
    yearText t.date.year ++ '-' :: twoDigits t.date.month ++ '-' :: twoDigits t.date.day ++
    'T' :: twoDigits t.hour ++ ':' :: twoDigits t.minute ++ ':' :: twoDigits second ++
    fractionText nanosecond ++ ['Z']

/-! ### Reading -/

/-- Reads one up to `width` digits. -/
def digits (width : Nat) (s : List Char) : Option (Nat × List Char) :=
  let ds := (s.take width).takeWhile Char.isDigit
  if ds.isEmpty then none else some (Nat.ofDigitChars 10 ds 0, s.drop ds.length)

/-- Reads a year: up to four digits, or a sign and any number of digits. -/
def year (s : List Char) : Option (Int × List Char) :=
  match Text.trimLeft s with
  | '-' :: s => (digits s.length s).map fun r => (-(r.1 : Int), r.2)
  | '+' :: s => (digits s.length s).map fun r => ((r.1 : Int), r.2)
  | s => (digits 4 s).map fun r => ((r.1 : Int), r.2)

/-- Reads a field of one or two digits. -/
def field (s : List Char) : Option (Nat × List Char) := digits 2 (Text.trimLeft s)

/-- Takes a separator, with blanks before it. -/
def separator (c : Char) (s : List Char) : Option (List Char) :=
  match Text.trimLeft s with
  | d :: s => if d = c then some s else none
  | [] => none

/-- Reads a fraction of a second in nanoseconds, if one follows; digits after the ninth are dropped. -/
def secondFraction : List Char → Option (Nat × List Char)
  | '.' :: s => do
    let (n, rest) ← digits 9 s
    let places := s.length - rest.length
    return (n * Nat.pow 10 (9 - places), rest.dropWhile Char.isDigit)
  | s => some (0, s)

/-- Reads two digits. -/
def pair : List Char → Option (Nat × List Char)
  | a :: b :: s =>
    if a.isDigit && b.isDigit then some (Nat.ofDigitChars 10 [a, b] 0, s) else none
  | _ => none

/-- Reads an offset from UTC in minutes. -/
def offset (s : List Char) : Option (Int × List Char) :=
  match s with
  | 'Z' :: s => some (0, s)
  | 'z' :: s => some (0, s)
  | c :: rest =>
    if (s.take 3).map Char.toLower = ['u', 't', 'c'] then some (0, s.drop 3)
    else do
      let sign : Int ←
        if c = '+' then some 1 else if c = '-' ∨ c = '\u2212' then some (-1) else none
      let (h, rest) ← pair rest
      let (m, rest) ← pair (rest.dropWhile fun c => c = ':' || Text.isBlank c)
      if m < 60 then some (sign * (h * 60 + m), rest) else none
  | [] => none

/-- Moves a point in time by some minutes. -/
def addMinutes (t : Timestamp) (minutes : Int) : Timestamp :=
  let total := (t.hour * 60 + t.minute : Int) + minutes
  let inDay := (total % 1440).toNat
  { t with
    date := Calendar.ofDayNumber (Calendar.dayNumber t.date + total / 1440)
    hour := inDay / 60
    minute := inDay % 60 }

/-- The point in time that a text writes. -/
def ofText? (s : String) : Option Timestamp := do
  let (y, s) ← year s.toList
  let (month, s) ← field (← separator '-' s)
  let (day, s) ← field (← separator '-' s)
  let s ← match s with
    | c :: s => if c = 'T' ∨ c = 't' ∨ c = ' ' then some s else none
    | [] => none
  let (hour, s) ← field s
  let (minute, s) ← field (← separator ':' s)
  let (second, s) ← field (← separator ':' s)
  let (fraction, s) ← secondFraction s
  let (minutes, s) ← offset (Text.trimLeft s)
  let date : Calendar.Date := ⟨y, month, day⟩
  guard (date.isValid ∧ hour < 24 ∧ minute < 60 ∧ second ≤ 60 ∧ minutes.natAbs < 1440)
  guard (Text.trimLeft s).isEmpty
  let t : Timestamp :=
    if second = 60 then ⟨date, hour, minute, 59, fraction + 1000000000⟩
    else ⟨date, hour, minute, second, fraction⟩
  let t := t.addMinutes (-minutes)
  guard t.date.isValid
  return t

end Timestamp

end AccountVault
