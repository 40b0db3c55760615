/-!
# Calendar

The proleptic Gregorian calendar, with days counted from 1 March of the year 0 so that a leap day
comes last in its year.
-/

namespace AccountVault.Calendar

structure Date where
  year : Int
  month : Nat
  day : Nat
  deriving DecidableEq, Repr

def isLeap (year : Int) : Bool := year % 4 = 0 ∧ (year % 100 ≠ 0 ∨ year % 400 = 0)

def monthLength (year : Int) (month : Nat) : Nat :=
  if month = 2 then (if isLeap year then 29 else 28)
  else if month ∈ [4, 6, 9, 11] then 30
  else 31

/-- The years that dates are kept to. -/
def minYear : Int := -262143

def maxYear : Int := 262142

def Date.isValid (d : Date) : Bool :=
  minYear ≤ d.year ∧ d.year ≤ maxYear ∧ 1 ≤ d.month ∧ d.month ≤ 12 ∧ 1 ≤ d.day ∧
    d.day ≤ monthLength d.year d.month

/-- The number of a day, counted from 1 March of the year 0. -/
def dayNumber (d : Date) : Int :=
  let shifted : Bool := d.month ≤ 2
  let y := if shifted then d.year - 1 else d.year
  let m : Int := if shifted then d.month + 9 else d.month - 3
  y * 365 + y / 4 - y / 100 + y / 400 + (153 * m + 2) / 5 + d.day - 1

/-- The date of a day by its number. -/
def ofDayNumber (n : Int) : Date :=
  let era := n / 146097
  let doe := n % 146097
  let yoe := (doe - doe / 1460 + doe / 36524 - doe / 146096) / 365
  let doy := doe - (365 * yoe + yoe / 4 - yoe / 100)
  let mp := (5 * doy + 2) / 153
  let day := doy - (153 * mp + 2) / 5 + 1
  let month := if mp < 10 then mp + 3 else mp - 9
  { year := yoe + era * 400 + (if month ≤ 2 then 1 else 0), month := month.toNat, day := day.toNat }

end AccountVault.Calendar
