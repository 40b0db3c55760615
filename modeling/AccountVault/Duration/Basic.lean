/-!
# Durations

A span of time in nanoseconds, and the short text that messages show it as: the largest unit among
seconds, milliseconds, microseconds and nanoseconds that gives a whole part, followed by as many
decimal places as are needed.
-/

namespace AccountVault

/-- A span of time, exact to the nanosecond. -/
structure Duration where
  nanoseconds : Nat
  deriving DecidableEq, Repr

namespace Duration

def nanosPerSecond : Nat := 1000000000

def ofSeconds (n : Nat) : Duration := ⟨n * nanosPerSecond⟩

/-- Whole seconds. -/
def seconds (d : Duration) : Nat := d.nanoseconds / nanosPerSecond

/-- Nanoseconds beyond the whole seconds. -/
def subsecond (d : Duration) : Nat := d.nanoseconds % nanosPerSecond

/-- Milliseconds, rounded up: the first tick of a millisecond clock at which the span is over. -/
def ticks (d : Duration) : Nat := (d.nanoseconds + 999999) / 1000000

/-- The digits of `n`, padded on the left with zeros to `width` places. -/
def padded (width n : Nat) : List Char :=
  let ds := Nat.toDigits 10 n
  List.replicate (width - ds.length) '0' ++ ds

/-- A point and `n` as a fraction of `width` places without closing zeros, or nothing for zero. -/
def fraction (width n : Nat) : List Char :=
  if n = 0 then [] else '.' :: ((padded width n).reverse.dropWhile (· = '0')).reverse

/-- `n` nanoseconds counted in units of ten to the power `places`. -/
def inUnit (n places : Nat) (unit : String) : String :=
  let one := Nat.pow 10 places
  String.ofList (Nat.toDigits 10 (n / one) ++ fraction places (n % one)) ++ unit

/-- The text of a span: `5s`, `1.5s`, `250ms`. -/
def text (d : Duration) : String :=
  if d.nanoseconds ≥ 1000000000 then inUnit d.nanoseconds 9 "s"
  else if d.nanoseconds ≥ 1000000 then inUnit d.nanoseconds 6 "ms"
  else if d.nanoseconds ≥ 1000 then inUnit d.nanoseconds 3 "µs"
  else inUnit d.nanoseconds 0 "ns"

end Duration

end AccountVault
