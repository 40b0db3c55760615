import AccountVault.Json.Basic
import AccountVault.Text.Bytes

/-!
# Compact JSON text

`Json.print` writes a value without blanks.  Strings escape the quote, the backslash and the control
characters below U+0020, with the short escapes where JSON has them and `\u00xx` in lower case for the
rest; all else is written as UTF-8.
-/

namespace AccountVault.Json

/-- The code of an ASCII character. -/
def ascii (c : Char) : UInt8 := c.toNat.toUInt8

/-- The lower-case digit for a number below 16. -/
def hexDigit (n : UInt8) : UInt8 :=
  if n < 10 then ascii '0' + n else ascii 'a' + (n - 10)

/-- How a byte of a string is written. -/
def escapeByte (b : UInt8) : Bytes :=
  if b = ascii '"' then [ascii '\\', ascii '"']
  else if b = ascii '\\' then [ascii '\\', ascii '\\']
  else if b = 0x08 then [ascii '\\', ascii 'b']
  else if b = 0x09 then [ascii '\\', ascii 't']
  else if b = 0x0a then [ascii '\\', ascii 'n']
  else if b = 0x0c then [ascii '\\', ascii 'f']
  else if b = 0x0d then [ascii '\\', ascii 'r']
  else if b < 0x20 then
    [ascii '\\', ascii 'u', ascii '0', ascii '0', hexDigit (b / 16), hexDigit (b % 16)]
  else [b]

/-- A string token.  What is not text is written as a lone surrogate, which reads back as such. -/
def printString : Option String → Bytes
  | some s => ascii '"' :: (Text.utf8 s).flatMap escapeByte ++ [ascii '"']
  | none => ['"', '\\', 'u', 'd', '8', '0', '0', '"'].map ascii

/-- A number token; a number that is no integer is written as `0.0`. -/
def printNumber : Number → Bytes
  | .integral negative n =>
    (if negative then [ascii '-'] else []) ++ (Nat.toDigits 10 n).map ascii
  | .fractional => ['0', '.', '0'].map ascii

/-- Joins written items with commas. -/
def commaSeparated : List Bytes → Bytes
  | [] => []
  | [x] => x
  | x :: y :: rest => x ++ ascii ',' :: commaSeparated (y :: rest)

mutual

/-- The compact text of a value. -/
def print : Json → Bytes
  | null => ['n', 'u', 'l', 'l'].map ascii
  | boolean true => ['t', 'r', 'u', 'e'].map ascii
  | boolean false => ['f', 'a', 'l', 's', 'e'].map ascii
  | number n => printNumber n
  | string s => printString s
  | array items => ascii '[' :: commaSeparated (printItems items) ++ [ascii ']']
  | object members => ascii '{' :: commaSeparated (printMembers members) ++ [ascii '}']

/-- The texts of the items of an array. -/
def printItems : List Json → List Bytes
  | [] => []
  | v :: rest => print v :: printItems rest

/-- The texts of the members of an object. -/
def printMembers : List (Option String × Json) → List Bytes
  | [] => []
  | (name, v) :: rest => (printString name ++ ascii ':' :: print v) :: printMembers rest

end

end AccountVault.Json
