import AccountVault.Json.Printer

/-!
# Reading JSON text

`Json.parse` reads a whole text strictly: no byte order mark, no comments, no closing commas, no
leading zeros, no raw control characters, and nothing but blanks after the value.  The readers below
take the bytes that are left and return what they leave.
-/

namespace AccountVault.Json

/-- Skips blanks. -/
def skipBlanks : Bytes → Bytes
  | [] => []
  | b :: s => if b = 0x20 ∨ b = 0x09 ∨ b = 0x0a ∨ b = 0x0d then skipBlanks s else b :: s

/-- Takes a fixed run of bytes. -/
def expect : Bytes → Bytes → Option Bytes
  | [], s => some s
  | b :: w, c :: s => if b = c then expect w s else none
  | _ :: _, [] => none

def isDigit (b : UInt8) : Bool := 0x30 ≤ b && b ≤ 0x39

/-- The value of a hexadecimal digit in either case. -/
def hexValue? (b : UInt8) : Option Nat :=
  if isDigit b then some (b.toNat - 0x30)
  else if 0x61 ≤ b && b ≤ 0x66 then some (b.toNat - 0x61 + 10)
  else if 0x41 ≤ b && b ≤ 0x46 then some (b.toNat - 0x41 + 10)
  else none

/-- The number of four hexadecimal digits. -/
def hex4? : Bytes → Option (Nat × Bytes)
  | a :: b :: c :: d :: s => do
    let a ← hexValue? a
    let b ← hexValue? b
    let c ← hexValue? c
    let d ← hexValue? d
    return (((a * 16 + b) * 16 + c) * 16 + d, s)
  | _ => none

/-- The byte that a one-letter escape stands for. -/
def shortEscape? (b : UInt8) : Option UInt8 :=
  if b = ascii '"' ∨ b = ascii '\\' ∨ b = ascii '/' then some b
  else if b = ascii 'b' then some 0x08
  else if b = ascii 'f' then some 0x0c
  else if b = ascii 'n' then some 0x0a
  else if b = ascii 'r' then some 0x0d
  else if b = ascii 't' then some 0x09
  else none

/-- The UTF-8 bytes of a code point that is a character. -/
def encodePoint? (n : Nat) : Option Bytes :=
  if h : n.isValidChar then some (Text.utf8 (String.singleton (Char.ofNatAux n h))) else none

/-- One piece of the body of a string. -/
inductive Piece
  | bytes (bs : Bytes)
  /-- A code unit from the high half of a surrogate pair. -/
  | high (unit : Nat)
  /-- A code unit from the low half of a surrogate pair. -/
  | low (unit : Nat)

/-- Reads the pieces of a string up to its closing quote. -/
def pieces : Bytes → Option (List Piece × Bytes)
  | [] => none
  | b :: s =>
    if b = ascii '"' then some ([], s)
    else if b < 0x20 then none
    else if b ≠ ascii '\\' then (pieces s).map fun r => (.bytes [b] :: r.1, r.2)
    else match s with
      | [] => none
      | e :: s =>
        if e = ascii 'u' then
          match s with
          | a :: b :: c :: d :: s =>
            match hex4? [a, b, c, d] with
            | none => none
            | some (n, _) =>
              let p : Piece :=
                if 0xd800 ≤ n ∧ n < 0xdc00 then .high n
                else if 0xdc00 ≤ n ∧ n < 0xe000 then .low n
                else .bytes ((encodePoint? n).getD [])
              (pieces s).map fun r => (p :: r.1, r.2)
          | _ => none
        else match shortEscape? e with
          | none => none
          | some b => (pieces s).map fun r => (.bytes [b] :: r.1, r.2)

/-- The bytes that pieces spell; a surrogate counts only in a pair. -/
def joinPieces : List Piece → Option Bytes
  | [] => some []
  | .bytes bs :: rest => (joinPieces rest).map (bs ++ ·)
  | .high h :: .low l :: rest => do
    let bs ← encodePoint? (0x10000 + (h - 0xd800) * 0x400 + (l - 0xdc00))
    let rest ← joinPieces rest
    return bs ++ rest
  | _ => none

/-- Reads a string after its opening quote. -/
def stringBody (s : Bytes) : Option (Option String × Bytes) :=
  (pieces s).map fun r => ((joinPieces r.1).bind Text.decodeUtf8?, r.2)

/-- The number that digits write. -/
def digitsValue (ds : Bytes) : Nat := ds.foldl (fun n d => n * 10 + (d.toNat - 0x30)) 0

/-- Reads the exponent of a number, if one follows. -/
def exponent? (s : Bytes) : Option (Bool × Bytes) :=
  match s with
  | [] => some (false, s)
  | b :: t =>
    if b = ascii 'e' ∨ b = ascii 'E' then
      let t := match t with
        | c :: u => if c = ascii '+' ∨ c = ascii '-' then u else t
        | [] => t
      if (t.takeWhile isDigit).isEmpty then none else some (true, t.dropWhile isDigit)
    else some (false, s)

/-- Reads the fraction of a number, if one follows. -/
def fraction? (s : Bytes) : Option (Bool × Bytes) :=
  match s with
  | [] => some (false, s)
  | b :: t =>
    if b = ascii '.' then
      if (t.takeWhile isDigit).isEmpty then none else some (true, t.dropWhile isDigit)
    else some (false, s)

/-- Reads a number after its sign. -/
def numberBody (negative : Bool) (s : Bytes) : Option (Number × Bytes) := do
  let ds := s.takeWhile isDigit
  if ds.isEmpty ∨ (ds.head? = some 0x30 ∧ ds.length ≠ 1) then none
  else do
    let (isFraction, s) ← fraction? (s.dropWhile isDigit)
    let (isPower, s) ← exponent? s
    if isFraction || isPower then return (.fractional, s)
    else return (.integral negative (digitsValue ds), s)

mutual

/-- Reads a value, blanks before it included; `fuel` bounds the depth of the recursion. -/
def value : Nat → Bytes → Option (Json × Bytes)
  | 0, _ => none
  | fuel + 1, s =>
    match skipBlanks s with
    | [] => none
    | b :: s =>
      if b = ascii 'n' then (expect (['u', 'l', 'l'].map ascii) s).map ((null, ·))
      else if b = ascii 't' then (expect (['r', 'u', 'e'].map ascii) s).map ((boolean true, ·))
      else if b = ascii 'f' then
        (expect (['a', 'l', 's', 'e'].map ascii) s).map ((boolean false, ·))
      else if b = ascii '"' then (stringBody s).map fun r => (string r.1, r.2)
      else if b = ascii '-' then (numberBody true s).map fun r => (number r.1, r.2)
      else if isDigit b then (numberBody false (b :: s)).map fun r => (number r.1, r.2)
      else if b = ascii '[' then
        match skipBlanks s with
        | [] => none
        | c :: t =>
          if c = ascii ']' then some (array [], t)
          else (items fuel s).map fun r => (array r.1, r.2)
      else if b = ascii '{' then
        match skipBlanks s with
        | [] => none
        | c :: t =>
          if c = ascii '}' then some (object [], t)
          else (members fuel s).map fun r => (object r.1, r.2)
      else none

/-- Reads one or more items and the bracket that closes them. -/
def items : Nat → Bytes → Option (List Json × Bytes)
  | 0, _ => none
  | fuel + 1, s =>
    match value fuel s with
    | none => none
    | some (v, s) =>
      match skipBlanks s with
      | [] => none
      | b :: s =>
        if b = ascii ']' then some ([v], s)
        else if b = ascii ',' then (items fuel s).map fun r => (v :: r.1, r.2)
        else none

/-- Reads one or more members and the brace that closes them. -/
def members : Nat → Bytes → Option (List (Option String × Json) × Bytes)
  | 0, _ => none
  | fuel + 1, s =>
    match skipBlanks s with
    | [] => none
    | b :: s =>
      if b ≠ ascii '"' then none
      else match stringBody s with
        | none => none
        | some (name, s) =>
          match skipBlanks s with
          | [] => none
          | b :: s =>
            if b ≠ ascii ':' then none
            else match value fuel s with
              | none => none
              | some (v, s) =>
                match skipBlanks s with
                | [] => none
                | b :: s =>
                  if b = ascii '}' then some ([(name, v)], s)
                  else if b = ascii ',' then
                    (members fuel s).map fun r => ((name, v) :: r.1, r.2)
                  else none

end

/-- The value that a whole text writes. -/
def parse (s : Bytes) : Option Json :=
  match value (2 * s.length + 1) s with
  | some (v, rest) => if skipBlanks rest = [] then some v else none
  | none => none

end AccountVault.Json
