import AccountVault.Yaml.Token
import AccountVault.Yaml.Token.Cursor

/-!
# Scalars

Reading plain, quoted and block scalars.  A `Gap` is a run of blanks and line breaks inside a plain or
quoted scalar; joining it folds a single line break into a space.
-/

namespace AccountVault.Yaml

/-- Blanks and line breaks between two pieces of a scalar. -/
structure Gap where
  /-- Blanks before any line break. -/
  blanks : List Char := []
  /-- The first line break. -/
  first : List Char := []
  /-- The line breaks after the first. -/
  more : List Char := []
  /-- Whether a line break has been passed. -/
  broken : Bool := false

namespace Gap

/-- What a gap leaves in the text. -/
def text (g : Gap) : List Char :=
  if !g.broken then g.blanks
  else if g.first = ['\n'] then (if g.more = [] then [' '] else g.more)
  else g.first ++ g.more

/-- Reads blanks and line breaks.  In a plain scalar, a tab left of `indent` at the start of a line is
refused. -/
def read (indent : Option Int) : Nat → Cursor → Gap → Option (Gap × Cursor)
  | 0, _, _ => none
  | fuel + 1, c, g =>
    if c.isAt 0 isBlank then
      if g.broken then
        if c.sees '\t' && indent.any fun i => (c.column : Int) < i then none
        else read indent fuel (c.skip 1) g
      else read indent fuel (c.skip 1) { g with blanks := g.blanks ++ c.rest.take 1 }
    else if c.isAt 0 isBreak then
      let (b, c) := c.takeBreak
      if g.broken then read indent fuel c { g with more := g.more ++ b }
      else read indent fuel c { first := b, more := g.more, broken := true }
    else some (g, c)

end Gap

namespace Scalar

/-! ### Plain scalars -/

/-- Whether a plain scalar ends before the next character. -/
def endsPlain (inFlow : Bool) (c : Cursor) : Bool :=
  (c.sees ':' && c.isGapAt 1) || (inFlow && c.isAt 0 (· ∈ [',', '[', ']', '{', '}']))

/-- Reads a piece without blanks, putting what the gap before it leaves in front. -/
def plainPiece (inFlow : Bool) : Nat → Cursor → List Char → Gap → Option (List Char × Gap × Cursor)
  | 0, _, _, _ => none
  | fuel + 1, c, text, g =>
    match c.rest with
    | [] => some (text, g, c)
    | d :: _ =>
      if c.isGapAt 0 then some (text, g, c)
      else if inFlow && d = ':' && c.isAt 1 (· ∈ [',', '?', '[', ']', '{', '}']) then none
      else if endsPlain inFlow c then some (text, g, c)
      else plainPiece inFlow fuel (c.skip 1) (d :: (g.text.reverse ++ text)) {}

/-- Reads the pieces of a plain scalar; `text` is what was read before, backwards.  The flag says
whether the scalar was left over a line break. -/
def plainPieces (inFlow : Bool) (indent : Int) :
    Nat → Cursor → List Char → Gap → Option (List Char × Bool × Cursor)
  | 0, _, _, _ => none
  | fuel + 1, c, text, g =>
    if c.atDocumentMark || c.sees '#' then some (text, g.broken, c)
    else do
      let (text, g, c) ← plainPiece inFlow (c.rest.length + 1) c text g
      if c.atEnd || !c.isGapAt 0 then return (text, g.broken, c)
      let (g, c) ← g.read (some indent) (c.rest.length + 1) c
      if !inFlow && (c.column : Int) < indent then return (text, g.broken, c)
      plainPieces inFlow indent fuel c text g

/-- Reads a plain scalar whose later lines are indented to `indent` at least. -/
def plain (inFlow : Bool) (indent : Int) (c : Cursor) : Option (String × Bool × Cursor) := do
  let (text, broken, c) ← plainPieces inFlow indent (c.rest.length + 1) c [] {}
  return (String.ofList text.reverse, broken, c)

/-! ### Quoted scalars -/

/-- The character that a one-letter escape stands for. -/
def shortEscape? : Char → Option Char
  | '0' => some '\u0000'
  | 'a' => some '\u0007'
  | 'b' => some '\u0008'
  | 't' => some '\t'
  | '\t' => some '\t'
  | 'n' => some '\n'
  | 'v' => some '\u000b'
  | 'f' => some '\u000c'
  | 'r' => some '\r'
  | 'e' => some '\u001b'
  | ' ' => some ' '
  | '"' => some '"'
  | '/' => some '/'
  | '\\' => some '\\'
  | 'N' => some '\u0085'
  | '_' => some '\u00a0'
  | 'L' => some '\u2028'
  | 'P' => some '\u2029'
  | _ => none

/-- How many hexadecimal digits follow a letter. -/
def codeLength? : Char → Option Nat
  | 'x' => some 2
  | 'u' => some 4
  | 'U' => some 8
  | _ => none

def hexValue? (c : Char) : Option Nat :=
  if c.isDigit then some (c.toNat - '0'.toNat)
  else if 'a' ≤ c ∧ c ≤ 'f' then some (c.toNat - 'a'.toNat + 10)
  else if 'A' ≤ c ∧ c ≤ 'F' then some (c.toNat - 'A'.toNat + 10)
  else none

/-- Reads the escape after a backslash. -/
def escape? (c : Cursor) : Option (Char × Cursor) :=
  match c.rest with
  | [] => none
  | d :: s =>
    match shortEscape? d, codeLength? d with
    | some e, _ => some (e, c.skip 1)
    | none, some n => do
      let ds ← (s.take n).mapM hexValue?
      let code := ds.foldl (fun acc d => acc * 16 + d) 0
      if ds.length = n ∧ code.isValidChar then some (Char.ofNat code, c.skip (1 + n)) else none
    | none, none => none

/-- Reads a piece without blanks of a quoted scalar.  The flag says whether the piece was left over an
escaped line break. -/
def quotedPiece (single : Bool) : Nat → Cursor → List Char → Option (List Char × Bool × Cursor)
  | 0, _, _ => none
  | fuel + 1, c, text =>
    match c.rest with
    | [] => some (text, false, c)
    | d :: s =>
      if c.isGapAt 0 then some (text, false, c)
      else if single then
        if d = '\'' then
          if s.head? = some '\'' then quotedPiece single fuel (c.skip 2) ('\'' :: text)
          else some (text, false, c)
        else quotedPiece single fuel (c.skip 1) (d :: text)
      else if d = '"' then some (text, false, c)
      else if d = '\\' then
        if c.isAt 1 isBreak then some (text, true, (c.skip 1).skipBreak)
        else
          match escape? (c.skip 1) with
          | none => none
          | some (e, c) => quotedPiece single fuel c (e :: text)
      else quotedPiece single fuel (c.skip 1) (d :: text)

/-- Reads the pieces of a quoted scalar up to its closing quote. -/
def quotedPieces (single : Bool) : Nat → Cursor → List Char → Option (List Char × Cursor)
  | 0, _, _ => none
  | fuel + 1, c, text => do
    if c.atDocumentMark || c.atEnd then failure
    let (text, broken, c) ← quotedPiece single (c.rest.length + 1) c text
    if c.sees (if single then '\'' else '"') then return (text, c.skip 1)
    let (g, c) ← Gap.read none (c.rest.length + 1) c { broken }
    quotedPieces single fuel c (g.text.reverse ++ text)

/-- Reads a quoted scalar after its opening quote. -/
def quoted (single : Bool) (c : Cursor) : Option (String × Cursor) := do
  let (text, c) ← quotedPieces single (c.rest.length + 2) c []
  return (String.ofList text.reverse, c)

/-! ### Block scalars -/

/-- What becomes of the line breaks at the end of a block scalar. -/
inductive Chomping
  | strip
  | clip
  | keep
  deriving DecidableEq

/-- Reads the mark for the closing line breaks, if there is one. -/
def chomping (c : Cursor) : Option Chomping × Cursor :=
  if c.sees '+' then (some .keep, c.skip 1)
  else if c.sees '-' then (some .strip, c.skip 1)
  else (none, c)

/-- Reads the digit for the indentation, if there is one; it cannot be zero. -/
def increment (c : Cursor) : Option (Option Nat × Cursor) :=
  match c.rest with
  | [] => some (none, c)
  | d :: _ =>
    if d = '0' then none
    else if d.isDigit then some (some (d.toNat - '0'.toNat), c.skip 1)
    else some (none, c)

/-- Reads the two marks after the indicator, in either order. -/
def header (c : Cursor) : Option (Chomping × Option Nat × Cursor) :=
  match chomping c with
  | (some ch, c) => (increment c).map fun (n, c) => (ch, n, c)
  | (none, c) => (increment c).map fun (n, c) =>
    match n with
    | none => (.clip, none, c)
    | some n => let (ch, c) := chomping c; (ch.getD .clip, some n, c)

/-- Reads indentation and empty lines.  While the indentation is not known yet, `widest` is the
greatest that was seen. -/
def emptyLines (indent : Option Nat) :
    Nat → Cursor → Nat → List Char → Option (Nat × List Char × Cursor)
  | 0, _, _, _ => none
  | fuel + 1, c, widest, breaks =>
    let open_ (c : Cursor) : Bool := indent.all (c.column < ·)
    let spaces := (c.rest.takeWhile (· = ' ')).length
    let c := c.skip (match indent with | none => spaces | some i => min spaces (i - c.column))
    let widest := max widest c.column
    if open_ c && c.sees '\t' then none
    else if c.isAt 0 isBreak then
      let (b, c) := c.takeBreak
      emptyLines indent fuel c widest (breaks ++ b)
    else some (widest, breaks, c)

/-- The lines of a block scalar read so far. -/
structure Block where
  text : List Char := []
  /-- The break at the end of the last line. -/
  first : List Char := []
  /-- The empty lines after it. -/
  more : List Char := []
  /-- Whether the last line started with a blank. -/
  spaced : Bool := false

/-- Reads the lines that are indented to `indent`; `text` is kept backwards. -/
def blockLines (literal : Bool) (indent : Nat) : Nat → Cursor → Block → Option (Block × Cursor)
  | 0, _, _ => none
  | fuel + 1, c, b =>
    if c.column = indent && !c.atEnd then do
      let spaced := c.isAt 0 isBlank
      let joint :=
        if !literal && b.first.head? = some '\n' && !b.spaced && !spaced then
          (if b.more = [] then [' '] else b.more)
        else b.first ++ b.more
      let (line, c) := c.span (!isBreak ·)
      let (first, c) := c.takeBreak
      let (_, more, c) ← emptyLines (some indent) (c.rest.length + 1) c 0 []
      blockLines literal indent fuel c
        { text := line.reverse ++ joint.reverse ++ b.text, first, more, spaced }
    else some (b, c)

/-- Reads a block scalar after its indicator; `indent` is the indentation around it. -/
def block (literal : Bool) (indent : Int) (c : Cursor) : Option (String × Cursor) := do
  let (ch, inc, c) ← header c
  let c ← c.finishLine
  let given := inc.map fun n => (if 0 ≤ indent then indent.toNat + n else n)
  let (widest, more, c) ← emptyLines given (c.rest.length + 1) c 0 []
  let width := given.getD (max widest (max (indent + 1).toNat 1))
  let (b, c) ← blockLines literal width (c.rest.length + 2) c { more }
  let tail := match ch with
    | .strip => []
    | .clip => b.first
    | .keep => b.first ++ b.more
  return (String.ofList (b.text.reverse ++ tail), c)

end Scalar

end AccountVault.Yaml
