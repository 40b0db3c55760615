/-!
# A place in a YAML text

A cursor is the text that is left together with the place reached: the number of bytes read, the line,
and the column in the line, which counts characters.  The classes of characters are those of YAML 1.1.
-/

namespace AccountVault.Yaml

/-- Line feed, carriage return, next line, line separator or paragraph separator. -/
def isBreak (c : Char) : Bool :=
  c = '\n' || c = '\r' || c = '\u0085' || c = '\u2028' || c = '\u2029'

/-- Space or tab. -/
def isBlank (c : Char) : Bool := c = ' ' || c = '\t'

/-- The characters of anchors and tag handles. -/
def isWordChar (c : Char) : Bool := c.isAlphanum || c = '_' || c = '-'

/-- The characters that a text may consist of. -/
def isPermitted (c : Char) : Bool :=
  c = '\t' || c = '\n' || c = '\r' || (' ' ≤ c && c ≤ '~') || c = '\u0085' ||
    ('\u00a0' ≤ c && c ≤ '\ufffd') || 0x10000 ≤ c.toNat

structure Cursor where
  rest : List Char
  index : Nat := 0
  line : Nat := 0
  column : Nat := 0

namespace Cursor

def atEnd (c : Cursor) : Bool := c.rest.isEmpty

/-- Whether the character `n` places ahead is there and in a class. -/
def isAt (c : Cursor) (n : Nat) (p : Char → Bool) : Bool := (c.rest[n]?).any p

/-- Whether the next character is `d`. -/
def sees (c : Cursor) (d : Char) : Bool := c.isAt 0 (· = d)

/-- Whether `n` places ahead there is a blank, a line break or the end. -/
def isGapAt (c : Cursor) (n : Nat) : Bool := (c.rest[n]?).all fun d => isBlank d || isBreak d

/-- Moves on by `n` characters of the same line. -/
def skip (c : Cursor) (n : Nat) : Cursor :=
  { c with
    rest := c.rest.drop n
    index := (c.rest.take n).foldl (fun i d => i + d.utf8Size) c.index
    column := c.column + n }

/-- The characters in a class up to the first that is not, and the cursor behind them. -/
def span (c : Cursor) (p : Char → Bool) : List Char × Cursor :=
  let cs := c.rest.takeWhile p
  (cs, c.skip cs.length)

def skipWhile (c : Cursor) (p : Char → Bool) : Cursor := (c.span p).2

/-- Moves over a line break, if there is one, and gives the break as it counts in a scalar: a line
feed, except for the line and paragraph separators. -/
def takeBreak (c : Cursor) : List Char × Cursor :=
  match c.rest with
  | '\r' :: '\n' :: s => (['\n'], ⟨s, c.index + 2, c.line + 1, 0⟩)
  | d :: s =>
    if isBreak d then
      ([if d = '\u2028' ∨ d = '\u2029' then d else '\n'], ⟨s, c.index + d.utf8Size, c.line + 1, 0⟩)
    else ([], c)
  | [] => ([], c)

def skipBreak (c : Cursor) : Cursor := c.takeBreak.2

/-- Whether a line starts here with `---` or `...`. -/
def atDocumentMark (c : Cursor) : Bool :=
  c.column = 0 && (['-', '-', '-'].isPrefixOf c.rest || ['.', '.', '.'].isPrefixOf c.rest) &&
    c.isGapAt 3

/-- Moves over blanks and a comment up to the end of the line, if nothing else is there. -/
def finishLine (c : Cursor) : Option Cursor :=
  let c := c.skipWhile isBlank
  let c := if c.sees '#' then c.skipWhile (!isBreak ·) else c
  if c.atEnd || c.isAt 0 isBreak then some c.skipBreak else none

end Cursor

end AccountVault.Yaml
