import AccountVault.Yaml.Token.Word

/-!
# Cutting a text into tokens

`tokens?` cuts a whole text.  In block context the columns of lines open and close collections: the
`indents` are the columns of the open ones.  A scalar or flow collection may turn out to be a key when
a colon follows on the same line within 1024 bytes; until then the place where the key began is
remembered, one for each level of flow collections, so that the key token can be put in there.
-/

namespace AccountVault.Yaml

/-- A place where a key may have begun. -/
structure KeyStart where
  /-- How many tokens came before it. -/
  before : Nat
  /-- Whether nothing but a key can be meant. -/
  required : Bool
  index : Nat
  line : Nat
  column : Nat

/-- The text that is left, the tokens so far, and what bears on the next ones. -/
structure Stream where
  cursor : Cursor
  /-- The tokens so far, the last one first. -/
  out : List Token := []
  count : Nat := 0
  /-- The column of the innermost open block collection, -1 outside all. -/
  indent : Int := -1
  /-- The columns of the collections around it. -/
  indents : List Int := []
  /-- Whether a key may begin here. -/
  keyAllowed : Bool := true
  /-- The possible key of the present level of flow collections. -/
  keyStart : Option KeyStart := none
  /-- The possible keys of the levels around it. -/
  outer : List (Option KeyStart) := []

namespace Stream

def inFlow (s : Stream) : Bool := !s.outer.isEmpty

def emit (s : Stream) (t : Token) : Stream := { s with out := t :: s.out, count := s.count + 1 }

/-- Puts a token behind the first `n` tokens. -/
def emitAfter (s : Stream) (n : Nat) (t : Token) : Stream :=
  { s with out := s.out.insertIdx (s.count - n) t, count := s.count + 1 }

/-- Emits a token of `n` characters. -/
def emitSkip (s : Stream) (t : Token) (n : Nat) : Stream :=
  { s with cursor := s.cursor.skip n }.emit t

/-- Moves over blanks, comments and line breaks to the next token.  Tabs count as blanks only where no
key may begin. -/
def toNextToken : Nat → Stream → Stream
  | 0, s => s
  | fuel + 1, s =>
    let c := if s.cursor.column = 0 && s.cursor.sees '\ufeff' then s.cursor.skip 1 else s.cursor
    let tabs := s.inFlow || !s.keyAllowed
    let c := c.skipWhile fun d => d = ' ' || (tabs && d = '\t')
    let c := if c.sees '#' then c.skipWhile (!isBreak ·) else c
    if c.isAt 0 isBreak then
      toNextToken fuel { s with cursor := c.skipBreak, keyAllowed := s.keyAllowed || !s.inFlow }
    else { s with cursor := c }

/-- Whether a place is too far back for a key. -/
def isStale (c : Cursor) (k : KeyStart) : Bool := k.line < c.line || k.index + 1024 < c.index

/-- Forgets a place that is too far back; it is a fault if a key was required there. -/
def refresh (c : Cursor) : Option KeyStart → Option (Option KeyStart)
  | none => some none
  | some k => if isStale c k then (if k.required then none else some none) else some (some k)

/-- Forgets the places that are too far back, on all levels. -/
def dropStaleKeys (s : Stream) : Option Stream := do
  return {
    s with
    keyStart := ← refresh s.cursor s.keyStart
    outer := ← s.outer.mapM (refresh s.cursor) }

/-- Gives up the possible key of this level. -/
def dropKey (s : Stream) : Option Stream :=
  if s.keyStart.any (·.required) then none else some { s with keyStart := none }

/-- Remembers that a key may begin here. -/
def markKey (s : Stream) : Option Stream :=
  if s.keyAllowed then do
    let s' ← s.dropKey
    return { s' with keyStart := some {
      before := s.count
      required := !s.inFlow && s.indent = s.cursor.column
      index := s.cursor.index
      line := s.cursor.line
      column := s.cursor.column } }
  else some s

/-- Opens a block collection at a column to the right of the open ones; its token goes behind the
first `n` tokens. -/
def openBlock (s : Stream) (column : Nat) (n : Nat) (t : Token) : Stream :=
  if !s.inFlow && s.indent < column then
    { s with indent := column, indents := s.indent :: s.indents }.emitAfter n t
  else s

/-- Closes the collections to the right of a column; `indents` holds those that can be left. -/
def closeBlocks (column : Int) : List Int → Stream → Stream
  | [], s => s
  | i :: rest, s =>
    if column < s.indent then
      closeBlocks column rest ({ s with indent := i, indents := rest }.emit .blockEnd)
    else s

/-- Closes the collections to the right of a column, in block context. -/
def unroll (s : Stream) (column : Int) : Stream :=
  if s.inFlow then s else closeBlocks column s.indents s

def documentMark (s : Stream) (t : Token) : Option Stream := do
  let s ← (s.unroll (-1)).dropKey
  return { s with keyAllowed := false }.emitSkip t 3

def directive (s : Stream) : Option Stream := do
  let s ← (s.unroll (-1)).dropKey
  let (t, cursor) ← Word.directive s.cursor
  return { s with cursor, keyAllowed := false }.emit t

def openFlow (s : Stream) (t : Token) : Option Stream := do
  let s ← s.markKey
  return { s with outer := s.keyStart :: s.outer, keyStart := none, keyAllowed := true }.emitSkip t 1

def closeFlow (s : Stream) (t : Token) : Option Stream := do
  let s ← s.dropKey
  let s := match s.outer with
    | [] => s
    | k :: rest => { s with keyStart := k, outer := rest }
  return { s with keyAllowed := false }.emitSkip t 1

def flowEntry (s : Stream) : Option Stream := do
  let s ← s.dropKey
  return { s with keyAllowed := true }.emitSkip .flowEntry 1

def blockEntry (s : Stream) : Option Stream := do
  if !s.inFlow && !s.keyAllowed then none
  let s ← (s.openBlock s.cursor.column s.count .blockSequenceStart).dropKey
  return { s with keyAllowed := true }.emitSkip .blockEntry 1

def explicitKey (s : Stream) : Option Stream := do
  if !s.inFlow && !s.keyAllowed then none
  let s ← (s.openBlock s.cursor.column s.count .blockMappingStart).dropKey
  return { s with keyAllowed := !s.inFlow }.emitSkip .key 1

/-- A colon: where a key was possible, its token is put in before it. -/
def mappingValue (s : Stream) : Option Stream :=
  match s.keyStart with
  | some k =>
    let s := (s.emitAfter k.before .key).openBlock k.column k.before .blockMappingStart
    some ({ s with keyStart := none, keyAllowed := false }.emitSkip .value 1)
  | none =>
    if !s.inFlow && !s.keyAllowed then none
    else
      let s := s.openBlock s.cursor.column s.count .blockMappingStart
      some ({ s with keyAllowed := !s.inFlow }.emitSkip .value 1)

def nodeName (s : Stream) (t : String → Token) : Option Stream := do
  let s ← s.markKey
  let (name, cursor) ← Word.name (s.cursor.skip 1)
  return { s with cursor, keyAllowed := false }.emit (t name)

def nodeTag (s : Stream) : Option Stream := do
  let s ← s.markKey
  let (handle, suffix, cursor) ← Word.tag s.inFlow s.cursor
  return { s with cursor, keyAllowed := false }.emit (.tag handle suffix)

def blockScalar (s : Stream) (style : Style) : Option Stream := do
  let s ← s.dropKey
  let (text, cursor) ← Scalar.block (style = .literal) s.indent (s.cursor.skip 1)
  return { s with cursor, keyAllowed := true }.emit (.scalar text style)

def quotedScalar (s : Stream) (style : Style) : Option Stream := do
  let s ← s.markKey
  let (text, cursor) ← Scalar.quoted (style = .singleQuoted) (s.cursor.skip 1)
  return { s with cursor, keyAllowed := false }.emit (.scalar text style)

def plainScalar (s : Stream) : Option Stream := do
  let s ← s.markKey
  let (text, broken, cursor) ← Scalar.plain s.inFlow (s.indent + 1) s.cursor
  return { s with cursor, keyAllowed := broken }.emit (.scalar text .plain)

/-- Whether a plain scalar can begin with `d`; an indicator can begin one where no blank follows. -/
def startsPlain (s : Stream) (d : Char) : Bool :=
  if d = '-' then !s.cursor.isAt 1 isBlank
  else if d = '?' || d = ':' then !s.inFlow && !s.cursor.isGapAt 1
  else !isBlank d &&
    d ∉ [',', '[', ']', '{', '}', '#', '&', '*', '!', '|', '>', '\'', '"', '%', '@', '\x60']

/-- Reads the token that begins with `d`. -/
def token (s : Stream) (d : Char) : Option Stream :=
  let gap := s.cursor.isGapAt 1
  if s.cursor.column = 0 && d = '%' then s.directive
  else if s.cursor.atDocumentMark then
    s.documentMark (if d = '-' then .documentStart else .documentEnd)
  else if d = '[' then s.openFlow .flowSequenceStart
  else if d = '{' then s.openFlow .flowMappingStart
  else if d = ']' then s.closeFlow .flowSequenceEnd
  else if d = '}' then s.closeFlow .flowMappingEnd
  else if d = ',' then s.flowEntry
  else if d = '-' && gap then s.blockEntry
  else if d = '?' && (s.inFlow || gap) then s.explicitKey
  else if d = ':' && (s.inFlow || gap) then s.mappingValue
  else if d = '*' then s.nodeName .reference
  else if d = '&' then s.nodeName .anchor
  else if d = '!' then s.nodeTag
  else if d = '|' && !s.inFlow then s.blockScalar .literal
  else if d = '>' && !s.inFlow then s.blockScalar .folded
  else if d = '\'' then s.quotedScalar .singleQuoted
  else if d = '"' then s.quotedScalar .doubleQuoted
  else if s.startsPlain d then s.plainScalar
  else none

/-- Closes everything at the end of the text. -/
def finish (s : Stream) : Option (List Token) := do
  let s ← (s.unroll (-1)).dropKey
  return s.out.reverse

/-- Reads tokens to the end of the text; `fuel` bounds their number. -/
def run : Nat → Stream → Option (List Token)
  | 0, _ => none
  | fuel + 1, s => do
    let s ← (s.toNextToken (s.cursor.rest.length + 1)).dropStaleKeys
    let s := s.unroll s.cursor.column
    match s.cursor.rest with
    | [] => s.finish
    | d :: _ => run fuel (← s.token d)

end Stream

/-- The tokens of a text. -/
def tokens? (text : List Char) : Option (List Token) :=
  if text.all isPermitted then
    Stream.run (text.length + 1) { cursor := { rest := text } }
  else none

end AccountVault.Yaml
