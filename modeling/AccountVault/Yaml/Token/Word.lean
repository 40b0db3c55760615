import AccountVault.Yaml.Token
import AccountVault.Yaml.Token.Scalar

/-!
# Anchors, tags and directives

Reading the tokens that stand before a node or before a document.
-/

namespace AccountVault.Yaml

namespace Word

/-- Reads the name of an anchor or alias after its indicator. -/
def name (c : Cursor) : Option (String × Cursor) :=
  let (cs, c) := c.span isWordChar
  if cs.isEmpty then none
  else if c.isGapAt 0 || c.isAt 0 (· ∈ ['?', ':', ',', ']', '}', '%', '@', '\x60']) then
    some (String.ofList cs, c)
  else none

/-- The characters of a tag besides word characters and escapes. -/
def isTagChar (verbatim : Bool) (c : Char) : Bool :=
  isWordChar c ||
    c ∈ [';', '/', '?', ':', '@', '&', '=', '+', '$', '.', '!', '~', '*', '\'', '(', ')'] ||
    (verbatim && c ∈ [',', '[', ']'])

/-- Reads one escaped byte. -/
def escapedByte (c : Cursor) : Option (UInt8 × Cursor) :=
  match c.rest with
  | '%' :: a :: b :: _ => do
    return (UInt8.ofNat ((← Scalar.hexValue? a) * 16 + (← Scalar.hexValue? b)), c.skip 3)
  | _ => none

/-- Reads some escaped bytes that can follow the first of a character. -/
def escapedTail : Nat → Cursor → Option (Bytes × Cursor)
  | 0, c => some ([], c)
  | n + 1, c => do
    let (b, c) ← escapedByte c
    if b >>> 6 ≠ 0x2 then none
    let (bs, c) ← escapedTail n c
    return (b :: bs, c)

/-- Reads the escaped bytes of one character.  The first byte tells how many follow, and nothing else
has to hold of the bytes. -/
def escapedBytes (c : Cursor) : Option (Bytes × Cursor) := do
  let (b, c) ← escapedByte c
  let n ←
    if b < 0x80 then some 0
    else if b >>> 5 = 0x6 then some 1
    else if b >>> 4 = 0xe then some 2
    else if b >>> 3 = 0x1e then some 3
    else none
  let (bs, c) ← escapedTail n c
  return (b :: bs, c)

/-- Reads the characters of a tag, which can be none, as bytes. -/
def tagBytes (verbatim : Bool) : Nat → Cursor → Option (Bytes × Cursor)
  | 0, _ => none
  | fuel + 1, c =>
    if c.sees '%' then do
      let (bs, c) ← escapedBytes c
      let (more, c) ← tagBytes verbatim fuel c
      return (bs ++ more, c)
    else
      match c.rest with
      | d :: _ =>
        if isTagChar verbatim d then do
          let (more, c) ← tagBytes verbatim fuel (c.skip 1)
          return (Text.utf8 d.toString ++ more, c)
        else some ([], c)
      | [] => some ([], c)

/-- Reads a tag handle, such as `!` or `!e!`, or what turns out to be the start of a tag. -/
def handle (c : Cursor) : Option (List Char × Cursor) :=
  if c.sees '!' then
    let (cs, c) := (c.skip 1).span isWordChar
    if c.sees '!' then some ('!' :: cs ++ ['!'], c.skip 1) else some ('!' :: cs, c)
  else none

/-- Reads a tag: its handle and what follows the handle.  The lone mark has no handle; a zero makes one
of whatever comes after it. -/
def tag (inFlow : Bool) (c : Cursor) : Option (String × Bytes × Cursor) := do
  let (h, suffix, c) ←
    if c.isAt 1 (· = '<') then do
      let (s, c) ← tagBytes true (c.rest.length + 1) (c.skip 2)
      if s.isEmpty || !c.sees '>' then none
      else some ([], s, c.skip 1)
    else do
      let (h, c) ← handle c
      let (s, c) ← tagBytes false (c.rest.length + 1) c
      if 2 ≤ h.length ∧ h.getLast? = some '!' then
        if s.isEmpty then none else some (h, s, c)
      else
        let s := Text.utf8 (String.ofList (h.drop 1)) ++ s
        if (Tag.untilZero s).isEmpty then some ([], Tag.lone, c) else some (['!'], s, c)
  if (inFlow && c.sees ',') || c.isGapAt 0 then
    return (String.ofList h, suffix, c)
  else none

/-- Reads a number of at most nine digits. -/
def versionNumber (c : Cursor) : Option (Nat × Cursor) :=
  let (ds, c) := c.span Char.isDigit
  if ds.isEmpty ∨ 9 < ds.length then none else some (Nat.ofDigitChars 10 ds 0, c)

/-- Reads a directive, which takes up its whole line. -/
def directive (c : Cursor) : Option (Token × Cursor) := do
  let (name, c) := (c.skip 1).span isWordChar
  if name.isEmpty || !c.isGapAt 0 then none
  let c := c.skipWhile isBlank
  let (token, c) ←
    if name = "YAML".toList then do
      let (major, c) ← versionNumber c
      if !c.sees '.' then none
      let (minor, c) ← versionNumber (c.skip 1)
      some (Token.version major minor, c)
    else if name = "TAG".toList then do
      let (h, c) ← handle c
      if h ≠ ['!'] ∧ (h.length < 2 ∨ h.getLast? ≠ some '!') then none
      if !c.isAt 0 isBlank then none
      let c := c.skipWhile isBlank
      let (lead, c) ← tagBytes true (c.rest.length + 1) c
      if lead.isEmpty || !c.isGapAt 0 then none
      some (Token.tagHandle (String.ofList h) lead, c)
    else none
  return (token, ← c.finishLine)

end Word

end AccountVault.Yaml
