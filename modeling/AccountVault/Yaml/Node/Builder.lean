import AccountVault.Yaml.Node

/-!
# Putting nodes together

`Node.ofTokens?` reads the tokens of a text that holds one document.  The block and flow forms differ
in what may be left out: a key, a value or an entry that is missing counts as an empty scalar.
-/

namespace AccountVault.Yaml

/-- The tokens that are left, and what has been said about anchors and tags. -/
structure Builder where
  tokens : List Token
  /-- The numbers of the anchors by name. -/
  anchors : List (String × Nat) := []
  /-- What tag handles stand for. -/
  handles : List (String × Bytes) := []

namespace Builder

abbrev Build := StateT Builder Option

def peek : Build (Option Token) := return (← get).tokens.head?

def skip : Build Unit := modify fun b => { b with tokens := b.tokens.tail }

/-- Whether the next token is one of some tokens. -/
def nextIn (l : List Token) : Build Bool := return (← peek).any (· ∈ l)

/-- Moves over a token if it is next, and says whether it was. -/
def take (t : Token) : Build Bool := do
  if (← peek) = some t then
    skip
    return true
  else return false

/-- Moves over a token that has to be next. -/
def expect (t : Token) : Build Unit := do
  unless ← take t do failure

/-! ### Properties -/

/-- The number of a new anchor.  A name that is used again takes the number that a new name would get
at that point. -/
def newAnchor (name : String) : Build Nat := do
  let b ← get
  let n := b.anchors.length
  set { b with anchors := (name, n) :: b.anchors.filter (·.1 ≠ name) }
  return n

/-- The tag of a suffix behind a handle. -/
def fullTag (handle : String) (suffix : Bytes) : Build Tag := do
  if handle = "" then return .ofParts [] suffix
  match (← get).handles.lookup handle with
  | some lead => return .ofParts lead suffix
  | none => failure

def anchor? : Build (Option Nat) := do
  match ← peek with
  | some (.anchor name) => skip; some <$> newAnchor name
  | _ => return none

def tag? : Build (Option Tag) := do
  match ← peek with
  | some (.tag handle suffix) => skip; some <$> fullTag handle suffix
  | _ => return none

/-- An anchor and a tag, in either order. -/
def properties : Build Properties := do
  match ← anchor? with
  | some a => return ⟨some a, ← tag?⟩
  | none =>
    let tag ← tag?
    return ⟨← anchor?, tag⟩

/-! ### Nodes -/

mutual

/-- Reads a node.  In block context it can be a block collection, and where `indentless` allows it a
sequence that is not indented. -/
def node (block indentless : Bool) : Nat → Build Node
  | 0 => failure
  | fuel + 1 => do
    if let some (.reference name) ← peek then
      skip
      match (← get).anchors.lookup name with
      | some a => return .reference a
      | none => failure
    let p ← properties
    match ← peek with
    | some (.scalar text style) =>
      skip
      return .scalar p text style
    | some .flowSequenceStart => skip; return .sequence p (← flowItems true fuel)
    | some .flowMappingStart => skip; return .mapping p (← flowPairs true fuel)
    | some t =>
      if t = .blockEntry ∧ indentless then return .sequence p (← indentlessItems fuel)
      else if t = .blockSequenceStart ∧ block then
        skip
        return .sequence p (← blockItems fuel)
      else if t = .blockMappingStart ∧ block then
        skip
        return .mapping p (← blockPairs fuel)
      else if p = {} then failure
      else return .empty p
    | none => if p = {} then failure else return .empty p

/-- Reads a node, or an empty one where one of some tokens follows. -/
def nodeUnless (ends : List Token) (block indentless : Bool) : Nat → Build Node
  | 0 => failure
  | fuel + 1 => do
    if ← nextIn ends then return .empty {}
    node block indentless fuel

/-- The entries of a block sequence, up to its end. -/
def blockItems : Nat → Build (List Node)
  | 0 => failure
  | fuel + 1 => do
    if ← take .blockEntry then
      let n ← nodeUnless [.blockEntry, .blockEnd] true false fuel
      return n :: (← blockItems fuel)
    expect .blockEnd
    return []

/-- The entries of a sequence that is not indented. -/
def indentlessItems : Nat → Build (List Node)
  | 0 => failure
  | fuel + 1 => do
    if ← take .blockEntry then
      let n ← nodeUnless [.blockEntry, .key, .value, .blockEnd] true false fuel
      return n :: (← indentlessItems fuel)
    return []

/-- The pairs of a block mapping, up to its end. -/
def blockPairs : Nat → Build (List (Node × Node))
  | 0 => failure
  | fuel + 1 => do
    if ← take .key then
      let ends := [.key, .value, .blockEnd]
      let k ← nodeUnless ends true true fuel
      let v ← if ← take .value then nodeUnless ends true true fuel else pure (.empty {})
      return (k, v) :: (← blockPairs fuel)
    expect .blockEnd
    return []

/-- The items of a flow sequence, up to its end; an item with a key is a mapping of one pair. -/
def flowItems (first : Bool) : Nat → Build (List Node)
  | 0 => failure
  | fuel + 1 => do
    if ← take .flowSequenceEnd then return []
    unless first do expect .flowEntry
    if ← take .key then
      let p ← flowPair fuel
      return .mapping {} [p] :: (← flowItems false fuel)
    if ← take .flowSequenceEnd then return []
    let n ← node false false fuel
    return n :: (← flowItems false fuel)

/-- A pair inside a flow sequence.  Where the key is left out, the token that shows it is used up. -/
def flowPair : Nat → Build (Node × Node)
  | 0 => failure
  | fuel + 1 => do
    let k ← if ← nextIn [.value, .flowEntry, .flowSequenceEnd] then
        skip
        pure (.empty {})
      else node false false fuel
    let v ← if ← take .value then
        nodeUnless [.flowEntry, .flowSequenceEnd] false false fuel
      else pure (.empty {})
    return (k, v)

/-- The pairs of a flow mapping, up to its end. -/
def flowPairs (first : Bool) : Nat → Build (List (Node × Node))
  | 0 => failure
  | fuel + 1 => do
    if ← take .flowMappingEnd then return []
    unless first do expect .flowEntry
    if ← take .key then
      let k ← nodeUnless [.value, .flowEntry, .flowMappingEnd] false false fuel
      let v ← if ← take .value then
          nodeUnless [.flowEntry, .flowMappingEnd] false false fuel
        else pure (.empty {})
      return (k, v) :: (← flowPairs false fuel)
    if ← take .flowMappingEnd then return []
    let k ← node false false fuel
    return (k, .empty {}) :: (← flowPairs false fuel)

end

/-! ### Documents -/

/-- What tag handles stand for unless a directive says otherwise. -/
def standardHandles : List (String × Bytes) := [("!", Tag.lone), ("!!", Tag.standardLead)]

/-- Reads directives: at most one version, which has to be 1.1 or 1.2, and each handle once. -/
def directives (version : Bool) : Nat → Build Unit
  | 0 => failure
  | fuel + 1 => do
    match ← peek with
    | some (.version major minor) =>
      skip
      if version ∨ major ≠ 1 ∨ minor ∉ [1, 2] then failure
      directives true fuel
    | some (.tagHandle handle lead) =>
      skip
      let b ← get
      if (b.handles.lookup handle).isSome then failure
      set { b with handles := (handle, lead) :: b.handles }
      directives version fuel
    | _ => modify fun b => { b with handles := b.handles ++ standardHandles }

def isDirective : Token → Bool
  | .version _ _ => true
  | .tagHandle _ _ => true
  | _ => false

/-- Moves over the marks that end a document. -/
def documentEnds : Nat → Build Unit
  | 0 => return ()
  | fuel + 1 => do
    if ← take .documentEnd then documentEnds fuel

/-- Reads the only document: an empty scalar if it has no content. -/
def document (fuel : Nat) : Build Node := do
  match ← peek with
  | none => return .empty {}
  | some t =>
    let explicit := isDirective t || t = .documentStart
    directives false fuel
    if explicit then expect .documentStart
    let bare ← match ← peek with
      | none => pure true
      | some t => pure (isDirective t || t = .documentStart || t = .documentEnd)
    let n ← if explicit && bare then pure (.empty {}) else node true false fuel
    documentEnds fuel
    if (← peek).isSome then failure
    return n

end Builder

/-- The root of the one document that some tokens make up. -/
def Node.ofTokens? (tokens : List Token) : Option Node :=
  ((Builder.document (4 * tokens.length + 8)).run { tokens }).map (·.1)

end AccountVault.Yaml
