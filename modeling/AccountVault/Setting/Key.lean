import AccountVault.Problem
import AccountVault.Text.Alphanumeric

/-!
# Keys and names

A settings key is a dotted identifier: one or more non-empty segments of letters, digits, `_` and
`-`, joined by single dots.  `Key.check` decides that in the order in which faults are reported.
A name, of a provider or a service, starts with a letter or digit and goes on with those or with
`_`, `.` and `-`.
-/

namespace AccountVault

namespace Key

/-- The longest key, in bytes of UTF-8, where no options say otherwise. -/
def defaultLimit : Nat := 256

/-- The characters of a segment. -/
def isSegmentChar (c : Char) : Bool := Text.isAlphanumeric c || c = '_' || c = '-'

/-- Whether a text is one segment. -/
def isSegment (s : List Char) : Bool := s ≠ [] ∧ s.all isSegmentChar = true

/-- The parts between the dots; there is always one more part than there are dots. -/
def segments : List Char → List (List Char)
  | [] => [[]]
  | c :: s =>
    if c = '.' then [] :: segments s
    else match segments s with
      | [] => [[c]]
      | t :: ts => (c :: t) :: ts

/-- The fault of the first segment that has one; being empty comes before a wrong character. -/
def segmentFault? (key : String) : List (List Char) → Option Invalid
  | [] => none
  | s :: rest =>
    if s = [] then some (.emptySegment key)
    else if s.all isSegmentChar then segmentFault? key rest
    else some (.keyCharacter key)

/-- What is wrong with a key of at most `limit` bytes, if anything. -/
def fault? (key : String) (limit : Nat) : Option Invalid :=
  if key = "" then some .emptyKey
  else if key.utf8ByteSize > limit then some (.longKey key limit)
  else segmentFault? key (segments key.toList)

/-- Accepts a key of at most `limit` bytes of UTF-8. -/
def check (key : String) (limit : Nat) : Except Problem Unit :=
  match fault? key limit with
  | none => .ok ()
  | some cause => .error (.invalid cause)

theorem check_eq_ok_iff {key : String} {limit : Nat} :
    check key limit = .ok () ↔ fault? key limit = none := by
  unfold check
  split <;> simp_all

theorem segmentFault?_eq_none_iff {key : String} {l : List (List Char)} :
    segmentFault? key l = none ↔ ∀ s ∈ l, isSegment s = true := by
  induction l with
  | nil => simp [segmentFault?]
  | cons s rest ih =>
    simp only [segmentFault?, List.mem_cons, forall_eq_or_imp]
    by_cases hs : s = []
    · simp [hs, isSegment]
    · cases ha : s.all isSegmentChar
      · simp [hs, ha, isSegment]
      · simp [hs, ha, isSegment, ih]

end Key

namespace Name

/-- The characters of a name. -/
def isNameChar (c : Char) : Bool := Text.isAlphanumeric c || c = '_' || c = '.' || c = '-'

/-- What is wrong with a name, if anything; `kind` says what it would be the name of. -/
def fault? (kind name : String) : Option Invalid :=
  match name.toList with
  | [] => some (.emptyName kind)
  | c :: s =>
    if !Text.isAlphanumeric c then some (.nameStart kind name)
    else if (c :: s).all isNameChar then none
    else some (.nameCharacter kind name)

/-- Accepts the name of a `kind`. -/
def check (kind name : String) : Except Problem Unit :=
  match fault? kind name with
  | none => .ok ()
  | some cause => .error (.invalid cause)

end Name

end AccountVault
