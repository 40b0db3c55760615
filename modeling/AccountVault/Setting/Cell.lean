import AccountVault.Problem
import AccountVault.Setting.Layer

/-!
# Cells

A cell is a value together with the layer it came from, or it is unset.  The type leaves no room for
a value without a layer, or a layer without a value; `Cell.define` is where a source given from
outside is turned into a layer or refused.
-/

namespace AccountVault

/-- A value and the layer it came from, or no value. -/
inductive Cell
  | unset
  | defined (value : Value) (layer : Layer)
  deriving DecidableEq, Repr

namespace Cell

instance : Inhabited Cell := ⟨unset⟩

def value? : Cell → Option Value
  | unset => none
  | defined v _ => some v

def source : Cell → Source
  | unset => none
  | defined _ l => some l

def kind (c : Cell) : Kind := c.value?.map Value.type

def isSet (c : Cell) : Bool := c.value?.isSome

/-- The cell of a value from a given source; a value cannot come from nowhere. -/
def define (v : Value) : Source → Except Problem Cell
  | none => .error (.invalid .sourceless)
  | some l => .ok (defined v l)

/-- The same value under another layer; what is unset stays so. -/
def retag (layer : Layer) : Cell → Cell
  | unset => unset
  | defined v _ => defined v layer

/-- The value read as `expected`, nothing where the cell is unset.  A value that cannot be read so
is a mismatch, reported for `key`. -/
def read (c : Cell) (key : String) (expected : Kind) : Except Problem (Option Value) :=
  match c with
  | unset => .ok none
  | defined v _ =>
    match v.widen expected with
    | .ok w => .ok (some w)
    | .error found => .error (.typeMismatch key expected (some found.type))

/-- A cell is unset exactly when it has no source. -/
theorem isSet_iff_source (c : Cell) : c.isSet = true ↔ c.source ≠ none := by
  cases c <;> simp [isSet, value?, source]

@[simp] theorem isSet_defined (v : Value) (l : Layer) : (defined v l).isSet = true := rfl

@[simp] theorem isSet_unset : unset.isSet = false := rfl

@[simp] theorem isSet_retag (l : Layer) (c : Cell) : (c.retag l).isSet = c.isSet := by
  cases c <;> rfl

end Cell

end AccountVault
