import AccountVault.Yaml.Double
import AccountVault.Yaml.Tree

/-!
# YAML data

What a tree means when nothing is known about the type that is wanted.  A plain scalar is null, a truth
value, a number or else a text, by the way it is written; other scalars are texts.  A tag of the
standard kinds is checked, and a local tag makes a datum of its own.
-/

namespace AccountVault.Yaml

inductive Datum
  | null
  | boolean (b : Bool)
  | integer (n : Int)
  | real (x : Double)
  | text (s : String)
  | sequence (items : List Datum)
  | mapping (pairs : List (Datum × Datum))
  | tagged (kind : String) (content : Datum)
  deriving Repr

/-! ### Scalars -/

namespace Scalar

def isNull (s : String) : Bool := s ∈ ["~", "null", "Null", "NULL"]

def boolean? (s : String) : Option Bool :=
  if s ∈ ["true", "True", "TRUE"] then some true
  else if s ∈ ["false", "False", "FALSE"] then some false
  else none

/-- The number that digits write in a base of at most 16. -/
def inBase? (base : Nat) (s : List Char) : Option Nat := do
  let ds ← s.mapM hexValue?
  if ds = [] ∨ ds.any (base ≤ ·) then none
  else return ds.foldl (fun acc d => acc * base + d) 0

/-- Several decimal digits of which the first is zero. -/
def isZeroLed (s : List Char) : Bool := 1 < s.length && s.head? = some '0' && s.all Char.isDigit

/-- The number behind the sign of an integer. -/
def magnitude? : List Char → Option Nat
  | '0' :: 'x' :: s => inBase? 16 s
  | '0' :: 'o' :: s => inBase? 8 s
  | '0' :: 'b' :: s => inBase? 2 s
  | s => if isZeroLed s then none else inBase? 10 s

/-- The integer that a text writes. -/
def integer? : List Char → Option Int
  | '-' :: s => (magnitude? s).map fun n => -(n : Int)
  | '+' :: s => (magnitude? s).map fun n => (n : Int)
  | s => (magnitude? s).map fun n => (n : Int)

/-- Whether an integer fits in 64 bits, with or without sign. -/
def isWord (n : Int) : Bool := Int64.minValue.toInt ≤ n && n < UInt64.size

/-- Whether an integer fits in 128 bits, with or without sign. -/
def isDoubleWord (n : Int) : Bool :=
  Int64.minValue.toInt * UInt64.size ≤ n && n < UInt64.size * UInt64.size

/-- The floating-point number that a text writes.  Only the words for infinity stand for something that
is not finite. -/
def real? (s : String) : Option Double :=
  if s ∈ [".inf", ".Inf", ".INF", "+.inf", "+.Inf", "+.INF"] then some (.infinite false)
  else if s ∈ ["-.inf", "-.Inf", "-.INF"] then some (.infinite true)
  else if s ∈ [".nan", ".NaN", ".NAN"] then some .undefined
  else
    match Double.ofText? s.toList with
    | some (.finite n) => some (.finite n)
    | _ => none

/-- A plain scalar without a tag.  An integer that fits in 128 bits but not in 64 is a fault. -/
def resolve (s : String) : Option Datum :=
  if s = "" || isNull s then some .null
  else
    match boolean? s with
    | some b => some (.boolean b)
    | none =>
      match (integer? s.toList).filter isDoubleWord with
      | some n => if isWord n then some (.integer n) else none
      | none =>
        let digits := (Double.sign s.toList).2
        match if isZeroLed digits then none else real? s with
        | some x => some (.real x)
        | none => some (.text s)

/-- A scalar whose tag is not a local one. -/
def datum? (tag : Option Tag) (s : String) (style : Style) : Option Datum :=
  match tag with
  | none => if style = .plain then resolve s else some (.text s)
  | some tag =>
    if tag = .standard "bool" then (boolean? s).map .boolean
    else if tag = .standard "int" then ((integer? s.toList).filter isWord).map .integer
    else if tag = .standard "float" then (real? s).map .real
    else if tag = .standard "null" then (if isNull s then some .null else none)
    else some (.text s)

end Scalar

/-! ### Trees -/

namespace Datum

mutual

/-- Whether two data are the same; the order of a mapping does not count. -/
def same : Datum → Datum → Bool
  | null, null => true
  | boolean a, boolean b => a = b
  | integer a, integer b => a = b
  | real a, real b => a = b
  | text a, text b => a = b
  | sequence as, sequence bs => sameItems as bs
  | mapping as, mapping bs => as.length = bs.length && samePairs as bs
  | tagged s a, tagged t b => Tag.unmarked s = Tag.unmarked t && same a b
  | _, _ => false

def sameItems : List Datum → List Datum → Bool
  | [], [] => true
  | a :: as, b :: bs => same a b && sameItems as bs
  | _, _ => false

/-- Whether each pair has one like it in the other mapping. -/
def samePairs : List (Datum × Datum) → List (Datum × Datum) → Bool
  | [], _ => true
  | (k, v) :: as, bs => bs.any (fun b => same k b.1 && same v b.2) && samePairs as bs

end

/-- Whether no key occurs twice. -/
def distinctKeys : List (Datum × Datum) → Bool
  | [] => true
  | (k, _) :: ps => !ps.any (fun p => same k p.1) && distinctKeys ps

/-- A datum under a tag, if the tag is that of a local kind. -/
def withTag (tag : Option Tag) (d : Datum) : Datum :=
  match tag.bind Tag.localName? with
  | some kind => tagged kind d
  | none => d

end Datum

namespace Tree

mutual

/-- The datum that a tree writes. -/
def datum? : Tree → Option Datum
  | scalar tag s style =>
    if tag.any Tag.isMarked then (Scalar.datum? none s style).map (Datum.withTag tag)
    else Scalar.datum? tag s style
  | sequence tag items => (itemData? items).map fun ds => Datum.withTag tag (.sequence ds)
  | mapping tag pairs => do
    let ps ← pairData? pairs
    if Datum.distinctKeys ps then some (Datum.withTag tag (.mapping ps)) else none

def itemData? : List Tree → Option (List Datum)
  | [] => some []
  | t :: ts => do return (← datum? t) :: (← itemData? ts)

def pairData? : List (Tree × Tree) → Option (List (Datum × Datum))
  | [] => some []
  | (k, v) :: ps => do return (← datum? k, ← datum? v) :: (← pairData? ps)

end

end Tree

end AccountVault.Yaml
