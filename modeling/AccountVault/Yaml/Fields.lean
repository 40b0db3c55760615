import AccountVault.Yaml.Datum

/-!
# Typed parts of YAML trees

How structures, maps, texts, switches and counts stand in YAML when their type is known.  The way a
scalar is written then matters less than for data without a type: any scalar is a text.
-/

namespace AccountVault.Yaml.Tree

/-- The text of a scalar. -/
def text? : Tree → Option String
  | scalar _ s _ => some s
  | _ => none

/-- A text, or none where null is written. -/
def optionalText? : Tree → Option (Option String)
  | scalar tag s style =>
    if style ≠ .plain then some (some s)
    else
      match tag with
      | some t =>
        if t = .standard "null" then
          if Scalar.isNull s then some none else none
        else some (some s)
      | none => if s = "" || Scalar.isNull s then some none else some (some s)
  | _ => none

/-- The text of a scalar that can stand for a value of the standard kind `kind`. -/
def word? (kind : String) : Tree → Option String
  | scalar tag s style =>
    if style = .plain ∨ (style = .literal ∧ tag = some (.standard kind)) then some s
    else none
  | _ => none

def boolean? (t : Tree) : Option Bool := (t.word? "bool").bind Scalar.boolean?

/-- A number without sign that fits in 64 bits. -/
def count? (t : Tree) : Option Nat := do
  let s := (← t.word? "int").toList
  let n ← Scalar.magnitude? (if s.head? = some '+' then s.drop 1 else s)
  if n < UInt64.size then some n else none

/-- The pairs of a mapping; an empty plain scalar stands for a mapping without pairs. -/
def pairs? : Tree → Option (List (Tree × Tree))
  | mapping _ pairs => some pairs
  | scalar _ s style => if s = "" ∧ style = .plain then some [] else none
  | _ => none

/-- The entries of a map under text keys, in the order in which they are written. -/
def entries? (t : Tree) : Option (List (String × Tree)) := do
  (← t.pairs?).mapM fun p => do return (← p.1.text?, p.2)

/-- The fields of a structure under given names, `none` where one is missing.  No other field and no
field twice may be there. -/
def fields? (names : List String) (t : Tree) : Option (List (Option Tree)) := do
  let present ← t.entries?
  let keys := present.map (·.1)
  if keys.all (fun k => k ∈ names ∧ keys.count k ≤ 1) then
    return names.map fun n => present.lookup n
  else none

end AccountVault.Yaml.Tree
