import AccountVault.Yaml.Token

/-!
# YAML nodes

The nodes of a document as they are written: scalars, sequences and mappings, some of them under an
anchor, and aliases that stand for an anchored node.
-/

namespace AccountVault.Yaml

/-- What may stand before the content of a node. -/
structure Properties where
  anchor : Option Nat := none
  tag : Option Tag := none
  deriving DecidableEq, Repr

/-- A node.  Anchors go by numbers instead of names. -/
inductive Node
  /-- An alias. -/
  | reference (anchor : Nat)
  | scalar (properties : Properties) (text : String) (style : Style)
  | sequence (properties : Properties) (items : List Node)
  | mapping (properties : Properties) (pairs : List (Node × Node))
  deriving Repr

namespace Node

instance : Inhabited Node := ⟨reference 0⟩

/-- A node that was left out. -/
def empty (p : Properties) : Node := scalar p "" .plain

mutual

/-- The anchored nodes within a node, an outer one before those inside it. -/
def anchored : Node → List (Nat × Node)
  | reference _ => []
  | scalar p text style => p.anchor.toList.map fun a => (a, scalar p text style)
  | sequence p items => (p.anchor.toList.map fun a => (a, sequence p items)) ++ anchoredItems items
  | mapping p pairs => (p.anchor.toList.map fun a => (a, mapping p pairs)) ++ anchoredPairs pairs

def anchoredItems : List Node → List (Nat × Node)
  | [] => []
  | n :: ns => anchored n ++ anchoredItems ns

def anchoredPairs : List (Node × Node) → List (Nat × Node)
  | [] => []
  | (k, v) :: ps => anchored k ++ anchored v ++ anchoredPairs ps

end

mutual

/-- The weight of a node: a container counts twice, all else once. -/
def weight : Node → Nat
  | sequence _ items => 2 + itemsWeight items
  | mapping _ pairs => 2 + pairsWeight pairs
  | _ => 1

def itemsWeight : List Node → Nat
  | [] => 0
  | n :: ns => weight n + itemsWeight ns

def pairsWeight : List (Node × Node) → Nat
  | [] => 0
  | (k, v) :: ps => weight k + weight v + pairsWeight ps

end

end Node

end AccountVault.Yaml
