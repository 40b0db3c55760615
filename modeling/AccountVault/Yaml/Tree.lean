import AccountVault.Yaml.Node.Builder
import AccountVault.Yaml.Token.Stream

/-!
# YAML trees

A tree is a document with its aliases replaced by the nodes that they stand for.  `Tree.parse?` reads
one from a text.  Collections may be nested `Tree.depthLimit` deep, and the number of aliases that may
be followed is bounded by the size of the document.
-/

namespace AccountVault.Yaml

inductive Tree
  | scalar (tag : Option Tag) (text : String) (style : Style)
  | sequence (tag : Option Tag) (items : List Tree)
  | mapping (tag : Option Tag) (pairs : List (Tree × Tree))
  deriving Repr

namespace Tree

instance : Inhabited Tree := ⟨scalar none "" .plain⟩

/-- How deep collections may be nested. -/
def depthLimit : Nat := 128

/-- How many aliases may be followed for each unit of a document's weight. -/
def jumpsPerUnit : Nat := 100

/-- The node behind an alias, the last one under its number; the state counts the aliases that may
still be followed. -/
def follow (targets : List (Nat × Node)) : Node → StateT Nat Option Node
  | .reference a => do
    match ← get with
    | 0 => failure
    | n + 1 =>
      set n
      (targets.reverse.lookup a : Option Node)
  | n => return n

/-- Replaces the aliases in a node that may hold collections nested to a depth. -/
def expand (targets : List (Nat × Node)) : Nat → Node → StateT Nat Option Tree
  | depth, n => do
    match ← follow targets n, depth with
    | .scalar p text style, _ => return .scalar p.tag text style
    | .sequence p items, depth + 1 => return .sequence p.tag (← items.mapM (expand targets depth))
    | .mapping p pairs, depth + 1 =>
      let pairs ← pairs.mapM fun q => do
        let k ← expand targets depth q.1
        return (k, ← expand targets depth q.2)
      return .mapping p.tag pairs
    | _, _ => failure

/-- The tree of a document. -/
def ofNode? (root : Node) : Option Tree :=
  ((expand root.anchored depthLimit root).run (jumpsPerUnit * root.weight)).map (·.1)

/-- The tree of a text that holds one document; one without content is an empty scalar. -/
def parse? (text : String) : Option Tree := do
  let tokens ← tokens? text.toList
  let root ← Node.ofTokens? tokens
  ofNode? root

end Tree

end AccountVault.Yaml
