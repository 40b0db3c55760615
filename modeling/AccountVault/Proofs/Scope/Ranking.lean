import AccountVault.Proofs.Catalog.Declared
import AccountVault.Proofs.Account.Edits
import AccountVault.Vault.Query

/-!
# The strongest layer

Where every table holds cells of its own layer only (`Layers.Layered`), a lookup finds what the layer of
the highest rank holds (`Layers.resolve_of_wins`), and nothing where no layer holds anything.
-/

namespace AccountVault

/-- The layer of what is written on a scope itself. -/
def Scope.layer : Scope → Layer
  | .account => .account
  | .service _ => .service

/-- A layer holds a value, and no stronger layer holds one. -/
def Wins (held : Layer → Option Value) (l : Layer) (v : Value) : Prop :=
  held l = some v ∧ ∀ l', (held l').isSome → l'.rank ≤ l.rank

/-- What the layers below a layer hold. -/
def below (l : Layer) (held : Layer → Option Value) (l' : Layer) : Option Value :=
  if l'.rank < l.rank then held l' else none

namespace Layer

/-- The layers, the strongest first. -/
def descending : List Layer :=
  [application, service, account, template, providerDefault, globalDefault]

theorem mem_descending (l : Layer) : l ∈ descending := by
  cases l <;> decide

theorem pairwise_descending : descending.Pairwise fun a b => b.rank < a.rank := by
  decide

/-- The cell of the strongest layer that holds a value. -/
def strongest? (held : Layer → Option Value) : Option Cell :=
  descending.findSome? fun l => (held l).map fun v => .defined v l

theorem strongest?_of_wins {held : Layer → Option Value} {l : Layer} {v : Value}
    (h : Wins held l v) : strongest? held = some (.defined v l) := by
  obtain ⟨before, after, hsplit⟩ := List.append_of_mem (mem_descending l)
  have hsorted := pairwise_descending
  rw [hsplit] at hsorted
  refine List.findSome?_eq_some_iff.2 ⟨before, l, after, hsplit, by rw [h.1]; rfl, fun l' hl' => ?_⟩
  have hrank : l.rank < l'.rank :=
    (List.pairwise_append.1 hsorted).2.2 l' hl' l List.mem_cons_self
  rw [Option.map_eq_none_iff, ← Option.not_isSome_iff_eq_none]
  exact fun hsome => Nat.not_le_of_lt hrank (h.2 l' hsome)

theorem strongest?_eq_none {held : Layer → Option Value} (h : ∀ l, held l = none) :
    strongest? held = none := by
  refine List.findSome?_eq_none_iff.2 fun l _ => ?_
  rw [h l]
  rfl

end Layer

/-- The first hit in a list that is sorted by rank is the hit of the highest rank. -/
theorem exists_highest_of_findSome? {α β : Type} {rank : α → Nat} {f : α → Option β}
    {order : List α} {b : β} (hsorted : order.Pairwise fun a a' => rank a' < rank a)
    (h : order.findSome? f = some b) :
    ∃ a ∈ order, f a = some b ∧ ∀ a' ∈ order, (f a').isSome → rank a' ≤ rank a := by
  obtain ⟨before, a, after, rfl, ha, hbefore⟩ := List.findSome?_eq_some_iff.1 h
  refine ⟨a, by simp, ha, fun a' ha' hsome => ?_⟩
  rcases List.mem_append.1 ha' with hb | hb
  · exact absurd hsome (by simp [hbefore a' hb])
  · rcases List.mem_cons.1 hb with rfl | hafter
    · exact Nat.le_refl _
    · have htail := (List.pairwise_append.1 hsorted).2.1
      exact Nat.le_of_lt ((List.pairwise_cons.1 htail).1 a' hafter)

/-- Either some layer wins, or none holds anything. -/
theorem exists_wins_or (held : Layer → Option Value) :
    (∃ l v, Wins held l v) ∨ ∀ l, held l = none := by
  cases hs : Layer.strongest? held with
  | none =>
    refine .inr fun l => ?_
    have hnone := List.findSome?_eq_none_iff.1 hs l (Layer.mem_descending l)
    exact Option.map_eq_none_iff.1 hnone
  | some c =>
    obtain ⟨l, -, hl, hhighest⟩ := exists_highest_of_findSome? Layer.pairwise_descending hs
    obtain ⟨v, hv, -⟩ := Option.map_eq_some_iff.1 hl
    refine .inl ⟨l, v, hv, fun l' hl' => hhighest l' (Layer.mem_descending l') ?_⟩
    rwa [Option.isSome_map]

/-! ### Answers -/

/-- The payload of a value at a type; a 32-bit integer can be had as a 64-bit one. -/
def Value.at? : Value → (t : ValueType) → Option t.Carrier
  | integer n, .integer64 => some n.toInt64
  | v, t => v.as? t

/-- The answer to a question for a value at a type that is found in a layer. -/
def Layer.answer (l : Layer) (key : String) (t : ValueType) (v : Value) :
    Except Problem (Resolved t.Carrier) :=
  match v.at? t with
  | some p => .ok ⟨p, some l⟩
  | none => .error (.typeMismatch key (some t) (some v.type))

/-- An answer tells what the strongest of the layers holds, and which layer that is, or is the caller's
default where no layer holds anything. -/
structure Finds (held : Layer → Option Value) (key : String) (t : ValueType) (fallback : t.Carrier)
    (r : Except Problem (Resolved t.Carrier)) : Prop where
  strongest : ∀ l v, Wins held l v → r = l.answer key t v
  default : (∀ l, held l = none) → r = .ok ⟨fallback, none⟩

namespace Layers

variable {l : Layers} {scope : Scope} {key : String} {t : ValueType} {fallback : t.Carrier}

theorem resolve_of_lookup_unset (h : l.lookup scope key = .unset) :
    l.resolve scope key t fallback = .ok ⟨fallback, none⟩ := by
  rw [resolve, h]
  rfl

theorem resolve_of_lookup_defined {v : Value} {layer : Layer}
    (h : l.lookup scope key = .defined v layer) :
    l.resolve scope key t fallback = layer.answer key t v := by
  rw [resolve, h]
  cases v <;> cases t <;> rfl

/-! ### What the layers hold -/

/-- What each layer holds under a key for a scope. -/
def held (l : Layers) (scope : Scope) (key : String) : Layer → Option Value
  | .application => (scope.service?.bind (l.forced? · key)).bind Cell.value?
  | .service => (scope.service?.bind (l.bound? · key)).bind Cell.value?
  | .account => (l.account.stored? .account key).bind Cell.value?
  | .template => (scope.service?.bind (l.catalog.serviceDefault? · key)).bind Cell.value?
  | .providerDefault => (l.catalog.providerDefault? l.account.provider key).bind Cell.value?
  | .globalDefault => (l.catalog.globalDefault? key).bind Cell.value?

/-- Every cell is set, and what is forced or written is from the layer it is found in. -/
structure Layered (l : Layers) : Prop where
  forced : ∀ service key c, l.forced? service key = some c → ∃ v, c = .defined v .application
  stored : ∀ scope key c, l.account.stored? scope key = some c → ∃ v, c = .defined v scope.layer
  declared : l.catalog.AllSet

/-- The cells of a layer, read as values and put back. -/
theorem map_value?_of_layer {o : Option Cell} {layer : Layer}
    (h : ∀ c, o = some c → ∃ v, c = .defined v layer) :
    (o.bind Cell.value?).map (Cell.defined · layer) = o := by
  cases o with
  | none => rfl
  | some c =>
    obtain ⟨v, rfl⟩ := h c rfl
    rfl

/-- Cells that are set, read as values and put back under another layer. -/
theorem map_value?_retag {o : Option Cell} (layer : Layer)
    (h : ∀ c, o = some c → c.isSet = true) :
    (o.bind Cell.value?).map (Cell.defined · layer) = o.map (Cell.retag layer) := by
  cases o with
  | none => rfl
  | some c =>
    cases c with
    | unset => exact absurd (h .unset rfl) (by simp)
    | defined => rfl

/-- A lookup finds the cell of the strongest layer. -/
theorem Layered.lookup_eq (h : l.Layered) (scope : Scope) (key : String) :
    l.lookup scope key = (Layer.strongest? (l.held scope key)).getD .unset := by
  have haccount : ((l.account.stored? .account key).bind Cell.value?).map (.defined · .account) =
      l.account.settings.get? key := map_value?_of_layer (h.stored .account key)
  have hprovider := map_value?_retag (o := l.catalog.providerDefault? l.account.provider key)
    .providerDefault fun _ => h.declared.isSet_providerDefault
  have hglobal := map_value?_retag (o := l.catalog.globalDefault? key) .globalDefault
    fun _ => h.declared.isSet_globalDefault
  rw [lookup]
  congr 1
  cases scope with
  | account =>
    simp only [candidates, Layer.strongest?, Layer.descending, List.findSome?_cons, held,
      haccount, hprovider, hglobal, Scope.service?, Option.bind_none, Option.map_none]
    rfl
  | service name =>
    have hforced := map_value?_of_layer (h.forced name key)
    have hbound : ((l.bound? name key).bind Cell.value?).map (.defined · .service) =
        l.bound? name key := map_value?_of_layer (h.stored (.service name) key)
    have htemplate := map_value?_retag (o := l.catalog.serviceDefault? name key) .template
      fun _ => h.declared.isSet_serviceDefault
    -- what a service holds is strong, so that it is met before what the account holds
    have hstrong : (l.bound? name key).filter isStrong = l.bound? name key := by
      cases hc : l.bound? name key with
      | none => rfl
      | some c =>
        obtain ⟨v, rfl⟩ := h.stored (.service name) key c hc
        rfl
    simp only [candidates, hstrong, Layer.strongest?, Layer.descending, List.findSome?_cons, held,
      hforced, hbound, haccount, htemplate, hprovider, hglobal, Scope.service?, Option.bind_some]
    cases l.bound? name key <;> rfl

theorem Layered.resolve_finds (h : l.Layered) (scope : Scope) (key : String) (t : ValueType)
    (fallback : t.Carrier) :
    Finds (l.held scope key) key t fallback (l.resolve scope key t fallback) := by
  refine ⟨fun layer v hw => resolve_of_lookup_defined ?_, fun hn => resolve_of_lookup_unset ?_⟩
  · rw [h.lookup_eq, Layer.strongest?_of_wins hw]
    rfl
  · rw [h.lookup_eq, Layer.strongest?_eq_none hn]
    rfl

end Layers

end AccountVault
