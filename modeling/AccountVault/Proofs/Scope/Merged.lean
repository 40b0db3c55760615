import AccountVault.Scope.Lookup

/-!
# The merged view

`Layers.effective` collects the keys of all layers of a scope, and `Layers.lookup` goes through the cells
of one key.  A key is collected exactly where some layer has a cell for the lookup
(`Layers.mem_definedKeys_iff`), so that the merged view and single lookups never differ.  Main statement:
`Layers.effective_agrees_with_lookup`.
-/

namespace AccountVault

namespace Table

theorem hasPrefix_iff {lead : Option String} {key : String} :
    hasPrefix lead key = true ↔ ∀ p ∈ lead, p.toList <+: key.toList := by
  cases lead with
  | none => simp [hasPrefix]
  | some p => simp [hasPrefix]

/-- The table of some keys, each with the cell that a function gives for it. -/
theorem get?_ofList_map (f : String → Cell) (keys : List String) (key : String) :
    (ofList (keys.map fun k => (k, f k))).get? key =
      if key ∈ keys ∧ (f key).isSet = true then some (f key) else none := by
  have hfold : ∀ (keys : List String) (t : Table),
      ((keys.map fun k => (k, f k)).foldl (fun t p => t.set p.1 p.2) t).get? key =
        if key ∈ keys then (if (f key).isSet then some (f key) else none) else t.get? key := by
    intro keys
    induction keys with
    | nil => exact fun t => rfl
    | cons k keys ih =>
      intro t
      rw [List.map_cons, List.foldl_cons, ih, get?_set]
      by_cases hk : k = key
      · subst hk
        by_cases hmem : k ∈ keys <;> simp [hmem]
      · simp [Ne.symm hk, hk]
  rw [ofList, hfold, get?_empty]
  by_cases hmem : key ∈ keys <;> simp [hmem]

/-- The keys of a table that may be missing. -/
theorem mem_keys_getD_iff {α : Type} {o : Option α} {table : α → Table} {key : String} :
    key ∈ (o.map fun x => (table x).keys).getD [] ↔
      (o.bind fun x => (table x).get? key).isSome = true := by
  cases o with
  | none => simp
  | some x => exact mem_keys_iff

end Table

namespace Layers

variable {l : Layers} {scope : Scope} {key name : String}

/-! ### Which keys are collected -/

theorem mem_definedKeys_account :
    key ∈ l.definedKeys .account ↔ (l.catalog.globalDefault? key).isSome = true ∨
      (l.catalog.providerDefault? l.account.provider key).isSome = true ∨
        (l.account.settings.get? key).isSome = true := by
  have hglobal : key ∈ l.catalog.globals.keys ↔ (l.catalog.globalDefault? key).isSome = true :=
    Table.mem_keys_iff
  have hprovider : key ∈ ((l.catalog.provider? l.account.provider).map (·.defaults.keys)).getD [] ↔
      (l.catalog.providerDefault? l.account.provider key).isSome = true := Table.mem_keys_getD_iff
  simp only [definedKeys, List.mem_append, hglobal, hprovider, Table.mem_keys_iff, or_assoc]

/-- The scope of a service has three more tables: the template, what the service holds and what is
forced. -/
theorem mem_definedKeys_service :
    key ∈ l.definedKeys (.service name) ↔ key ∈ l.definedKeys .account ∨
      (l.catalog.serviceDefault? name key).isSome = true ∨ (l.bound? name key).isSome = true ∨
        (l.forced? name key).isSome = true := by
  have hsplit : l.definedKeys (.service name) = l.definedKeys .account ++
      ((l.catalog.template? name).map (·.defaults.keys)).getD [] ++
      (l.account.settingsOf (.service name)).keys ++ (l.overrides.table name).keys := rfl
  have htemplate : key ∈ ((l.catalog.template? name).map (·.defaults.keys)).getD [] ↔
      (l.catalog.serviceDefault? name key).isSome = true := Table.mem_keys_getD_iff
  have hbound : key ∈ (l.account.settingsOf (.service name)).keys ↔
      (l.bound? name key).isSome = true := Table.mem_keys_iff
  have hforced : key ∈ (l.overrides.table name).keys ↔ (l.forced? name key).isSome = true :=
    Table.mem_keys_iff
  rw [hsplit]
  simp only [List.mem_append, htemplate, hbound, hforced, or_assoc]

theorem mem_definedKeys_service_of_account (h : key ∈ l.definedKeys .account) (name : String) :
    key ∈ l.definedKeys (.service name) :=
  mem_definedKeys_service.2 (.inl h)

/-- A key is collected exactly where a lookup meets a cell. -/
theorem mem_definedKeys_iff :
    key ∈ l.definedKeys scope ↔ ∃ o ∈ l.candidates scope key, o.isSome = true := by
  cases scope with
  | account =>
    rw [mem_definedKeys_account]
    simp only [candidates, List.mem_cons, List.not_mem_nil, or_false, exists_eq_or_imp,
      exists_eq_left, Option.isSome_map]
    -- the same layers, in another order
    grind
  | service name =>
    rw [mem_definedKeys_service, mem_definedKeys_account]
    -- a strong cell of the service is met twice
    have hstrong : ((l.bound? name key).filter isStrong).isSome = true →
        (l.bound? name key).isSome = true := by
      cases l.bound? name key <;> simp
    simp only [candidates, List.cons_append, List.nil_append, List.mem_cons, List.not_mem_nil,
      or_false, exists_eq_or_imp, exists_eq_left, Option.isSome_map]
    grind

/-! ### What is seen under them -/

/-- The first cell that is there is set, if those that come first are and one of them is there. -/
theorem isSet_findSome? {first : List (Option Cell)} (rest : List (Option Cell))
    (hset : ∀ cell, some cell ∈ first → cell.isSet = true) (hsome : ∃ cell, some cell ∈ first) :
    (((first ++ rest).findSome? id).getD .unset).isSet = true := by
  rw [List.findSome?_append]
  cases hfound : first.findSome? id with
  | none =>
    obtain ⟨cell, hcell⟩ := hsome
    exact absurd (List.findSome?_eq_none_iff.1 hfound _ hcell) (by simp)
  | some cell =>
    obtain ⟨o, ho, hcell⟩ := List.exists_of_findSome?_eq_some hfound
    exact hset cell (hcell ▸ ho)

theorem mem_definedKeys_of_isSet (h : (l.lookup scope key).isSet = true) :
    key ∈ l.definedKeys scope := by
  rw [mem_definedKeys_iff]
  cases hfound : (l.candidates scope key).findSome? id with
  | none => simp [lookup, hfound] at h
  | some cell =>
    obtain ⟨o, ho, hcell⟩ := List.exists_of_findSome?_eq_some hfound
    exact ⟨o, ho, Option.isSome_iff_exists.2 ⟨cell, hcell⟩⟩

theorem mem_keys_effective {lead : Option String} :
    key ∈ (l.effective scope lead).keys ↔
      key ∈ l.definedKeys scope ∧ Table.hasPrefix lead key = true ∧
        (l.lookup scope key).isSet = true := by
  rw [Table.mem_keys_iff, effective, Table.get?_ofList_map, ← and_assoc, ← List.mem_filter]
  split
  · next h => exact ⟨fun _ => h, fun _ => rfl⟩
  · next h => exact ⟨fun hnone => absurd hnone (by simp), fun h' => absurd h' h⟩

/-- The value under a key that begins with the lead is the one that a lookup finds. -/
theorem bind_value?_effective {lead : Option String} (hlead : Table.hasPrefix lead key = true) :
    ((l.effective scope lead).get? key).bind Cell.value? = (l.lookup scope key).value? := by
  rw [effective, Table.get?_ofList_map]
  cases hcell : l.lookup scope key with
  | unset => simp [Cell.value?]
  | defined v layer =>
    have hset : (l.lookup scope key).isSet = true := by
      rw [hcell]
      rfl
    have hkept := List.mem_filter.2 ⟨mem_definedKeys_of_isSet hset, hlead⟩
    simp [hkept]

/-- The merged view of a scope holds a key exactly if it has the beginning that is asked for and a
lookup finds a value under it, and then it holds the cell that the lookup finds. -/
theorem effective_agrees_with_lookup (l : Layers) (scope : Scope) (lead : Option String)
    (key : String) :
    (l.effective scope lead).get? key =
      if Table.hasPrefix lead key = true ∧ (l.lookup scope key).isSet = true then
        some (l.lookup scope key)
      else none := by
  have hkept : (key ∈ (l.definedKeys scope).filter (Table.hasPrefix lead) ∧
      (l.lookup scope key).isSet = true) ↔
        Table.hasPrefix lead key = true ∧ (l.lookup scope key).isSet = true := by
    rw [List.mem_filter]
    constructor
    · rintro ⟨⟨-, hlead⟩, hset⟩
      exact ⟨hlead, hset⟩
    · rintro ⟨hlead, hset⟩
      exact ⟨⟨mem_definedKeys_of_isSet hset, hlead⟩, hset⟩
  rw [effective, Table.get?_ofList_map]
  simp only [hkept]

end Layers

end AccountVault
