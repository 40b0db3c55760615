import AccountVault.Proofs.Account.Edits
import AccountVault.Proofs.Json.RoundTrip
import AccountVault.Record.Format

/-!
# Records are read back

A record survives being written as bytes and read again, and an account survives being put into a
record and rebuilt, but for what a record does not keep.  Main statements: `Record.decode_encode`,
`Record.toAccount_ofAccount` and `Record.ofAccount_account`.
-/

namespace AccountVault

namespace Json

/-! ### Typed parts -/

@[simp] theorem text?_text (s : String) : (text s).text? = some s := rfl

@[simp] theorem optionalText?_text (s : String) : (text s).optionalText? = some (some s) := rfl

@[simp] theorem word?_text (s : String) : (text s).word? = some s := rfl

@[simp] theorem boolean?_boolean (b : Bool) : (boolean b).boolean? = some b := rfl

@[simp] theorem int?_int (n : Int) : (int n).int? = some n := Number.int?_integral n

@[simp] theorem id?_int (n : AccountId) : (int n.toNat).id? = some n := by
  rw [id?, int?_int, Option.bind_some, if_pos (Int.natCast_nonneg _), Int.toNat_natCast,
    Word.nat64?_toNat]

@[simp] theorem int32?_int (n : Int32) : (int n.toInt).int32? = some n := by simp [int32?]

@[simp] theorem int64?_int (n : Int64) : (int n.toInt).int64? = some n := by simp [int64?]

@[simp] theorem textList?_array (items : List String) :
    (array (items.map text)).textList? = some items := by
  induction items with
  | nil => rfl
  | cons s items ih => simp_all [textList?]

theorem foldl_insert_toList {α : Type} (m : Std.ExtTreeMap String α) :
    m.toList.foldl (fun acc p => acc.insert p.1 p.2) ∅ = m := by
  rw [← Std.ExtTreeMap.ofList_eq_foldl]
  refine Std.ExtTreeMap.ext_getElem? fun k => ?_
  cases h : m[k]? with
  | some v =>
    exact Std.ExtTreeMap.getElem?_ofList_of_mem Std.ReflCmp.compare_self
      Std.ExtTreeMap.distinct_keys_toList (Std.ExtTreeMap.mem_toList_iff_getElem?_eq_some.2 h)
  | none =>
    refine Std.ExtTreeMap.getElem?_ofList_of_contains_eq_false ?_
    rw [Std.ExtTreeMap.map_fst_toList_eq_keys, Std.ExtTreeMap.contains_keys,
      Std.ExtTreeMap.contains_eq_isSome_getElem?, h]
    rfl

/-- A map is read back, if its values are. -/
theorem map?_ofMap {α : Type} {f : α → Json} {g : Json → Option α} (h : ∀ v, g (f v) = some v)
    (m : Std.ExtTreeMap String α) : (ofMap f m).map? g = some m := by
  have key : ∀ (l : List (String × α)) (acc : Std.ExtTreeMap String α),
      (l.map fun p => ((some p.1, f p.2) : Option String × Json)).foldlM (fun m p => do
        let name ← p.1
        let v ← g p.2
        return m.insert name v) acc = some (l.foldl (fun acc p => acc.insert p.1 p.2) acc) := by
    intro l
    induction l with
    | nil => exact fun _ => rfl
    | cons p l ih =>
      intro acc
      rw [List.map_cons, List.foldlM_cons, List.foldl_cons, ← ih]
      simp [h]
  have hm := key m.toList ∅
  rw [foldl_insert_toList] at hm
  simpa [ofMap, record, map?, Function.comp_def] using hm

end Json

theorem Value.ofJson?_toJson (v : Value) : Value.ofJson? v.toJson = some v := by
  have hf : v.toJson.fields? ["type", "data"] = some [some (.text v.type.name), some v.dataToJson] := by
    simp [Value.toJson, Json.record, Json.fields?, Json.names?]
  have ht : Value.typeWord? v.toJson (.text v.type.name) = some v.type.name := rfl
  rw [Value.ofJson?, hf]
  simp only [Option.bind_eq_bind, Option.bind_some, ht, ValueType.ofName?_name]
  cases v <;> simp [Value.dataToJson, Value.type, Value.ofData?]

theorem StoredCell.ofJson?_toJson (c : StoredCell) : StoredCell.ofJson? c.toJson = some c := by
  have hf : c.toJson.fields? ["source", "value"] =
      some [some (.text (Source.name c.source)), some c.value.toJson] := by
    simp [StoredCell.toJson, Json.record, Json.fields?, Json.names?]
  rw [StoredCell.ofJson?, hf]
  simp [Source.ofName?_name, Value.ofJson?_toJson]

theorem BindingRecord.ofJson?_toJson (r : BindingRecord) :
    BindingRecord.ofJson? r.toJson = some r := by
  have hf : r.toJson.fields? ["provider_type", "enabled", "settings"] =
      some [some (.text r.providerType), some (.boolean r.enabled),
        some (.ofMap StoredCell.toJson r.settings)] := by
    simp [BindingRecord.toJson, Json.record, Json.fields?, Json.names?]
  rw [BindingRecord.ofJson?, hf]
  simp [Json.map?_ofMap StoredCell.ofJson?_toJson]

namespace Record

theorem ofJson?_toJson (r : Record) : ofJson? r.toJson = some r := by
  obtain ⟨id, provider, displayName, enabled, settings, services⟩ := r
  cases displayName with
  | none =>
    simp [ofJson?, toJson, Json.record, Json.fields?, Json.names?,
      Json.map?_ofMap StoredCell.ofJson?_toJson, Json.map?_ofMap BindingRecord.ofJson?_toJson]
  | some name =>
    simp [ofJson?, toJson, Json.record, Json.fields?, Json.names?,
      Json.map?_ofMap StoredCell.ofJson?_toJson, Json.map?_ofMap BindingRecord.ofJson?_toJson]

/-- The bytes of a record hold that record. -/
theorem decode_encode (r : Record) : decode r.encode = .ok r := by
  rw [decode, encode, Json.parse_print, Option.bind_some, ofJson?_toJson]

end Record

/-! ### Accounts and their records -/

/-- A table made of set cells under distinct keys holds exactly those. -/
theorem Table.get?_ofList_eq_some_iff {l : List (String × Cell)}
    (hd : l.Pairwise fun p q => p.1 ≠ q.1) (hs : ∀ p ∈ l, p.2.isSet = true) {key : String} {c : Cell} :
    (ofList l).get? key = some c ↔ (key, c) ∈ l := by
  have main : ∀ (l : List (String × Cell)) (t : Table), (l.Pairwise fun p q => p.1 ≠ q.1) →
      (∀ p ∈ l, p.2.isSet = true) →
      ((l.foldl (fun t p => t.set p.1 p.2) t).get? key = some c ↔
        (key, c) ∈ l ∨ (t.get? key = some c ∧ ∀ p ∈ l, p.1 ≠ key)) := by
    intro l
    induction l with
    | nil => simp
    | cons p l ih =>
      intro t hd hs
      obtain ⟨hp, hd⟩ := List.pairwise_cons.1 hd
      obtain ⟨hset, hs⟩ := List.forall_mem_cons.1 hs
      rw [List.foldl_cons, ih _ hd hs, get?_set, hset, List.mem_cons, List.forall_mem_cons]
      by_cases hk : p.1 = key
      · subst hk
        have hfresh : (p.1, c) ∉ l := fun hc => hp _ hc rfl
        constructor
        · rintro (hc | ⟨hc, -⟩)
          · exact absurd hc hfresh
          · exact .inl (.inl (Prod.ext rfl (by simpa using hc.symm)))
        · rintro ((hc | hc) | ⟨-, hne, -⟩)
          · exact .inr ⟨by rw [← hc]; simp, fun q hq => (hp q hq).symm⟩
          · exact absurd hc hfresh
          · exact absurd rfl hne
      · have hne : (key, c) ≠ p := fun h => hk (by rw [← h])
        simp [hk, hne]
  have h := main l ∅ hd hs
  rw [get?_empty] at h
  simpa [ofList] using h

theorem Table.ofList_toList {t : Table} (h : t.AllSet) : ofList t.toList = t := by
  refine Table.ext fun key => Option.ext fun c => ?_
  refine (get?_ofList_eq_some_iff ?_ fun p hp => h p.1 p.2 (mem_toList_iff.1 hp)).trans
    mem_toList_iff
  refine Std.ExtTreeMap.distinct_keys_toList.imp fun hne heq => hne ?_
  rw [heq]
  exact Std.ReflCmp.compare_self

/-- The cell of a kept value, unset where it came from nowhere. -/
def StoredCell.cell (s : StoredCell) : Cell := (s.source.map (Cell.defined s.value)).getD .unset

theorem StoredCell.toCell_of_source {s : StoredCell} (h : s.source ≠ none) :
    s.toCell = .ok s.cell := by
  obtain ⟨source, value⟩ := s
  cases source with
  | none => exact absurd rfl h
  | some l => rfl

theorem StoredCell.source_of_toCell {s : StoredCell} {c : Cell} (h : s.toCell = .ok c) :
    s.source ≠ none := by
  rintro hs
  rw [toCell, hs] at h
  exact absurd h (by simp [Cell.define])

theorem StoredCell.isSet_cell {s : StoredCell} (h : s.source ≠ none) : s.cell.isSet = true := by
  obtain ⟨source, value⟩ := s
  cases source with
  | none => exact absurd rfl h
  | some l => rfl

theorem StoredCell.ofCell?_cell {s : StoredCell} (h : s.source ≠ none) : ofCell? s.cell = some s := by
  obtain ⟨source, value⟩ := s
  cases source with
  | none => exact absurd rfl h
  | some l => rfl

/-- Nothing in the record of a table came from nowhere. -/
def Sourced (m : Std.ExtTreeMap String StoredCell) : Prop :=
  ∀ (key : String) (s : StoredCell), m[key]? = some s → s.source ≠ none

namespace Record

theorem getElem?_ofTable (t : Table) (key : String) :
    (ofTable t)[key]? = (t.get? key).bind StoredCell.ofCell? := by
  rw [ofTable, Std.ExtTreeMap.getElem?_filterMap']
  rfl

/-- The table that a record of one stands for. -/
def table (m : Std.ExtTreeMap String StoredCell) : Table := ⟨m.map fun _ s => s.cell⟩

theorem get?_table (m : Std.ExtTreeMap String StoredCell) (key : String) :
    (table m).get? key = m[key]?.map StoredCell.cell := Std.ExtTreeMap.getElem?_map

theorem allSet_table {m : Std.ExtTreeMap String StoredCell} (h : Sourced m) : (table m).AllSet := by
  intro key c hc
  rw [get?_table, Option.map_eq_some_iff] at hc
  obtain ⟨s, hs, rfl⟩ := hc
  exact StoredCell.isSet_cell (h key s hs)

theorem ofTable_table {m : Std.ExtTreeMap String StoredCell} (h : Sourced m) :
    ofTable (table m) = m := by
  refine Std.ExtTreeMap.ext_getElem? fun key => ?_
  rw [getElem?_ofTable, get?_table]
  cases hs : m[key]? with
  | none => rfl
  | some s => exact StoredCell.ofCell?_cell (h key s hs)

theorem table_ofTable {t : Table} (h : t.AllSet) : table (ofTable t) = t := by
  refine Table.ext fun key => ?_
  rw [get?_table, getElem?_ofTable]
  cases hc : t.get? key with
  | none => rfl
  | some c =>
    cases c with
    | unset => exact absurd (h key _ hc) (by simp)
    | defined v l => rfl

theorem mapM_toCell {l : List (String × StoredCell)} (h : ∀ p ∈ l, p.2.source ≠ none) :
    l.mapM (fun p => (do return (p.1, ← p.2.toCell) : Except Problem (String × Cell))) =
      .ok (l.map fun p => (p.1, p.2.cell)) := by
  induction l with
  | nil => rfl
  | cons p l ih =>
    obtain ⟨hp, hl⟩ := List.forall_mem_cons.1 h
    rw [List.mapM_cons, ih hl, StoredCell.toCell_of_source hp]
    rfl

theorem source_of_mapM_toCell {l : List (String × StoredCell)} {cells : List (String × Cell)}
    (h : l.mapM (fun p => (do return (p.1, ← p.2.toCell) : Except Problem (String × Cell))) =
      .ok cells) : ∀ p ∈ l, p.2.source ≠ none := by
  induction l generalizing cells with
  | nil => exact fun _ hp => absurd hp List.not_mem_nil
  | cons p l ih =>
    rw [List.mapM_cons] at h
    cases hp : p.2.toCell with
    | error e => rw [hp] at h; exact absurd h (by simp [bind, Except.bind])
    | ok c =>
      cases hl : l.mapM fun p => (do return (p.1, ← p.2.toCell) : Except Problem _) with
      | error e => rw [hp, hl] at h; exact absurd h (by simp [bind, Except.bind, pure, Except.pure])
      | ok cs => exact List.forall_mem_cons.2 ⟨StoredCell.source_of_toCell hp, ih hl⟩

/-- The record of a table is rebuilt exactly if nothing in it came from nowhere. -/
theorem toTable_eq_ok_iff {m : Std.ExtTreeMap String StoredCell} {t : Table} :
    toTable m = .ok t ↔ Sourced m ∧ t = table m := by
  have hmem : Sourced m ↔ ∀ p ∈ m.toList, p.2.source ≠ none :=
    ⟨fun h p hp => h p.1 p.2 (Std.ExtTreeMap.mem_toList_iff_getElem?_eq_some.1 hp),
      fun h key s hs => h (key, s) (Std.ExtTreeMap.mem_toList_iff_getElem?_eq_some.2 hs)⟩
  by_cases h : Sourced m
  · have hlist : (m.toList.map fun p => (p.1, p.2.cell)) = (table m).toList := by
      rw [Table.toList, table, Std.ExtTreeMap.toList_map]
    rw [toTable, mapM_toCell (hmem.1 h), hlist]
    simp [h, bind, Except.bind, pure, Except.pure, Table.ofList_toList (allSet_table h), eq_comm]
  · simp only [h, false_and, iff_false]
    intro ht
    rw [toTable] at ht
    cases hm : m.toList.mapM fun p => (do return (p.1, ← p.2.toCell) : Except Problem _) with
    | error e => rw [hm] at ht; exact absurd ht (by simp [bind, Except.bind])
    | ok cells => exact h (hmem.2 (source_of_mapM_toCell hm))

/-- Nothing in a record came from nowhere. -/
structure AllSourced (r : Record) : Prop where
  settings : Sourced r.settings
  services : ∀ (name : String) (b : BindingRecord), r.services[name]? = some b → Sourced b.settings

/-- The binding that a record of one stands for. -/
def binding (name : String) (b : BindingRecord) : Binding :=
  { name, providerType := b.providerType, enabled := b.enabled, settings := table b.settings }

/-- The account that a record stands for. -/
def account (r : Record) : Account :=
  { provider := r.provider
    state := .saved
    displayName := r.displayName
    enabled := r.enabled
    settings := table r.settings
    bindings := r.services.map binding }

theorem toBinding_eq_ok_iff {name : String} {r : BindingRecord} {b : Binding} :
    toBinding name r = .ok b ↔ Sourced r.settings ∧ b = binding name r := by
  cases ht : toTable r.settings with
  | error e =>
    have hs : ¬ Sourced r.settings := fun hs => by
      rw [toTable_eq_ok_iff.2 ⟨hs, rfl⟩] at ht
      exact absurd ht (by simp)
    simp [toBinding, ht, hs, bind, Except.bind]
  | ok t =>
    obtain ⟨hs, rfl⟩ := toTable_eq_ok_iff.1 ht
    simp [toBinding, ht, hs, binding, bind, Except.bind, pure, Except.pure, eq_comm]

/-- Rebuilds a binding and adds it to some. -/
def addBinding (m : Std.ExtTreeMap String Binding) (p : String × BindingRecord) :
    Except Problem (Std.ExtTreeMap String Binding) := do
  let b ← toBinding p.1 p.2
  return m.insert p.1 b

theorem foldlM_addBinding {l : List (String × BindingRecord)}
    (h : ∀ p ∈ l, Sourced p.2.settings) (acc : Std.ExtTreeMap String Binding) :
    l.foldlM addBinding acc =
      .ok ((l.map fun p => (p.1, binding p.1 p.2)).foldl (fun acc p => acc.insert p.1 p.2) acc) := by
  induction l generalizing acc with
  | nil => rfl
  | cons p l ih =>
    obtain ⟨hp, hl⟩ := List.forall_mem_cons.1 h
    rw [List.foldlM_cons, addBinding, toBinding_eq_ok_iff.2 ⟨hp, rfl⟩]
    exact ih hl _

theorem sourced_of_foldlM_addBinding {l : List (String × BindingRecord)}
    {acc bindings : Std.ExtTreeMap String Binding} (h : l.foldlM addBinding acc = .ok bindings) :
    ∀ p ∈ l, Sourced p.2.settings := by
  induction l generalizing acc with
  | nil => exact fun _ hp => absurd hp List.not_mem_nil
  | cons p l ih =>
    rw [List.foldlM_cons, addBinding] at h
    cases hb : toBinding p.1 p.2 with
    | error e => rw [hb] at h; exact absurd h (by simp [bind, Except.bind])
    | ok b =>
      rw [hb] at h
      exact List.forall_mem_cons.2 ⟨(toBinding_eq_ok_iff.1 hb).1, ih h⟩

theorem forall_services_toList {r : Record} :
    (∀ p ∈ r.services.toList, Sourced p.2.settings) ↔
      ∀ (name : String) (b : BindingRecord), r.services[name]? = some b → Sourced b.settings :=
  ⟨fun h name b hb => h (name, b) (Std.ExtTreeMap.mem_toList_iff_getElem?_eq_some.2 hb),
    fun h p hp => h p.1 p.2 (Std.ExtTreeMap.mem_toList_iff_getElem?_eq_some.1 hp)⟩

theorem toAccount_eq (r : Record) : r.toAccount = (do
    let settings ← toTable r.settings
    let bindings ← r.services.toList.foldlM addBinding ∅
    return {
      provider := r.provider
      state := .saved
      displayName := r.displayName
      enabled := r.enabled
      settings
      bindings }) := rfl

theorem toAccount_of_allSourced {r : Record} (h : r.AllSourced) : r.toAccount = .ok r.account := by
  have hl : (r.services.toList.map fun p => (p.1, binding p.1 p.2)) =
      (r.services.map binding).toList :=
    (Std.ExtTreeMap.toList_map (f := binding) (t := r.services)).symm
  rw [toAccount_eq, toTable_eq_ok_iff.2 ⟨h.settings, rfl⟩,
    foldlM_addBinding (forall_services_toList.2 h.services), hl, Json.foldl_insert_toList]
  rfl

/-- An account is rebuilt from a record exactly if nothing in it came from nowhere. -/
theorem toAccount_eq_ok_iff {r : Record} {a : Account} :
    r.toAccount = .ok a ↔ r.AllSourced ∧ a = r.account := by
  constructor
  · intro h
    suffices hs : r.AllSourced by
      rw [toAccount_of_allSourced hs] at h
      exact ⟨hs, (Except.ok.inj h).symm⟩
    rw [toAccount_eq] at h
    cases ht : toTable r.settings with
    | error e => rw [ht] at h; exact absurd h (by simp [bind, Except.bind])
    | ok t =>
      rw [ht] at h
      refine ⟨(toTable_eq_ok_iff.1 ht).1, forall_services_toList.1 ?_⟩
      cases hb : r.services.toList.foldlM addBinding ∅ with
      | error e => rw [hb] at h; exact absurd h (by simp [bind, Except.bind])
      | ok bindings => exact sourced_of_foldlM_addBinding hb
  · rintro ⟨h, rfl⟩
    exact toAccount_of_allSourced h

theorem sourced_ofTable (t : Table) : Sourced (ofTable t) := by
  intro key s hs
  rw [getElem?_ofTable, Option.bind_eq_some_iff] at hs
  obtain ⟨c, -, hc⟩ := hs
  cases c with
  | unset => exact absurd hc (by simp [StoredCell.ofCell?])
  | defined v l => cases hc; simp

theorem services_ofAccount (id : AccountId) (a : Account) (name : String) :
    (ofAccount id a).services[name]? = a.bindings[name]?.map ofBinding :=
  Std.ExtTreeMap.getElem?_map

theorem allSourced_ofAccount (id : AccountId) (a : Account) : (ofAccount id a).AllSourced := by
  refine ⟨sourced_ofTable _, fun name b hb => ?_⟩
  rw [services_ofAccount, Option.map_eq_some_iff] at hb
  obtain ⟨b, -, rfl⟩ := hb
  exact sourced_ofTable _

theorem binding_ofBinding {b : Binding} (h : b.settings.AllSet) :
    binding b.name (ofBinding b) = b := by
  rw [binding, ofBinding, table_ofTable h]

theorem account_ofAccount {a : Account} (h : a.Tidy) (id : AccountId) :
    (ofAccount id a).account = a.settled := by
  have hb : (ofAccount id a).services.map binding = a.bindings := by
    refine Std.ExtTreeMap.ext_getElem? fun name => ?_
    rw [Std.ExtTreeMap.getElem?_map, services_ofAccount]
    cases hn : a.bindings[name]? with
    | none => rfl
    | some b =>
      obtain ⟨rfl, hs⟩ := h.bindings name b hn
      exact congrArg some (binding_ofBinding hs)
  rw [account, hb, show table (ofAccount id a).settings = a.settings from table_ofTable h.settings]
  rfl

/-- What was put into a record comes back, saved and without pending changes. -/
theorem toAccount_ofAccount {a : Account} (h : a.Tidy) (id : AccountId) :
    (ofAccount id a).toAccount = .ok a.settled := by
  rw [toAccount_of_allSourced (allSourced_ofAccount id a), account_ofAccount h]

theorem tidy_account {r : Record} (h : r.AllSourced) : r.account.Tidy := by
  refine ⟨allSet_table h.settings, fun name b hb => ?_⟩
  rw [account, Std.ExtTreeMap.getElem?_map, Option.map_eq_some_iff] at hb
  obtain ⟨c, hc, rfl⟩ := hb
  exact ⟨rfl, allSet_table (h.services name c hc)⟩

/-- An account rebuilt from a record is put into the same record again. -/
theorem ofAccount_account {r : Record} (h : r.AllSourced) : ofAccount r.id r.account = r := by
  have hs : (ofAccount r.id r.account).services = r.services := by
    refine Std.ExtTreeMap.ext_getElem? fun name => ?_
    rw [services_ofAccount, account, Std.ExtTreeMap.getElem?_map]
    cases hn : r.services[name]? with
    | none => rfl
    | some b =>
      refine congrArg some ?_
      show BindingRecord.mk _ _ (ofTable (table b.settings)) = b
      rw [ofTable_table (h.services name b hn)]
      rfl
  have ht : (ofAccount r.id r.account).settings = r.settings := ofTable_table h.settings
  calc ofAccount r.id r.account
      = { r with
          settings := (ofAccount r.id r.account).settings
          services := (ofAccount r.id r.account).services } := rfl
    _ = r := by rw [hs, ht]

end Record

end AccountVault
