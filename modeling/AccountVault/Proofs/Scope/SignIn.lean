import AccountVault.Proofs.Scope.Merged
import AccountVault.Proofs.Scope.Ranking
import AccountVault.Proofs.Setting.Segments
import AccountVault.Proofs.System.Filling

/-!
# Signing in

The parameters of credentials are gathered from the view of the account's scope and then from that of
the service's.  Where every cell is set (`Layers.AllSet`), whatever the first sees the second sees too, in
its own way, so that the second pass decides alone.  The lead of the parameters is two whole segments
after `auth`, which a key cannot share with another method or mechanism.  Main statement:
`credentials_are_what_service_sees`.
-/

namespace AccountVault

namespace Layers

variable {l : Layers} {scope : Scope} {key : String}

/-- Every table that a lookup can consult holds set cells only, as tables do that are built by setting
and removing; those of a vault always do (`Contents.allSet_layers_run`). -/
structure AllSet (l : Layers) : Prop where
  catalog : l.catalog.AllSet
  forced : ∀ service, (l.overrides.table service).AllSet
  stored : ∀ scope, (l.account.settingsOf scope).AllSet

namespace AllSet

theorem isSet_of_candidate (h : l.AllSet) {cell : Cell} (hcell : some cell ∈ l.candidates scope key) :
    cell.isSet = true := by
  have hretag : ∀ {o : Option Cell} {layer : Layer}, (∀ cell, o = some cell → cell.isSet = true) →
      some cell = o.map (Cell.retag layer) → cell.isSet = true := by
    intro o layer ho heq
    obtain ⟨cell', hcell', rfl⟩ := Option.map_eq_some_iff.1 heq.symm
    rw [Cell.isSet_retag]
    exact ho cell' hcell'
  have hdeclared : some cell ∈
      [(l.catalog.providerDefault? l.account.provider key).map (Cell.retag .providerDefault),
        (l.catalog.globalDefault? key).map (Cell.retag .globalDefault)] → cell.isSet = true := by
    intro hmem
    rcases List.mem_cons.1 hmem with hprovider | hmem
    · exact hretag (fun _ => h.catalog.isSet_providerDefault) hprovider
    · exact hretag (fun _ => h.catalog.isSet_globalDefault) (List.mem_singleton.1 hmem)
  have hstored : ∀ scope, some cell = l.account.stored? scope key → cell.isSet = true :=
    fun scope heq => h.stored scope key cell heq.symm
  cases scope with
  | account =>
    rcases List.mem_cons.1 hcell with haccount | hmem
    · exact hstored .account haccount
    · exact hdeclared hmem
  | service name =>
    simp only [candidates, List.cons_append, List.nil_append] at hcell
    rcases List.mem_cons.1 hcell with hforced | hcell
    · exact h.forced name key cell hforced.symm
    rcases List.mem_cons.1 hcell with hstrong | hcell
    · exact hstored _ (Option.filter_eq_some_iff.1 hstrong.symm).1.symm
    rcases List.mem_cons.1 hcell with haccount | hcell
    · exact hstored .account haccount
    rcases List.mem_cons.1 hcell with hbound | hcell
    · exact hstored _ hbound
    rcases List.mem_cons.1 hcell with htemplate | hmem
    · exact hretag (fun _ => h.catalog.isSet_serviceDefault) htemplate
    · exact hdeclared hmem

/-- Every key that is collected has a value to be seen. -/
theorem isSet_lookup_iff (h : l.AllSet) :
    (l.lookup scope key).isSet = true ↔ key ∈ l.definedKeys scope := by
  refine ⟨mem_definedKeys_of_isSet, fun hkey => ?_⟩
  obtain ⟨o, ho, hsome⟩ := mem_definedKeys_iff.1 hkey
  obtain ⟨cell, rfl⟩ := Option.isSome_iff_exists.1 hsome
  have hset := isSet_findSome? [] (fun _ => h.isSet_of_candidate) ⟨cell, ho⟩
  rwa [List.append_nil] at hset

/-- Whatever the account's scope sees a value under, so does the scope of a service. -/
theorem isSet_lookup_service (h : l.AllSet) (hset : (l.lookup .account key).isSet = true)
    (name : String) : (l.lookup (.service name) key).isSet = true :=
  h.isSet_lookup_iff.2 (mem_definedKeys_service_of_account (h.isSet_lookup_iff.1 hset) name)

end AllSet

/-! ### Texts -/

/-- A question for a text is answered where there is a text, or nothing. -/
theorem exists_resolve_text_iff (l : Layers) (scope : Scope) (key fallback : String) :
    (∃ r, l.resolve scope key .text fallback = .ok r) ↔
      (l.lookup scope key).kind = none ∨ (l.lookup scope key).kind = some .text := by
  cases hcell : l.lookup scope key with
  | unset => simp [resolve_of_lookup_unset hcell, Cell.kind, Cell.value?]
  | defined v layer =>
    rw [resolve_of_lookup_defined hcell]
    cases v <;> simp [Layer.answer, Value.at?, Value.as?, Cell.kind, Cell.value?, Value.type]

variable {t : ValueType} {fallback : t.Carrier} {r : Resolved t.Carrier}

/-- What an answer comes from: the caller's default, or a value in some layer. -/
theorem resolve_eq_ok_iff : l.resolve scope key t fallback = .ok r ↔
    (l.lookup scope key = .unset ∧ r = ⟨fallback, none⟩) ∨
      ∃ v layer p, l.lookup scope key = .defined v layer ∧ v.at? t = some p ∧ r = ⟨p, some layer⟩ := by
  cases hcell : l.lookup scope key with
  | unset => simp [resolve_of_lookup_unset hcell, eq_comm]
  | defined v layer =>
    rw [resolve_of_lookup_defined hcell, Layer.answer]
    cases hv : v.at? t <;> simp [hv, eq_comm]

theorem source_eq_none_iff (h : l.resolve scope key t fallback = .ok r) :
    r.source = none ↔ (l.lookup scope key).isSet = false := by
  rcases resolve_eq_ok_iff.1 h with ⟨hcell, rfl⟩ | ⟨v, layer, p, hcell, -, rfl⟩ <;> simp [hcell]

theorem value_of_source_eq_none (h : l.resolve scope key t fallback = .ok r) (hr : r.source = none) :
    r.value = fallback := by
  rcases resolve_eq_ok_iff.1 h with ⟨-, rfl⟩ | ⟨v, layer, p, -, -, rfl⟩
  · rfl
  · exact absurd hr (by simp)

/-- Where there is a value, the caller's default makes no difference. -/
theorem resolve_eq_of_source_ne_none (h : l.resolve scope key t fallback = .ok r)
    (hr : r.source ≠ none) (other : t.Carrier) : l.resolve scope key t other = .ok r := by
  rcases resolve_eq_ok_iff.1 h with ⟨-, rfl⟩ | hfound
  · exact absurd rfl hr
  · exact resolve_eq_ok_iff.2 (.inr hfound)

end Layers

/-! ### The lead of the parameters -/

namespace Credentials

variable {c c' : Credentials} {id : Int64} {method mechanism name : String}

theorem make_eq_ok_iff : make id method mechanism = .ok c ↔
    (0 ≤ id.toInt ∧ id.toInt < UInt32.size) ∧ Key.isSegment method.toList = true ∧
      Key.isSegment mechanism.toList = true ∧
      { id := UInt32.ofNat id.toInt.toNat, method, mechanism } = c := by
  unfold make
  simp only [except_guard_eq_ok_iff, pure, Except.pure, Except.ok.injEq]

/-- The method and the mechanism are one segment each. -/
structure Named (c : Credentials) : Prop where
  method : Key.isSegment c.method.toList = true
  mechanism : Key.isSegment c.mechanism.toList = true

theorem named_of_make (h : make id method mechanism = .ok c) : c.Named := by
  obtain ⟨-, hmethod, hmechanism, rfl⟩ := make_eq_ok_iff.1 h
  exact ⟨hmethod, hmechanism⟩

theorem toList_lead (c : Credentials) : c.lead.toList =
    "auth".toList ++ '.' :: (c.method.toList ++ '.' :: (c.mechanism.toList ++ ['.'])) := by
  simp [lead]

/-- A key under the lead has the method and the mechanism for its second and third segments. -/
theorem Named.segments_append_lead (h : c.Named) (s : List Char) : Key.segments (c.lead.toList ++ s) =
    "auth".toList :: c.method.toList :: c.mechanism.toList :: Key.segments s := by
  have hsplit : c.lead.toList ++ s =
      "auth".toList ++ '.' :: (c.method.toList ++ '.' :: (c.mechanism.toList ++ '.' :: s)) := by
    simp [toList_lead]
  have hauth : Key.isSegment "auth".toList = true := by decide +kernel
  rw [hsplit, Key.segments_isSegment_dot hauth, Key.segments_isSegment_dot h.method,
    Key.segments_isSegment_dot h.mechanism]

/-- No key is under the leads of two methods, or of two mechanisms. -/
theorem Named.eq_of_hasPrefix (h : c.Named) (h' : c'.Named) {key : String}
    (hkey : Table.hasPrefix (some c.lead) key = true)
    (hkey' : Table.hasPrefix (some c'.lead) key = true) :
    c.method = c'.method ∧ c.mechanism = c'.mechanism := by
  obtain ⟨s, hs⟩ := Table.hasPrefix_iff.1 hkey _ rfl
  obtain ⟨s', hs'⟩ := Table.hasPrefix_iff.1 hkey' _ rfl
  have hsegments := h.segments_append_lead s
  rw [hs, ← hs', h'.segments_append_lead] at hsegments
  simp only [List.cons.injEq, true_and] at hsegments
  exact ⟨String.ext hsegments.1.symm, String.ext hsegments.2.1.symm⟩

/-- The name of a parameter under an accepted key is itself accepted. -/
theorem check_of_check_lead {limit : Nat} (h : Key.check (c.lead ++ name) limit = .ok ()) :
    name ≠ "" ∧ Key.check name limit = .ok () := by
  have hsplit : (c.lead ++ name).toList =
      ("auth".toList ++ '.' :: (c.method.toList ++ '.' :: c.mechanism.toList)) ++
        '.' :: name.toList := by
    simp [toList_lead]
  have hname := Key.check_of_append_dot h hsplit
  exact ⟨Key.ne_empty_of_check hname, hname⟩

/-! ### Gathering -/

/-- One step of gathering: a cell goes under its name after a lead of some length. -/
def gatherCell (c : Credentials) (p : String × Cell) : Credentials :=
  match p.2.value? with
  | none => c
  | some v =>
    let name := String.ofList (p.1.toList.drop c.lead.length)
    { c with parameters := c.parameters.insert name v }

theorem gather_eq (c : Credentials) (t : Table) : c.gather t = t.toList.foldl gatherCell c := rfl

/-- Gathering changes the parameters only. -/
theorem gatherCell_eq (c : Credentials) (p : String × Cell) :
    c.gatherCell p = { c with parameters := (c.gatherCell p).parameters } := by
  unfold gatherCell
  cases p.2.value? <;> rfl

theorem foldl_gatherCell_eq (c : Credentials) (cells : List (String × Cell)) :
    cells.foldl gatherCell c = { c with parameters := (cells.foldl gatherCell c).parameters } := by
  induction cells generalizing c with
  | nil => rfl
  | cons p cells ih =>
    rw [List.foldl_cons, ih, gatherCell_eq]

theorem parameters_gatherCell (c : Credentials) (cell : Cell) (name other : String) :
    (c.gatherCell (c.lead ++ name, cell)).parameters[other]? =
      if name = other then cell.value?.or c.parameters[other]? else c.parameters[other]? := by
  have hdrop : String.ofList ((c.lead ++ name).toList.drop c.lead.length) = name := by
    rw [String.toList_append, ← String.length_toList, List.drop_left, String.ofList_toList]
  unfold gatherCell
  cases hv : cell.value? with
  | none => simp
  | some v =>
    simp only [hdrop, Std.ExtTreeMap.getElem?_insert, Std.LawfulEqCmp.compare_eq_iff_eq,
      Option.some_or]

/-- Gathering cells of different names under the lead: the cell of a name comes before what was there. -/
theorem parameters_foldl_gatherCell (cells : List (String × Cell)) :
    ∀ c : Credentials, (cells.Pairwise fun p q => p.1 ≠ q.1) →
      (∀ p ∈ cells, ∃ name, p.1 = c.lead ++ name) → ∀ name,
      (cells.foldl gatherCell c).parameters[name]? =
        ((cells.find? (·.1 = c.lead ++ name)).bind (·.2.value?)).or c.parameters[name]? := by
  induction cells with
  | nil => exact fun c _ _ name => rfl
  | cons p cells ih =>
    intro c hdistinct hlead name
    obtain ⟨hp, hcells⟩ := List.pairwise_cons.1 hdistinct
    obtain ⟨other, hother⟩ := hlead p List.mem_cons_self
    have hsame : (c.gatherCell p).lead = c.lead := by
      rw [gatherCell_eq]
      rfl
    have hrest := ih (c.gatherCell p) hcells
      (fun q hq => hsame ▸ hlead q (List.mem_cons_of_mem _ hq)) name
    rw [hsame] at hrest
    rw [List.foldl_cons, hrest]
    obtain ⟨key, cell⟩ := p
    subst hother
    rw [parameters_gatherCell]
    by_cases hname : other = name
    · -- no later cell is under this name
      subst hname
      have hnone : cells.find? (·.1 = c.lead ++ other) = none := by
        refine List.find?_eq_none.2 fun q hq heq => hp q hq ?_
        exact (of_decide_eq_true heq).symm
      simp [hnone]
    · have hkey : c.lead ++ other ≠ c.lead ++ name := by
        intro heq
        exact hname ((String.append_right_inj _).1 heq)
      simp [hname]

/-- Gathering a table whose keys are all under the lead. -/
theorem parameters_gather {t : Table} (ht : ∀ key ∈ t.keys, Table.hasPrefix (some c.lead) key = true)
    (name : String) : (c.gather t).parameters[name]? =
      ((t.get? (c.lead ++ name)).bind Cell.value?).or c.parameters[name]? := by
  have hdistinct : t.toList.Pairwise fun p q => p.1 ≠ q.1 := by
    refine Std.ExtTreeMap.distinct_keys_toList.imp fun hne heq => hne ?_
    exact Std.LawfulEqCmp.compare_eq_iff_eq.2 heq
  have hlead : ∀ p ∈ t.toList, ∃ name, p.1 = c.lead ++ name := by
    intro p hp
    have hkey : p.1 ∈ t.keys := Table.mem_keys_iff.2 (by rw [Table.mem_toList_iff.1 hp]; rfl)
    obtain ⟨s, hs⟩ := Table.hasPrefix_iff.1 (ht p.1 hkey) _ rfl
    exact ⟨String.ofList s, String.ext (by simp [← hs])⟩
  have hfind : t.toList.find? (·.1 = c.lead ++ name) =
      (t.get? (c.lead ++ name)).map fun cell => (c.lead ++ name, cell) := by
    cases hfound : t.toList.find? (·.1 = c.lead ++ name) with
    | none =>
      have hnone : t.get? (c.lead ++ name) = none := by
        refine Option.eq_none_iff_forall_ne_some.2 fun cell hcell => ?_
        exact absurd (List.find?_eq_none.1 hfound _ (Table.mem_toList_iff.2 hcell)) (by simp)
      rw [hnone]
      rfl
    | some p =>
      obtain ⟨key, cell⟩ := p
      have hkey := List.find?_some hfound
      obtain rfl : key = c.lead ++ name := of_decide_eq_true hkey
      rw [Table.mem_toList_iff.1 (List.mem_of_find?_eq_some hfound)]
      rfl
  rw [gather_eq, parameters_foldl_gatherCell _ c hdistinct hlead, hfind, Option.bind_map]
  rfl

end Credentials

/-! ### What a service signs in with -/

namespace Credentials

variable {c : Credentials}

theorem lead_gather (c : Credentials) (t : Table) : (c.gather t).lead = c.lead := by
  rw [gather_eq, foldl_gatherCell_eq]
  rfl

/-- The credentials with the parameters that a service is given. -/
def fill (c : Credentials) (l : Layers) (service : String) : Credentials :=
  let seen (scope : Scope) := l.effective scope (some c.lead)
  (c.gather (seen .account)).gather (seen (.service service))

theorem fill_eq (c : Credentials) (l : Layers) (service : String) :
    c.fill l service = { c with parameters := (c.fill l service).parameters } := by
  rw [fill, gather_eq, gather_eq, foldl_gatherCell_eq, foldl_gatherCell_eq]

/-- The second pass decides alone: what the first one has put there it puts there again, or replaces. -/
theorem parameters_fill {l : Layers} (h : l.AllSet) (hc : c.parameters = ∅) (service name : String) :
    (c.fill l service).parameters[name]? = (l.lookup (.service service) (c.lead ++ name)).value? := by
  have hunder : ∀ scope, ∀ key ∈ (l.effective scope (some c.lead)).keys,
      Table.hasPrefix (some c.lead) key = true := fun scope key hkey =>
    (Layers.mem_keys_effective.1 hkey).2.1
  have hlead : Table.hasPrefix (some c.lead) (c.lead ++ name) = true := by
    rw [Table.hasPrefix_iff]
    rintro p ⟨⟩
    simp
  have haccount := parameters_gather (hunder .account) name
  rw [Layers.bind_value?_effective hlead, hc, Std.ExtTreeMap.getElem?_empty, Option.or_none] at haccount
  have hservice := parameters_gather (c := c.gather (l.effective .account (some c.lead)))
    (t := l.effective (.service service) (some c.lead))
    (by rw [lead_gather]; exact hunder (.service service)) name
  rw [lead_gather, Layers.bind_value?_effective hlead, haccount] at hservice
  rw [fill, hservice]
  cases hseen : (l.lookup (.service service) (c.lead ++ name)).value? with
  | some v => rfl
  | none =>
    -- then the account's scope sees nothing either
    have hunset : ¬ (l.lookup .account (c.lead ++ name)).isSet = true := by
      intro hset
      have hset' := h.isSet_lookup_service hset service
      rw [Cell.isSet, hseen] at hset'
      exact absurd hset' (by simp)
    rw [Cell.isSet, Option.not_isSome_iff_eq_none] at hunset
    rw [hunset]
    rfl

end Credentials

namespace Layers

variable {l : Layers} {service : String}

theorem credentials_eq_ok_iff {o : Option Credentials} : l.credentials service = .ok o ↔
    ∃ method, l.resolve (.service service) Credentials.methodKey .text "" = .ok method ∧
    ∃ mechanism, l.resolve (.service service) Credentials.mechanismKey .text "" = .ok mechanism ∧
      ((method.source = none ∨ mechanism.source = none) ∧ o = none ∨
        ¬ (method.source = none ∨ mechanism.source = none) ∧
        ∃ id, l.resolve (.service service) Credentials.idKey .integer64 0 = .ok id ∧
        ∃ c, Credentials.make id.value method.value mechanism.value = .ok c ∧
          o = some (c.fill l service)) := by
  unfold credentials
  rw [except_bind_eq_ok_iff]
  refine exists_congr fun method => and_congr_right fun _ => ?_
  rw [except_bind_eq_ok_iff]
  refine exists_congr fun mechanism => and_congr_right fun _ => ?_
  split
  · next hnone => simp [hnone, pure, Except.pure, eq_comm]
  · next hsome =>
    simp only [hsome, false_and, not_false_eq_true, true_and, false_or, except_bind_eq_ok_iff, pure,
      Except.pure, Except.ok.injEq, eq_comm (b := o)]
    rfl

/-- There are no credentials exactly if the method and the mechanism are texts or nothing, and one of
them is nothing. -/
theorem credentials_eq_none_iff : l.credentials service = .ok none ↔
    (∀ key ∈ [Credentials.methodKey, Credentials.mechanismKey],
      (l.lookup (.service service) key).kind = none ∨
        (l.lookup (.service service) key).kind = some .text) ∧
    ∃ key ∈ [Credentials.methodKey, Credentials.mechanismKey],
      (l.lookup (.service service) key).isSet = false := by
  have htext := fun key => l.exists_resolve_text_iff (.service service) key ""
  simp only [List.mem_cons, List.not_mem_nil, or_false, forall_eq_or_imp, forall_eq,
    exists_eq_or_imp, exists_eq_left, ← htext]
  rw [credentials_eq_ok_iff]
  constructor
  · rintro ⟨method, hmethod, mechanism, hmechanism, ⟨hnone, -⟩ | ⟨-, _, -, _, -, hsome⟩⟩
    · rw [source_eq_none_iff hmethod, source_eq_none_iff hmechanism] at hnone
      exact ⟨⟨⟨method, hmethod⟩, ⟨mechanism, hmechanism⟩⟩, hnone⟩
    · exact absurd hsome (by simp)
  · rintro ⟨⟨⟨method, hmethod⟩, ⟨mechanism, hmechanism⟩⟩, hnone⟩
    rw [← source_eq_none_iff hmethod, ← source_eq_none_iff hmechanism] at hnone
    exact ⟨method, hmethod, mechanism, hmechanism, .inl ⟨hnone, rfl⟩⟩

end Layers

/-- Credentials of a service have the method, the mechanism and the id that the service's scope resolves,
the id being 0 where there is none, and their parameters are exactly the values that the service's scope
sees under the lead and a name.  A name under an accepted key is not empty and is itself an accepted key.
No key is under the leads of two methods or mechanisms.  There are no credentials exactly where the
method and the mechanism are texts or nothing, and one of them is nothing. -/
theorem credentials_are_what_service_sees {l : Layers} (h : l.AllSet) (service : String) :
    (∀ c, l.credentials service = .ok (some c) →
      (∃ source, source ≠ none ∧ ∀ fallback,
        l.resolve (.service service) "auth.method" .text fallback = .ok ⟨c.method, source⟩) ∧
      (∃ source, source ≠ none ∧ ∀ fallback,
        l.resolve (.service service) "auth.mechanism" .text fallback = .ok ⟨c.mechanism, source⟩) ∧
      (∃ id, l.resolve (.service service) "credentials_id" .integer64 0 = .ok id ∧
        id.value.toInt = c.id.toNat ∧ (id.source = none → c.id = 0)) ∧
      (∀ name v, c.parameters[name]? = some v ↔
        (l.lookup (.service service)
          ("auth." ++ c.method ++ "." ++ c.mechanism ++ "." ++ name)).value? = some v) ∧
      ∀ name limit,
        Key.check ("auth." ++ c.method ++ "." ++ c.mechanism ++ "." ++ name) limit = .ok () →
          name ≠ "" ∧ Key.check name limit = .ok ()) ∧
    (∀ id id' method method' mechanism mechanism' c c',
      Credentials.make id method mechanism = .ok c →
      Credentials.make id' method' mechanism' = .ok c' →
      (method, mechanism) ≠ (method', mechanism') →
      ∀ key, ¬ (Table.hasPrefix (some c.lead) key = true ∧
        Table.hasPrefix (some c'.lead) key = true)) ∧
    (l.credentials service = .ok none ↔
      (∀ key ∈ ["auth.method", "auth.mechanism"],
        (l.lookup (.service service) key).kind = none ∨
          (l.lookup (.service service) key).kind = some .text) ∧
      ∃ key ∈ ["auth.method", "auth.mechanism"],
        (l.lookup (.service service) key).isSet = false) := by
  refine ⟨fun c hc => ?_, fun id id' method method' mechanism mechanism' c c' hc hc' hne key => ?_,
    Layers.credentials_eq_none_iff⟩
  · obtain ⟨method, hmethod, mechanism, hmechanism, hfound⟩ := Layers.credentials_eq_ok_iff.1 hc
    obtain ⟨-, hnone⟩ | ⟨hsources, id, hid, c₀, hc₀, hfill⟩ := hfound
    · exact absurd hnone (by simp)
    rw [not_or] at hsources
    rw [Option.some.injEq] at hfill
    subst hfill
    obtain ⟨⟨hpos, hlt⟩, -, -, rfl⟩ := Credentials.make_eq_ok_iff.1 hc₀
    have hnat : (UInt32.ofNat id.value.toInt.toNat).toNat = id.value.toInt.toNat :=
      UInt32.toNat_ofNat_of_lt (by omega)
    rw [Credentials.fill_eq]
    refine ⟨⟨method.source, hsources.1, Layers.resolve_eq_of_source_ne_none hmethod hsources.1⟩,
      ⟨mechanism.source, hsources.2, Layers.resolve_eq_of_source_ne_none hmechanism hsources.2⟩,
      ⟨id, hid, by rw [hnat]; omega, fun hnone => ?_⟩, fun name v => ?_, fun name limit hkey => ?_⟩
    · show UInt32.ofNat id.value.toInt.toNat = 0
      rw [Layers.value_of_source_eq_none hid hnone]
      rfl
    · rw [Credentials.parameters_fill h rfl]
      rfl
    · exact Credentials.check_of_check_lead hkey
  · rintro ⟨hkey, hkey'⟩
    have heq := (Credentials.named_of_make hc).eq_of_hasPrefix (Credentials.named_of_make hc') hkey hkey'
    obtain ⟨-, -, -, rfl⟩ := Credentials.make_eq_ok_iff.1 hc
    obtain ⟨-, -, -, rfl⟩ := Credentials.make_eq_ok_iff.1 hc'
    exact hne (Prod.ext heq.1 heq.2)

/-- The account's scope sees one value of a parameter, the service's own stands over it, and another
parameter is forced. -/
theorem credentials_are_what_service_sees_of_override :
    let settings := Table.ofList [("auth.method", .defined (.text "oauth2") .account),
      ("auth.mechanism", .defined (.text "web") .account),
      ("auth.oauth2.web.scope", .defined (.text "read") .account)]
    let own := Table.ofList [("auth.oauth2.web.scope", .defined (.text "write") .service)]
    let account := ({ provider := "acme", settings } : Account).putBinding "mail"
      { name := "mail", providerType := "acme", settings := own }
    let overrides := (∅ : Overrides).set "mail" "auth.oauth2.web.host" (.text "h")
    let l : Layers := ⟨{}, overrides, account⟩
    (l.lookup .account "auth.oauth2.web.scope").value? = some (.text "read") ∧
      ∃ c, l.credentials "mail" = .ok (some c) ∧ c.method = "oauth2" ∧ c.mechanism = "web" ∧
        c.id = 0 ∧ c.parameters["scope"]? = some (.text "write") ∧
        c.parameters["host"]? = some (.text "h") ∧ c.parameters["user"]? = none := by
  intro settings own account overrides l
  have htidy : account.Tidy := by
    have hbare : ({ provider := "acme", settings } : Account).Tidy :=
      ⟨Table.allSet_ofList _, (Account.tidy_new "acme").bindings⟩
    exact hbare.putBinding rfl (Table.allSet_ofList _)
  have hset : l.AllSet := by
    refine ⟨Catalog.allSet_empty, fun service => ?_, fun scope key cell => htidy.isSet_of_stored?⟩
    show (((∅ : Overrides).set "mail" "auth.oauth2.web.host" (.text "h")).table service).AllSet
    rw [Overrides.table_set]
    split
    · exact Table.allSet_empty.set _ _
    · exact Table.allSet_empty
  obtain ⟨hsome, -, -⟩ := credentials_are_what_service_sees hset "mail"
  have hfound : (l.credentials "mail").toOption.join.isSome = true := by decide +kernel
  obtain ⟨c, hc⟩ : ∃ c, l.credentials "mail" = .ok (some c) := by
    cases hr : l.credentials "mail" with
    | error e => simp [hr, Except.toOption] at hfound
    | ok o =>
      cases o with
      | none => simp [hr, Except.toOption] at hfound
      | some c => exact ⟨c, rfl⟩
  obtain ⟨⟨source, -, hmethod⟩, ⟨source', -, hmechanism⟩, ⟨id, hid, -, hzero⟩, hparameters, -⟩ :=
    hsome c hc
  have hmethod' : l.resolve (.service "mail") "auth.method" .text "" =
      .ok ⟨"oauth2", some .account⟩ := by decide +kernel
  have hmechanism' : l.resolve (.service "mail") "auth.mechanism" .text "" =
      .ok ⟨"web", some .account⟩ := by decide +kernel
  have hid' : l.resolve (.service "mail") "credentials_id" .integer64 0 = .ok ⟨0, none⟩ := by
    decide +kernel
  rw [hmethod "", Except.ok.injEq, Resolved.mk.injEq] at hmethod'
  rw [hmechanism "", Except.ok.injEq, Resolved.mk.injEq] at hmechanism'
  rw [hid, Except.ok.injEq] at hid'
  subst hid'
  rw [hmethod'.1, hmechanism'.1] at hparameters
  have huser : ∀ v, c.parameters["user"]? ≠ some v := by
    intro v hv
    have hlookup := (hparameters "user" v).1 hv
    have hunset : (l.lookup (.service "mail") "auth.oauth2.web.user").value? = none := by decide +kernel
    exact absurd (hunset.symm.trans hlookup) (by simp)
  exact ⟨by decide +kernel, c, hc, hmethod'.1, hmechanism'.1, hzero rfl,
    (hparameters "scope" _).2 (by decide +kernel), (hparameters "host" _).2 (by decide +kernel),
    Option.eq_none_iff_forall_ne_some.2 huser⟩

/-! ### Layers of a vault -/

namespace Contents

variable {c : Contents} {options : Options} {catalog : Catalog} {v : Vault}

/-- Whatever a lookup consults in a vault that was opened on a declared catalog holds set cells only. -/
theorem allSet_layers_run (hv : c.opened options catalog = .ok v) (hc : catalog.Declared)
    (as : List Action) {id : AccountId} {a : Account}
    (ha : ((System.start v c).run as).vault.account? id = some a) :
    (((System.start v c).run as).vault.layers a).AllSet := by
  have hfilled : ((System.start v c).run as).vault.Filled :=
    System.filled_run (Vault.filled_of_opening hc c v hv) as
  exact ⟨hfilled.catalog, hfilled.forced,
    fun scope key cell hcell => (hfilled.accounts id a ha).isSet_of_stored? hcell⟩

end Contents

end AccountVault
