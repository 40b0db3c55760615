import AccountVault.Proofs.Catalog.Places
import Mathlib.Data.List.Forall2

/-!
# Definitions and declarations

A document makes one declaration for each of its settings and types (`Definitions.Declares`), and its
catalog holds what the same declarations make of the empty catalog, in whatever order they come.  A
document is refused exactly if one of its names or keys is, or one of its data does not stand for a setting
(`Yaml.Datum.Means`); local tags on the items of a list are let through.  Main statement:
`definitions_agree_with_declarations`.
-/

namespace AccountVault

/-! ### Folds that write under keys -/

section

variable {σ α κ ρ ε : Type} {Inv : σ → Prop} {f : σ → α → Except ε σ} {look : σ → κ → ρ} {key : α → κ}
  {val : α → ρ} {s s' : σ} {l : List α}

/-- A fold whose steps depend on nothing but what they take in goes through if all of that is good. -/
theorem exists_foldlM_iff {Good : α → Prop} (h : ∀ s a, (∃ s', f s a = .ok s') ↔ Good a) (s : σ) :
    (∃ s', l.foldlM f s = .ok s') ↔ ∀ a ∈ l, Good a := by
  induction l generalizing s with
  | nil => exact ⟨fun _ _ ha => absurd ha List.not_mem_nil, fun _ => ⟨s, rfl⟩⟩
  | cons a l ih =>
    rw [List.forall_mem_cons, ← h s a]
    simp only [List.foldlM_cons, except_bind_eq_ok_iff]
    constructor
    · rintro ⟨s', s₁, hs₁, hs'⟩
      exact ⟨⟨s₁, hs₁⟩, (ih s₁).1 ⟨s', hs'⟩⟩
    · rintro ⟨⟨s₁, hs₁⟩, hl⟩
      obtain ⟨s', hs'⟩ := (ih s₁).2 hl
      exact ⟨s', s₁, hs₁, hs'⟩

variable [DecidableEq κ]

/-- Where the invariant holds, a step writes under one key, and keeps the invariant. -/
def WritesAt (Inv : σ → Prop) (f : σ → α → Except ε σ) (look : σ → κ → ρ) (key : α → κ) (val : α → ρ) :
    Prop :=
  ∀ s a s', Inv s → f s a = .ok s' → Inv s' ∧ ∀ k, look s' k = if key a = k then val a else look s k

namespace WritesAt

theorem inv (h : WritesAt Inv f look key val) (hs : Inv s) (hf : l.foldlM f s = .ok s') : Inv s' :=
  foldlM_induction (fun s a s' hs ha => (h s a s' hs ha).1) hs hf

theorem look_of_forall_ne (h : WritesAt Inv f look key val) (hs : Inv s) (hf : l.foldlM f s = .ok s')
    {k : κ} (hk : ∀ a ∈ l, key a ≠ k) : look s' k = look s k := by
  induction l generalizing s with
  | nil =>
    cases hf
    rfl
  | cons a l ih =>
    rw [List.foldlM_cons, except_bind_eq_ok_iff] at hf
    obtain ⟨s₁, hs₁, hf⟩ := hf
    obtain ⟨ha, hl⟩ := List.forall_mem_cons.1 hk
    obtain ⟨hinv, hlook⟩ := h s a s₁ hs hs₁
    rw [ih hinv hf hl, hlook, if_neg ha]

/-- Where what is written under a key is the same each time, it is found in the end. -/
theorem look_of_mem (h : WritesAt Inv f look key val) (hs : Inv s) (hf : l.foldlM f s = .ok s')
    (hagree : ∀ a ∈ l, ∀ b ∈ l, key a = key b → val a = val b) {a : α} (ha : a ∈ l) :
    look s' (key a) = val a := by
  induction l generalizing s a with
  | nil => exact absurd ha List.not_mem_nil
  | cons b l ih =>
    rw [List.foldlM_cons, except_bind_eq_ok_iff] at hf
    obtain ⟨s₁, hs₁, hf⟩ := hf
    obtain ⟨hinv, hlook⟩ := h s b s₁ hs hs₁
    have hrest := fun c (hc : c ∈ l) => ih hinv hf
      (fun x hx y hy => hagree x (List.mem_cons_of_mem b hx) y (List.mem_cons_of_mem b hy)) hc
    by_cases hlater : ∃ c ∈ l, key c = key a
    · obtain ⟨c, hc, hkey⟩ := hlater
      rw [← hkey, hrest c hc]
      exact hagree c (List.mem_cons_of_mem b hc) a ha hkey
    · -- then the last that is written under the key is written by the first step
      have hne : ∀ c ∈ l, key c ≠ key a := fun c hc heq => hlater ⟨c, hc, heq⟩
      obtain rfl : a = b := (List.mem_cons.1 ha).resolve_right fun ha => hne a ha rfl
      rw [look_of_forall_ne h hinv hf hne, hlook, if_pos rfl]

/-- The entries of a map, taken in by key. -/
theorem look_toList {β : Type} {m : Std.ExtTreeMap String β} {f : σ → String × β → Except ε σ}
    {look : σ → String → ρ} {val : String × β → ρ} (h : WritesAt Inv f look Prod.fst val) (hs : Inv s)
    (hf : m.toList.foldlM f s = .ok s') (k : String) :
    look s' k = (m[k]?).elim (look s k) fun b => val (k, b) := by
  have hmem : ∀ {p : String × β}, p ∈ m.toList ↔ m[p.1]? = some p.2 :=
    Std.ExtTreeMap.mem_toList_iff_getElem?_eq_some
  cases hk : m[k]? with
  | none =>
    refine h.look_of_forall_ne hs hf fun p hp heq => ?_
    rw [← heq, hmem.1 hp] at hk
    exact absurd hk (by simp)
  | some b =>
    refine h.look_of_mem hs hf (fun p hp q hq heq => ?_) (a := (k, b)) (hmem.2 hk)
    have hpq : p.2 = q.2 := Option.some.inj ((hmem.1 hp).symm.trans (heq ▸ hmem.1 hq))
    rw [show p = q from Prod.ext heq hpq]

end WritesAt

end

/-! ### Data and settings -/

theorem Word.int32?_eq_some_iff {n : Int} {w : Int32} : int32? n = some w ↔ w.toInt = n := by
  constructor
  · intro h
    unfold int32? at h
    split at h
    · next hn =>
      cases h
      exact Int32.toInt_ofInt_of_le hn.1 (by have := hn.2; rw [Int32.toInt_maxValue] at this; omega)
    · exact absurd h (by simp)
  · rintro rfl
    exact int32?_toInt w

theorem Word.int64?_eq_some_iff {n : Int} {w : Int64} : int64? n = some w ↔ w.toInt = n := by
  constructor
  · intro h
    unfold int64? at h
    split at h
    · next hn =>
      cases h
      exact Int64.toInt_ofInt_of_le hn.1 (by have := hn.2; rw [Int64.toInt_maxValue] at this; omega)
    · exact absurd h (by simp)
  · rintro rfl
    exact int64?_toInt w

theorem mapM_eq_some_iff_forall₂ {α β : Type} {f : α → Option β} {l : List α} {l' : List β} :
    l.mapM f = some l' ↔ List.Forall₂ (fun a b => f a = some b) l l' := by
  induction l generalizing l' with
  | nil => simp [eq_comm]
  | cons a l ih =>
    simp [List.mapM_cons, Option.bind_eq_some_iff, List.forall₂_cons_left_iff, ih, @eq_comm _ l']

namespace Yaml.Datum

/-- A text, under local tags or none. -/
inductive Spells : Datum → String → Prop
  | text (s : String) : Spells (.text s) s
  | tagged (kind : String) {d : Datum} {s : String} (h : Spells d s) : Spells (.tagged kind d) s

/-- The setting that a datum stands for.  A whole number stands for one of 32 bits if there is one. -/
inductive Means : Datum → Value → Prop
  | text (s : String) : Means (.text s) (.text s)
  | boolean (b : Bool) : Means (.boolean b) (.boolean b)
  | integer (w : Int32) : Means (.integer w.toInt) (.integer w)
  | integer64 (w : Int64) (h : ∀ n : Int32, n.toInt ≠ w.toInt) : Means (.integer w.toInt) (.integer64 w)
  | textList {items : List Datum} {texts : List String} (h : List.Forall₂ Spells items texts) :
    Means (.sequence items) (.textList texts)

/-- The data that a setting may be given as: texts, truth values, numbers of 64 bits and lists of texts. -/
inductive IsSetting : Datum → Prop
  | text (s : String) : IsSetting (.text s)
  | boolean (b : Bool) : IsSetting (.boolean b)
  | integer (w : Int64) : IsSetting (.integer w.toInt)
  | textList (texts : List String) : IsSetting (.sequence (texts.map .text))

theorem itemText?_eq_some_iff {d : Datum} {s : String} : d.itemText? = some s ↔ d.Spells s := by
  constructor
  · intro h
    fun_induction itemText? d with
    | case1 t =>
      cases h
      exact .text _
    | case2 kind d ih => exact .tagged kind (ih h)
    | case3 => exact absurd h (by simp)
  · intro h
    induction h with
    | text s => rfl
    | tagged kind h ih => exact ih

end Yaml.Datum

namespace Value

open Yaml (Datum)

theorem ofDatum?_eq_some_iff {d : Datum} {v : Value} : ofDatum? d = some v ↔ d.Means v := by
  have hlist : ∀ {items : List Datum} {texts : List String},
      items.mapM Datum.itemText? = some texts ↔ List.Forall₂ Datum.Spells items texts := by
    intro items texts
    simp only [mapM_eq_some_iff_forall₂, Datum.itemText?_eq_some_iff]
  constructor
  · intro h
    unfold ofDatum? at h
    split at h
    · cases h
      exact .text _
    · cases h
      exact .boolean _
    · next n =>
      split at h
      · next w hw =>
        cases h
        rw [← Word.int32?_eq_some_iff.1 hw]
        exact .integer w
      · next hnone =>
        obtain ⟨w, hw, rfl⟩ := Option.map_eq_some_iff.1 h
        obtain rfl := Word.int64?_eq_some_iff.1 hw
        refine .integer64 w fun m hm => ?_
        rw [Word.int32?_eq_some_iff.2 hm] at hnone
        exact absurd hnone (by simp)
    · obtain ⟨texts, htexts, rfl⟩ := Option.map_eq_some_iff.1 h
      exact .textList (hlist.1 htexts)
    · exact absurd h (by simp)
  · intro h
    cases h with
    | text s => rfl
    | boolean b => rfl
    | integer w => simp [ofDatum?]
    | integer64 w hnone =>
      have h32 : Word.int32? w.toInt = none := by
        by_contra hsome
        obtain ⟨m, hm⟩ := Option.ne_none_iff_exists'.1 hsome
        exact hnone m (Word.int32?_eq_some_iff.1 hm)
      simp [ofDatum?, h32]
    | textList htexts => simp [ofDatum?, hlist.2 htexts]

theorem ofDatum_eq_ok_iff {key : String} {d : Datum} {v : Value} :
    ofDatum key d = .ok v ↔ ofDatum? d = some v := by
  unfold ofDatum
  split <;> simp_all

end Value

/-- Everything that a setting may be given as stands for one. -/
theorem Yaml.Datum.IsSetting.exists_means {d : Yaml.Datum} (h : d.IsSetting) : ∃ v, d.Means v := by
  cases h with
  | text s => exact ⟨_, .text s⟩
  | boolean b => exact ⟨_, .boolean b⟩
  | integer w =>
    by_cases h : ∃ n : Int32, n.toInt = w.toInt
    · obtain ⟨n, hn⟩ := h
      exact ⟨.integer n, hn ▸ .integer n⟩
    · exact ⟨_, .integer64 w fun n hn => h ⟨n, hn⟩⟩
  | textList texts =>
    refine ⟨.textList texts, .textList ?_⟩
    induction texts with
    | nil => exact .nil
    | cons s texts ih => exact .cons (.text s) ih

/-! ### What a document declares -/

/-- Settings whose keys are accepted and whose data are of some form. -/
def SettingsFit (P : Yaml.Datum → Prop) (settings : Std.ExtTreeMap String Yaml.Datum) : Prop :=
  ∀ key datum, settings[key]? = some datum → Key.check key Key.defaultLimit = .ok () ∧ P datum

namespace Definitions

/-- The names and keys of a document are accepted, and its data are of some form. -/
structure Fits (P : Yaml.Datum → Prop) (d : Definitions) : Prop where
  defaults : SettingsFit P d.defaults
  providers : ∀ name p, d.providers[name]? = some p →
    Name.check "provider" name = .ok () ∧ SettingsFit P p.settings
  services : ∀ name s, d.services[name]? = some s → Name.check "service" name = .ok () ∧
    (∀ type, s.type = some type → Name.check "service type" type = .ok ()) ∧ SettingsFit P s.settings

/-- A document makes a declaration if it has the setting or the type. -/
def Declares (d : Definitions) : Declaration → Prop
  | .globalDefault key value => ∃ datum, d.defaults[key]? = some datum ∧ datum.Means value
  | .providerDefault provider key value => ∃ p datum, d.providers[provider]? = some p ∧
    p.settings[key]? = some datum ∧ datum.Means value
  | .serviceDefault service key value => ∃ s datum, d.services[service]? = some s ∧
    s.settings[key]? = some datum ∧ datum.Means value
  | .serviceType service type => ∃ s, d.services[service]? = some s ∧ s.type = some type

/-- What a document declares for a place. -/
def declaration? (d : Definitions) : Catalog.Place → Option Declaration
  | .globalDefault key => (d.defaults[key]?.bind Value.ofDatum?).map (.globalDefault key)
  | .providerDefault provider key =>
    (d.providers[provider]?.bind (·.settings[key]?.bind Value.ofDatum?)).map (.providerDefault provider key)
  | .serviceDefault service key =>
    (d.services[service]?.bind (·.settings[key]?.bind Value.ofDatum?)).map (.serviceDefault service key)
  | .serviceType service => (d.services[service]?.bind (·.type)).map (.serviceType service)

/-- The declarations of some settings. -/
def ofSettings (declare : String → Value → Declaration) (settings : Std.ExtTreeMap String Yaml.Datum) :
    List Declaration :=
  settings.toList.filterMap fun p => (Value.ofDatum? p.2).map (declare p.1)

/-- The declarations of a document, in its order. -/
def declarations (d : Definitions) : List Declaration :=
  ofSettings .globalDefault d.defaults ++
    d.providers.toList.flatMap (fun p => ofSettings (.providerDefault p.1) p.2.settings) ++
    d.services.toList.flatMap fun s =>
      ofSettings (.serviceDefault s.1) s.2.settings ++ s.2.type.toList.map (.serviceType s.1)

variable {d : Definitions} {x : Declaration} {p : Catalog.Place}

theorem place_of_declaration? (h : d.declaration? p = some x) : x.place = p := by
  cases p <;> (obtain ⟨_, -, rfl⟩ := Option.map_eq_some_iff.1 h; rfl)

theorem declares_iff : d.Declares x ↔ d.declaration? x.place = some x := by
  cases x <;> simp [Declares, declaration?, Declaration.place, Option.bind_eq_some_iff,
    Value.ofDatum?_eq_some_iff]

theorem mem_ofSettings {declare : String → Value → Declaration}
    {settings : Std.ExtTreeMap String Yaml.Datum} : x ∈ ofSettings declare settings ↔
      ∃ (key : String) (datum : Yaml.Datum), settings[key]? = some datum ∧
        ∃ value, datum.Means value ∧ declare key value = x := by
  simp [ofSettings, Std.ExtTreeMap.mem_toList_iff_getElem?_eq_some, Value.ofDatum?_eq_some_iff]

theorem mem_declarations : x ∈ d.declarations ↔ d.Declares x := by
  cases x <;> simp [declarations, Declares, mem_ofSettings, Std.ExtTreeMap.mem_toList_iff_getElem?_eq_some]

theorem Fits.accepted {P : Yaml.Datum → Prop} (h : d.Fits P) (hx : d.Declares x) : x.Accepted := by
  cases x with
  | globalDefault key value =>
    obtain ⟨datum, hdatum, -⟩ := hx
    exact (h.defaults key datum hdatum).1
  | providerDefault provider key value =>
    obtain ⟨p, datum, hp, hdatum, -⟩ := hx
    obtain ⟨hname, hsettings⟩ := h.providers provider p hp
    exact ⟨hname, (hsettings key datum hdatum).1⟩
  | serviceDefault service key value =>
    obtain ⟨s, datum, hs, hdatum, -⟩ := hx
    obtain ⟨hname, -, hsettings⟩ := h.services service s hs
    exact ⟨hname, (hsettings key datum hdatum).1⟩
  | serviceType service type =>
    obtain ⟨s, hs, htype⟩ := hx
    obtain ⟨hname, htypes, -⟩ := h.services service s hs
    exact ⟨hname, htypes type htype⟩

theorem Fits.mono {P Q : Yaml.Datum → Prop} (h : d.Fits P) (hPQ : ∀ datum, P datum → Q datum) :
    d.Fits Q := by
  have hsettings : ∀ {settings}, SettingsFit P settings → SettingsFit Q settings :=
    fun h key datum hd => ⟨(h key datum hd).1, hPQ datum (h key datum hd).2⟩
  exact ⟨hsettings h.defaults, fun name p hp => (h.providers name p hp).imp_right hsettings,
    fun name s hs => (h.services name s hs).imp_right (And.imp_right hsettings)⟩

end Definitions

/-! ### What the catalog of a document holds -/

namespace Table

/-- The table with one more setting of a definition. -/
def enter (layer : Layer) (t : Table) (p : String × Yaml.Datum) : Except Problem Table := do
  Key.check p.1 Key.defaultLimit
  let v ← Value.ofDatum p.1 p.2
  return t.set p.1 (.defined v layer)

variable {layer : Layer} {settings : Std.ExtTreeMap String Yaml.Datum} {t t' : Table}
  {p : String × Yaml.Datum}

theorem enter_eq_ok_iff : enter layer t p = .ok t' ↔ Key.check p.1 Key.defaultLimit = .ok () ∧
    ∃ v, Value.ofDatum? p.2 = some v ∧ t' = t.set p.1 (.defined v layer) := by
  rw [enter, except_check_eq_ok_iff, except_bind_eq_ok_iff]
  simp [Value.ofDatum_eq_ok_iff, pure, Except.pure, @eq_comm _ t']

theorem exists_ofDefinition_iff (layer : Layer) :
    (∃ t, ofDefinition layer settings = .ok t) ↔ SettingsFit (fun datum => ∃ v, datum.Means v) settings := by
  have hstep : ∀ t p, (∃ t', enter layer t p = .ok t') ↔
      Key.check p.1 Key.defaultLimit = .ok () ∧ ∃ v, p.2.Means v := by
    intro t p
    simp [enter_eq_ok_iff, Value.ofDatum?_eq_some_iff]
  show (∃ t, settings.toList.foldlM (enter layer) ∅ = .ok t) ↔ _
  rw [exists_foldlM_iff hstep, Prod.forall]
  simp only [Std.ExtTreeMap.mem_toList_iff_getElem?_eq_some, SettingsFit]

/-- The table of some settings holds what they stand for. -/
theorem get?_ofDefinition (h : ofDefinition layer settings = .ok t) (key : String) :
    t.get? key = (settings[key]?.bind Value.ofDatum?).map (.defined · layer) := by
  have hstep : WritesAt (fun _ => True) (enter layer) get? Prod.fst
      fun p => (Value.ofDatum? p.2).map (.defined · layer) := by
    intro t p t' _ ht
    obtain ⟨-, v, hv, rfl⟩ := enter_eq_ok_iff.1 ht
    refine ⟨trivial, fun key => ?_⟩
    simp [get?_set, hv]
  rw [hstep.look_toList trivial h]
  cases settings[key]? <;> simp

end Table

namespace Catalog

variable {c c' : Catalog} {d : Definitions} {name : String}

theorem defineGlobal_eq_ok_iff {datum : Yaml.Datum} : c.defineGlobal name datum = .ok c' ↔
    Key.check name Key.defaultLimit = .ok () ∧
      ∃ v, Value.ofDatum? datum = some v ∧ c' = c.put (.globalDefault name v) := by
  rw [defineGlobal, except_bind_eq_ok_iff]
  simp only [Value.ofDatum_eq_ok_iff, declare_eq_ok_iff, Declaration.Accepted]
  constructor
  · rintro ⟨v, hv, hkey, hc⟩
    exact ⟨hkey, v, hv, hc⟩
  · rintro ⟨hkey, v, hv, hc⟩
    exact ⟨v, hv, hkey, hc⟩

/-- A document is accepted if its names and keys are, and if each of its data stands for a setting. -/
theorem exists_ofDefinitions_iff :
    (∃ c, ofDefinitions d = .ok c) ↔ d.Fits fun datum => ∃ v, datum.Means v := by
  have hglobal : ∀ (c : Catalog) (p : String × Yaml.Datum), (∃ c', c.defineGlobal p.1 p.2 = .ok c') ↔
      Key.check p.1 Key.defaultLimit = .ok () ∧ ∃ v, p.2.Means v := by
    intro c p
    simp [defineGlobal_eq_ok_iff, Value.ofDatum?_eq_some_iff]
  have hprovider : ∀ (c : Catalog) (p : String × ProviderDefinition),
      (∃ c', c.defineProvider p.1 p.2 = .ok c') ↔ Name.check "provider" p.1 = .ok () ∧
        SettingsFit (fun datum => ∃ v, datum.Means v) p.2.settings := by
    intro c p
    rw [← Table.exists_ofDefinition_iff .providerDefault]
    simp [defineProvider_eq_ok_iff]
  have hservice : ∀ (c : Catalog) (p : String × ServiceDefinition),
      (∃ c', c.defineService p.1 p.2 = .ok c') ↔ Name.check "service" p.1 = .ok () ∧
        (∀ type, p.2.type = some type → Name.check "service type" type = .ok ()) ∧
        SettingsFit (fun datum => ∃ v, datum.Means v) p.2.settings := by
    intro c p
    rw [← Table.exists_ofDefinition_iff .template]
    simp [defineService_eq_ok_iff]
  have hglobals := exists_foldlM_iff (l := d.defaults.toList) hglobal
  have hproviders := exists_foldlM_iff (l := d.providers.toList) hprovider
  have hservices := exists_foldlM_iff (l := d.services.toList) hservice
  simp only [Prod.forall, Std.ExtTreeMap.mem_toList_iff_getElem?_eq_some] at hglobals hproviders hservices
  simp only [ofDefinitions, except_bind_eq_ok_iff]
  constructor
  · rintro ⟨c, c₁, h₁, c₂, h₂, h₃⟩
    exact ⟨(hglobals {}).1 ⟨c₁, h₁⟩, (hproviders c₁).1 ⟨c₂, h₂⟩, (hservices c₂).1 ⟨c, h₃⟩⟩
  · intro h
    obtain ⟨c₁, h₁⟩ := (hglobals {}).2 h.defaults
    obtain ⟨c₂, h₂⟩ := (hproviders c₁).2 h.providers
    obtain ⟨c, h₃⟩ := (hservices c₂).2 h.services
    exact ⟨c, c₁, h₁, c₂, h₂, h₃⟩

/-- A global default is written, and the rest is as in `base`. -/
theorem writesAt_defineGlobal (base : Catalog) :
    WritesAt (fun c => c.providers = base.providers ∧ c.templates = base.templates)
      (fun c (p : String × Yaml.Datum) => c.defineGlobal p.1 p.2) globalDefault? Prod.fst
      fun p => (Value.ofDatum? p.2).map (.defined · .globalDefault) := by
  intro c p c' hc hp
  obtain ⟨-, v, hv, rfl⟩ := defineGlobal_eq_ok_iff.1 hp
  refine ⟨hc, fun key => ?_⟩
  simp only [globalDefault?, put, Table.get?_set, hv]
  rfl

theorem writesAt_defineProvider (base : Catalog) :
    WritesAt (fun c => c.globals = base.globals ∧ c.templates = base.templates)
      (fun c (p : String × ProviderDefinition) => c.defineProvider p.1 p.2) providerDefault? Prod.fst
      fun p key => (p.2.settings[key]?.bind Value.ofDatum?).map (.defined · .providerDefault) := by
  intro c p c' hc hp
  obtain ⟨-, defaults, hdefaults, rfl⟩ := defineProvider_eq_ok_iff.1 hp
  refine ⟨hc, fun name => ?_⟩
  funext key
  rw [providerDefault?, provider?_putProvider]
  split
  · exact Table.get?_ofDefinition hdefaults key
  · rfl

theorem writesAt_defineService (base : Catalog) :
    WritesAt (fun c => c.globals = base.globals ∧ c.providers = base.providers)
      (fun c (s : String × ServiceDefinition) => c.defineService s.1 s.2) serviceDefault? Prod.fst
      fun s key => (s.2.settings[key]?.bind Value.ofDatum?).map (.defined · .template) := by
  intro c s c' hc hs
  obtain ⟨-, -, defaults, hdefaults, rfl⟩ := defineService_eq_ok_iff.1 hs
  refine ⟨hc, fun service => ?_⟩
  funext key
  rw [serviceDefault?, template?_putTemplate]
  split
  · exact Table.get?_ofDefinition hdefaults key
  · rfl

theorem writesAt_defineService_type :
    WritesAt (fun _ => True) (fun c (s : String × ServiceDefinition) => c.defineService s.1 s.2) serviceType?
      Prod.fst fun s => s.2.type := by
  intro c s c' _ hs
  obtain ⟨-, -, defaults, -, rfl⟩ := defineService_eq_ok_iff.1 hs
  refine ⟨trivial, fun service => ?_⟩
  rw [serviceType?, template?_putTemplate]
  split <;> rfl

/-- The catalog of a document holds in each place what the document declares for it. -/
theorem item?_ofDefinitions (h : ofDefinitions d = .ok c) (p : Place) :
    c.item? p = (d.declaration? p).map Declaration.item := by
  simp only [ofDefinitions, except_bind_eq_ok_iff] at h
  obtain ⟨c₁, h₁, c₂, h₂, h₃⟩ := h
  obtain ⟨hproviders₁, htemplates₁⟩ := (writesAt_defineGlobal {}).inv ⟨rfl, rfl⟩ h₁
  obtain ⟨hglobals₂, htemplates₂⟩ := (writesAt_defineProvider c₁).inv ⟨rfl, rfl⟩ h₂
  obtain ⟨hglobals₃, hproviders₃⟩ := (writesAt_defineService c₂).inv ⟨rfl, rfl⟩ h₃
  have htemplate : ∀ service, c₂.template? service = none := by
    intro service
    rw [template?, htemplates₂, htemplates₁]
    exact Std.ExtTreeMap.getElem?_empty
  cases p with
  | globalDefault key =>
    have hglobal : c.globalDefault? key = c₁.globalDefault? key := by
      rw [globalDefault?, hglobals₃, hglobals₂]
      rfl
    rw [item?, hglobal, (writesAt_defineGlobal {}).look_toList ⟨rfl, rfl⟩ h₁, Definitions.declaration?]
    cases d.defaults[key]? with
    | none => rfl
    | some datum => cases hv : Value.ofDatum? datum <;> simp [hv, Declaration.item]
  | providerDefault provider key =>
    have hprovider : c.providerDefault? provider key = c₂.providerDefault? provider key := by
      rw [providerDefault?, provider?, hproviders₃]
      rfl
    have hnone : c₁.providerDefault? provider key = none := by
      rw [providerDefault?, provider?, hproviders₁]
      simp
    rw [item?, hprovider, (writesAt_defineProvider c₁).look_toList ⟨rfl, rfl⟩ h₂, Definitions.declaration?]
    cases d.providers[provider]? with
    | none => simp [hnone]
    | some p =>
      simp only [Option.elim_some, Option.bind_some, Option.map_map]
      rfl
  | serviceDefault service key =>
    rw [item?, (writesAt_defineService c₂).look_toList ⟨rfl, rfl⟩ h₃, Definitions.declaration?]
    cases d.services[service]? with
    | none => simp [serviceDefault?, htemplate]
    | some s =>
      simp only [Option.elim_some, Option.bind_some, Option.map_map]
      rfl
  | serviceType service =>
    rw [item?, writesAt_defineService_type.look_toList trivial h₃, Definitions.declaration?]
    cases d.services[service]? with
    | none => simp [serviceType?, htemplate]
    | some s => cases hv : s.type <;> simp [hv, Declaration.item]

/-! ### The same by declarations -/

theorem writesAt_declare : WritesAt Regular declare item? Declaration.place fun x => some x.item := by
  intro c x c' hc hx
  obtain ⟨haccepted, rfl⟩ := declare_eq_ok_iff.1 hx
  exact ⟨hc.put haccepted, hc.item?_put haccepted⟩

/-- Declarations that are made one by one go through if each is accepted. -/
theorem exists_declareAll {ds : List Declaration} (h : ∀ x ∈ ds, x.Accepted) :
    ∃ c', c.declareAll ds = .ok c' := by
  have hdeclare : ∀ (c : Catalog) (x : Declaration), (∃ c', c.declare x = .ok c') ↔ x.Accepted :=
    fun c x => ⟨fun h => (declare_eq_ok_iff.1 h.choose_spec).1,
      fun hx => ⟨c.put x, declare_eq_ok_iff.2 ⟨hx, rfl⟩⟩⟩
  exact (exists_foldlM_iff hdeclare c).2 h

/-- What a document declares, declared one by one in any order, is in each place what the document
declares for it. -/
theorem item?_declareAll {ds : List Declaration} (hds : ∀ x, x ∈ ds ↔ d.Declares x)
    (h : ({} : Catalog).declareAll ds = .ok c) (p : Place) :
    c.item? p = (d.declaration? p).map Declaration.item := by
  have hplace : ∀ x ∈ ds, d.declaration? x.place = some x :=
    fun x hx => Definitions.declares_iff.1 ((hds x).1 hx)
  cases hp : d.declaration? p with
  | none =>
    have hne : ∀ x ∈ ds, x.place ≠ p := by
      rintro x hx rfl
      exact absurd (hplace x hx) (by simp [hp])
    rw [writesAt_declare.look_of_forall_ne regular_empty h hne]
    cases p <;> rfl
  | some x =>
    obtain rfl := Definitions.place_of_declaration? hp
    have hx : x ∈ ds := (hds x).2 (Definitions.declares_iff.2 hp)
    have hagree : ∀ y ∈ ds, ∀ z ∈ ds, y.place = z.place → some y.item = some z.item := by
      intro y hy z hz hyz
      have hsame := (hplace y hy).symm.trans (hyz ▸ hplace z hz)
      rw [Option.some.inj hsame]
    exact writesAt_declare.look_of_mem regular_empty h hagree hx

/-- What is in each place tells the defaults and the types. -/
theorem lookups_eq_of_items_eq (h : ∀ p, c'.item? p = c.item? p) :
    (∀ key, c'.globalDefault? key = c.globalDefault? key) ∧
      (∀ provider key, c'.providerDefault? provider key = c.providerDefault? provider key) ∧
      (∀ service key, c'.serviceDefault? service key = c.serviceDefault? service key) ∧
      ∀ service, c'.serviceType? service = c.serviceType? service := by
  have hdefault : Function.Injective Item.default := fun _ _ => Item.default.inj
  have htype : Function.Injective Item.type := fun _ _ => Item.type.inj
  exact ⟨fun key => Option.map_injective hdefault (h (.globalDefault key)),
    fun provider key => Option.map_injective hdefault (h (.providerDefault provider key)),
    fun service key => Option.map_injective hdefault (h (.serviceDefault service key)),
    fun service => Option.map_injective htype (h (.serviceType service))⟩

end Catalog

/-- A document gives a catalog exactly if its names and keys are accepted and each of its data stands for
a setting, as every text, truth value, number of 64 bits and list of texts does.  The document makes finitely
many declarations; made of the empty catalog, in any order, they give a catalog with the same defaults and
types of services. -/
theorem definitions_agree_with_declarations (d : Definitions) :
    ((∃ c, Catalog.ofDefinitions d = .ok c) ↔ d.Fits fun datum => ∃ v, datum.Means v) ∧
      (d.Fits Yaml.Datum.IsSetting → ∃ c, Catalog.ofDefinitions d = .ok c) ∧
      ∀ c, Catalog.ofDefinitions d = .ok c →
        (∃ ds : List Declaration, ∀ x, x ∈ ds ↔ d.Declares x) ∧
        ∀ ds : List Declaration, (∀ x, x ∈ ds ↔ d.Declares x) →
          ∃ c', ({} : Catalog).declareAll ds = .ok c' ∧
            (∀ key, c'.globalDefault? key = c.globalDefault? key) ∧
            (∀ provider key, c'.providerDefault? provider key = c.providerDefault? provider key) ∧
            (∀ service key, c'.serviceDefault? service key = c.serviceDefault? service key) ∧
            ∀ service, c'.serviceType? service = c.serviceType? service := by
  have hiff := Catalog.exists_ofDefinitions_iff (d := d)
  refine ⟨hiff, fun h => hiff.2 (h.mono fun _ => Yaml.Datum.IsSetting.exists_means), fun c hc => ?_⟩
  refine ⟨⟨d.declarations, fun x => Definitions.mem_declarations⟩, fun ds hds => ?_⟩
  have hfits := hiff.1 ⟨c, hc⟩
  obtain ⟨c', hc'⟩ := Catalog.exists_declareAll (c := {}) fun x hx => hfits.accepted ((hds x).1 hx)
  have hitems : ∀ p, c'.item? p = c.item? p :=
    fun p => (Catalog.item?_declareAll hds hc' p).trans (Catalog.item?_ofDefinitions hc p).symm
  exact ⟨c', hc', Catalog.lookups_eq_of_items_eq hitems⟩

/-- A number of 33 bits, a list of texts and the type of a service, declared from the last to the first. -/
theorem definitions_agree_with_declarations_of_reversed :
    let settings : Std.ExtTreeMap String Yaml.Datum :=
      ((∅ : Std.ExtTreeMap String Yaml.Datum).insert "size" (.integer 4294967296)).insert "hosts"
        (.sequence [.text "a", .text "b"])
    let d : Definitions :=
      { defaults := (∅ : Std.ExtTreeMap String Yaml.Datum).insert "size" (.integer 5)
        services := (∅ : Std.ExtTreeMap String ServiceDefinition).insert "mail"
          { type := some "email", settings } }
    ∃ c', ({} : Catalog).declareAll d.declarations.reverse = .ok c' ∧
      c'.globalDefault? "size" = some (.defined (.integer 5) .globalDefault) ∧
      c'.serviceDefault? "mail" "size" = some (.defined (.integer64 4294967296) .template) ∧
      c'.serviceDefault? "mail" "hosts" = some (.defined (.textList ["a", "b"]) .template) ∧
      c'.serviceType? "mail" = some "email" := by
  intro settings d
  let c := (Catalog.ofDefinitions d).toOption.getD {}
  have hc : Catalog.ofDefinitions d = .ok c := by decide +kernel
  obtain ⟨c', hc', hglobal, -, hservice, htype⟩ :=
    ((definitions_agree_with_declarations d).2.2 c hc).2 d.declarations.reverse fun x => by
      rw [List.mem_reverse, Definitions.mem_declarations]
  refine ⟨c', hc', ?_, ?_, ?_, ?_⟩
  · rw [hglobal]
    decide +kernel
  · rw [hservice]
    decide +kernel
  · rw [hservice]
    decide +kernel
  · rw [htype]
    decide +kernel

/-- A list with a tagged item is taken as a list of texts, although a tagged text is refused. -/
theorem tagged_item_is_taken :
    let datum : Yaml.Datum := .sequence [.tagged "t" (.text "x")]
    let d : Definitions := { defaults := (∅ : Std.ExtTreeMap String Yaml.Datum).insert "k" datum }
    ¬ d.Fits Yaml.Datum.IsSetting ∧ (∃ c, Catalog.ofDefinitions d = .ok c) ∧
      (Catalog.ofText "defaults:\n  k: [!t x]\n").toOption.bind (·.globalDefault? "k") =
        some (.defined (.textList ["x"]) .globalDefault) ∧
      Catalog.ofText "defaults:\n  k: !t x\n" = .error (.config (.unsupportedValue "k")) := by
  intro datum d
  have hk : d.defaults["k"]? = some datum := by simp [d]
  refine ⟨fun h => ?_, ⟨(Catalog.ofDefinitions d).toOption.getD {}, by decide +kernel⟩, by decide +kernel,
    by decide +kernel⟩
  obtain ⟨-, hsetting⟩ := h.defaults "k" _ hk
  generalize hdatum : datum = datum' at hsetting
  cases hsetting with
  | textList texts => cases texts <;> simp [datum] at hdatum
  | _ => exact absurd hdatum (by simp [datum])

end AccountVault
