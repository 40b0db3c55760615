import AccountVault.Catalog.Definitions

/-!
# Declared catalogs

A catalog comes from a document or from nothing, and from declarations after that
(`Catalog.Declared`).  Its providers and templates are kept under their own names, and its defaults have
accepted keys and are set, each from its own layer (`Catalog.Declared.regular`); so a default that is found
always has a value.
-/

namespace AccountVault

theorem except_bind_eq_ok_iff {ε α β : Type} {x : Except ε α} {f : α → Except ε β} {b : β} :
    (x >>= f) = .ok b ↔ ∃ a, x = .ok a ∧ f a = .ok b := by
  cases x <;> simp [bind, Except.bind]

/-- A check comes to nothing but going through. -/
theorem except_check_eq_ok_iff {ε β : Type} {x : Except ε Unit} {y : Except ε β} {b : β} :
    (do x; y) = .ok b ↔ x = .ok () ∧ y = .ok b := by
  cases x <;> simp [bind, Except.bind]

theorem except_bind_ne_error {ε α β : Type} {x : Except ε α} {f : α → Except ε β} {e : ε}
    (hx : x ≠ .error e) (hf : ∀ a, f a ≠ .error e) : (x >>= f) ≠ .error e := by
  cases x with
  | error e' =>
    intro h
    cases h
    exact hx rfl
  | ok a => exact hf a

theorem except_pure_ne_error {ε α : Type} {a : α} {e : ε} : (pure a : Except ε α) ≠ .error e := by
  intro h
  cases h

theorem except_map_eq_ok_iff {ε α β : Type} {x : Except ε α} {f : α → β} {b : β} :
    x.map f = .ok b ↔ ∃ a, x = .ok a ∧ f a = b := by
  cases x <;> simp [Except.map]

/-- A check that has to go through before anything else is done. -/
theorem except_guard_eq_ok_iff {ε β : Type} {P : Prop} [Decidable P] {e : ε} {x : Except ε β}
    {b : β} : (if P then x else (do throw e; x)) = .ok b ↔ P ∧ x = .ok b := by
  split
  · next hP => simp [hP]
  · next hP => simp [hP, throw, throwThe, MonadExceptOf.throw, bind, Except.bind]

/-- What each step of a fold keeps holds of its result, if the fold goes through. -/
theorem foldlM_induction {ε α β : Type} {P : β → Prop} {f : β → α → Except ε β}
    (hstep : ∀ b a b', P b → f b a = .ok b' → P b') {l : List α} {b b' : β} (hb : P b)
    (h : l.foldlM f b = .ok b') : P b' := by
  induction l generalizing b with
  | nil =>
    cases h
    exact hb
  | cons a l ih =>
    rw [List.foldlM_cons, except_bind_eq_ok_iff] at h
    obtain ⟨b₁, hb₁, h⟩ := h
    exact ih (hstep b a b₁ hb hb₁) h

/-! ### What declarations and definitions do -/

/-- The checks that a declaration has to pass. -/
def Declaration.Accepted : Declaration → Prop
  | .globalDefault key _ => Key.check key Key.defaultLimit = .ok ()
  | .providerDefault provider key _ =>
    Name.check "provider" provider = .ok () ∧ Key.check key Key.defaultLimit = .ok ()
  | .serviceDefault service key _ =>
    Name.check "service" service = .ok () ∧ Key.check key Key.defaultLimit = .ok ()
  | .serviceType service type =>
    Name.check "service" service = .ok () ∧ Name.check "service type" type = .ok ()

namespace Catalog

/-- The catalog with a declaration, which is not checked. -/
def put (c : Catalog) : Declaration → Catalog
  | .globalDefault key value =>
    { c with globals := c.globals.set key (.defined value .globalDefault) }
  | .providerDefault provider key value =>
    let p := c.providerOrNew provider
    c.putProvider { p with defaults := p.defaults.set key (.defined value .providerDefault) }
  | .serviceDefault service key value =>
    let t := c.templateOrNew service
    c.putTemplate { t with defaults := t.defaults.set key (.defined value .template) }
  | .serviceType service type =>
    c.putTemplate { c.templateOrNew service with type := some type }

variable {c c' : Catalog} {name : String}

theorem declare_eq_ok_iff {x : Declaration} : c.declare x = .ok c' ↔ x.Accepted ∧ c' = c.put x := by
  cases x <;> simp [declare, Declaration.Accepted, put, except_check_eq_ok_iff, pure, Except.pure, and_assoc,
    @eq_comm _ c']

theorem defineProvider_eq_ok_iff {p : ProviderDefinition} :
    c.defineProvider name p = .ok c' ↔ Name.check "provider" name = .ok () ∧
      ∃ defaults, Table.ofDefinition .providerDefault p.settings = .ok defaults ∧
        c' = c.putProvider { name, displayName := p.displayName, defaults } := by
  rw [defineProvider, except_check_eq_ok_iff, except_bind_eq_ok_iff]
  simp [pure, Except.pure, @eq_comm _ c']

theorem defineService_eq_ok_iff {s : ServiceDefinition} :
    c.defineService name s = .ok c' ↔ Name.check "service" name = .ok () ∧
      (∀ type, s.type = some type → Name.check "service type" type = .ok ()) ∧
      ∃ defaults, Table.ofDefinition .template s.settings = .ok defaults ∧
        c' = c.putTemplate { name, provider := s.provider, type := s.type, defaults } := by
  rw [defineService, except_check_eq_ok_iff]
  refine and_congr_right fun _ => ?_
  cases htype : s.type with
  | none => simp [except_bind_eq_ok_iff, pure, Except.pure, @eq_comm _ c']
  | some type =>
    simp only [except_check_eq_ok_iff]
    simp [except_bind_eq_ok_iff, pure, Except.pure, @eq_comm _ c']

/-- A catalog that is made of definitions, or of none, and of declarations after that. -/
def Declared (c : Catalog) : Prop :=
  ∃ base ds, (base = {} ∨ ∃ d, ofDefinitions d = .ok base) ∧ base.declareAll ds = .ok c

theorem declared_of_ofDefinitions {d : Definitions} (h : ofDefinitions d = .ok c) : c.Declared :=
  ⟨c, [], .inr ⟨d, h⟩, rfl⟩

theorem Declared.declare (h : c.Declared) {x : Declaration} (hx : c.declare x = .ok c') : c'.Declared := by
  obtain ⟨base, ds, hbase, hds⟩ := h
  refine ⟨base, ds ++ [x], hbase, ?_⟩
  rw [declareAll, List.foldlM_append, except_bind_eq_ok_iff]
  exact ⟨c, hds, by rw [List.foldlM_cons, hx]; rfl⟩

/-- What holds of the empty catalog and is kept by every declaration and definition holds of every declared
catalog. -/
theorem Declared.induction {P : Catalog → Prop} (hempty : P {})
    (hdeclare : ∀ c x c', P c → c.declare x = .ok c' → P c')
    (hprovider : ∀ c name p c', P c → c.defineProvider name p = .ok c' → P c')
    (hservice : ∀ c name s c', P c → c.defineService name s = .ok c' → P c') (h : c.Declared) : P c := by
  obtain ⟨base, ds, hbase, hds⟩ := h
  refine foldlM_induction (fun c x c' => hdeclare c x c') ?_ hds
  rcases hbase with rfl | ⟨d, hd⟩
  · exact hempty
  · simp only [ofDefinitions, except_bind_eq_ok_iff] at hd
    obtain ⟨c₁, h₁, c₂, h₂, h₃⟩ := hd
    refine foldlM_induction (fun c p c' => hservice c p.1 p.2 c') ?_ h₃
    refine foldlM_induction (fun c p c' => hprovider c p.1 p.2 c') ?_ h₂
    refine foldlM_induction (fun c p c' hc hp => ?_) hempty h₁
    rw [defineGlobal, except_bind_eq_ok_iff] at hp
    obtain ⟨v, -, hp⟩ := hp
    exact hdeclare c _ c' hc hp

end Catalog

/-! ### Regular catalogs -/

/-- Defaults of one layer: their keys are accepted, and their cells are set and carry the layer. -/
def Table.Declares (layer : Layer) (t : Table) : Prop :=
  ∀ key cell, t.get? key = some cell →
    Key.check key Key.defaultLimit = .ok () ∧ ∃ v, cell = .defined v layer

/-- A provider as it is kept under a name. -/
structure Provider.Regular (p : Provider) (name : String) : Prop where
  name_eq : p.name = name
  name_check : Name.check "provider" name = .ok ()
  defaults : p.defaults.Declares .providerDefault

/-- A template as it is kept under a service's name. -/
structure Template.Regular (t : Template) (service : String) : Prop where
  name_eq : t.name = service
  name_check : Name.check "service" service = .ok ()
  type_check : ∀ type, t.type = some type → Name.check "service type" type = .ok ()
  defaults : t.defaults.Declares .template

structure Catalog.Regular (c : Catalog) : Prop where
  globals : c.globals.Declares .globalDefault
  providers : ∀ name p, c.provider? name = some p → p.Regular name
  templates : ∀ service t, c.template? service = some t → t.Regular service

namespace Table

variable {t : Table} {layer : Layer} {key : String}

theorem declares_empty : Declares layer ∅ := fun _ _ h => absurd h (by simp)

theorem Declares.set (h : t.Declares layer) (hkey : Key.check key Key.defaultLimit = .ok ()) (v : Value) :
    (t.set key (.defined v layer)).Declares layer := by
  intro other cell hcell
  rw [get?_set] at hcell
  split at hcell
  · next heq =>
    cases hcell
    exact ⟨heq ▸ hkey, v, rfl⟩
  · exact h other cell hcell

theorem Declares.allSet (h : t.Declares layer) : t.AllSet := by
  intro key cell hcell
  obtain ⟨-, v, rfl⟩ := h key cell hcell
  rfl

theorem declares_ofDefinition {settings : Std.ExtTreeMap String Yaml.Datum}
    (h : Table.ofDefinition layer settings = .ok t) : t.Declares layer := by
  refine foldlM_induction (P := Table.Declares layer) (fun t p t' ht h => ?_) declares_empty h
  rw [except_check_eq_ok_iff, except_bind_eq_ok_iff] at h
  obtain ⟨hkey, v, -, h⟩ := h
  cases h
  exact ht.set hkey v

end Table

namespace Catalog

/-- Every default of a catalog is set. -/
structure AllSet (c : Catalog) : Prop where
  globals : c.globals.AllSet
  providers : ∀ name p, c.provider? name = some p → p.defaults.AllSet
  templates : ∀ service t, c.template? service = some t → t.defaults.AllSet

variable {c c' : Catalog}

theorem allSet_empty : AllSet {} :=
  ⟨Table.allSet_empty, fun _ _ h => absurd h (by simp [provider?]),
    fun _ _ h => absurd h (by simp [template?])⟩

theorem regular_empty : Regular {} :=
  ⟨Table.declares_empty, fun _ _ h => absurd h (by simp [provider?]),
    fun _ _ h => absurd h (by simp [template?])⟩

namespace Regular

theorem allSet (h : c.Regular) : c.AllSet :=
  ⟨h.globals.allSet, fun name p hp => (h.providers name p hp).defaults.allSet,
    fun service t ht => (h.templates service t ht).defaults.allSet⟩

theorem putProvider (h : c.Regular) {p : Provider} (hp : p.Regular p.name) : (c.putProvider p).Regular := by
  refine ⟨h.globals, fun name q hq => ?_, h.templates⟩
  rw [provider?_putProvider] at hq
  split at hq
  · next heq =>
    cases hq
    exact heq ▸ hp
  · exact h.providers name q hq

theorem putTemplate (h : c.Regular) {t : Template} (ht : t.Regular t.name) : (c.putTemplate t).Regular := by
  refine ⟨h.globals, h.providers, fun service u hu => ?_⟩
  rw [template?_putTemplate] at hu
  split at hu
  · next heq =>
    cases hu
    exact heq ▸ ht
  · exact h.templates service u hu

theorem providerOrNew (h : c.Regular) {name : String} (hname : Name.check "provider" name = .ok ()) :
    (c.providerOrNew name).Regular name := by
  rw [Catalog.providerOrNew]
  cases hp : c.provider? name with
  | none => exact ⟨rfl, hname, Table.declares_empty⟩
  | some p => exact h.providers name p hp

theorem templateOrNew (h : c.Regular) {service : String} (hname : Name.check "service" service = .ok ()) :
    (c.templateOrNew service).Regular service := by
  rw [Catalog.templateOrNew]
  cases ht : c.template? service with
  | none => exact ⟨rfl, hname, fun _ h => absurd h (by simp), Table.declares_empty⟩
  | some t => exact h.templates service t ht

theorem put (h : c.Regular) {x : Declaration} (hx : x.Accepted) : (c.put x).Regular := by
  cases x with
  | globalDefault key value => exact ⟨h.globals.set hx value, h.providers, h.templates⟩
  | providerDefault provider key value =>
    have hp := h.providerOrNew hx.1
    exact h.putProvider ⟨rfl, hp.name_eq.symm ▸ hx.1, hp.defaults.set hx.2 value⟩
  | serviceDefault service key value =>
    have ht := h.templateOrNew hx.1
    exact h.putTemplate ⟨rfl, ht.name_eq.symm ▸ hx.1, ht.type_check, ht.defaults.set hx.2 value⟩
  | serviceType service type =>
    have ht := h.templateOrNew hx.1
    refine h.putTemplate ⟨rfl, ht.name_eq.symm ▸ hx.1, fun type' htype => ?_, ht.defaults⟩
    cases htype
    exact hx.2

theorem defineProvider (h : c.Regular) {name : String} {p : ProviderDefinition}
    (hp : c.defineProvider name p = .ok c') : c'.Regular := by
  obtain ⟨hname, defaults, hdefaults, rfl⟩ := defineProvider_eq_ok_iff.1 hp
  exact h.putProvider ⟨rfl, hname, Table.declares_ofDefinition hdefaults⟩

theorem defineService (h : c.Regular) {name : String} {s : ServiceDefinition}
    (hs : c.defineService name s = .ok c') : c'.Regular := by
  obtain ⟨hname, htype, defaults, hdefaults, rfl⟩ := defineService_eq_ok_iff.1 hs
  exact h.putTemplate ⟨rfl, hname, htype, Table.declares_ofDefinition hdefaults⟩

end Regular

theorem Declared.regular (h : c.Declared) : c.Regular := by
  refine h.induction regular_empty (fun c x c' hc hx => ?_) (fun _ _ _ _ hc hp => hc.defineProvider hp)
    (fun _ _ _ _ hc hs => hc.defineService hs)
  obtain ⟨haccepted, rfl⟩ := declare_eq_ok_iff.1 hx
  exact hc.put haccepted

theorem Declared.allSet (h : c.Declared) : c.AllSet := h.regular.allSet

theorem allSet_ofDefinitions {d : Definitions} (h : ofDefinitions d = .ok c) : c.AllSet :=
  (declared_of_ofDefinitions h).allSet

/-! ### Declared keys -/

/-- Whether a key has a default in some layer. -/
def Declares (c : Catalog) (key : String) : Prop :=
  (c.globalDefault? key).isSome ∨ (∃ provider, (c.providerDefault? provider key).isSome) ∨
    ∃ service, (c.serviceDefault? service key).isSome

/-- The keys of the tables that some things have are those that can be looked up in one of them. -/
theorem mem_flatMap_keys_iff {β : Type} {m : Std.ExtTreeMap String β} {table : β → Table} {key : String} :
    key ∈ m.toList.flatMap (fun p => (table p.2).keys) ↔
      ∃ name : String, (m[name]?.bind fun b => (table b).get? key).isSome := by
  rw [List.mem_flatMap]
  constructor
  · rintro ⟨⟨name, b⟩, hb, hkey⟩
    refine ⟨name, ?_⟩
    rw [Std.ExtTreeMap.mem_toList_iff_getElem?_eq_some.1 hb]
    exact Table.mem_keys_iff.1 hkey
  · rintro ⟨name, h⟩
    obtain ⟨cell, hcell⟩ := Option.isSome_iff_exists.1 h
    obtain ⟨b, hb, hcell⟩ := Option.bind_eq_some_iff.1 hcell
    refine ⟨(name, b), Std.ExtTreeMap.mem_toList_iff_getElem?_eq_some.2 hb, ?_⟩
    exact Table.mem_keys_iff.2 (Option.isSome_of_eq_some hcell)

theorem mem_declaredKeys_iff {key : String} : key ∈ c.declaredKeys ↔ c.Declares key := by
  unfold declaredKeys Declares
  rw [List.mem_append, List.mem_append, or_assoc]
  exact or_congr Table.mem_keys_iff (or_congr mem_flatMap_keys_iff mem_flatMap_keys_iff)

/-! ### Defaults that are found -/

theorem AllSet.isSet_globalDefault (h : c.AllSet) {key : String} {cell : Cell}
    (hc : c.globalDefault? key = some cell) : cell.isSet = true := h.globals key cell hc

theorem AllSet.isSet_providerDefault (h : c.AllSet) {provider key : String} {cell : Cell}
    (hc : c.providerDefault? provider key = some cell) : cell.isSet = true := by
  obtain ⟨p, hp, hc⟩ := Option.bind_eq_some_iff.1 hc
  exact h.providers provider p hp key cell hc

theorem AllSet.isSet_serviceDefault (h : c.AllSet) {service key : String} {cell : Cell}
    (hc : c.serviceDefault? service key = some cell) : cell.isSet = true := by
  obtain ⟨t, ht, hc⟩ := Option.bind_eq_some_iff.1 hc
  exact h.templates service t ht key cell hc

end Catalog

end AccountVault
