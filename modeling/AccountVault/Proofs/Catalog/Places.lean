import AccountVault.Proofs.Catalog.Declared
import AccountVault.Proofs.Setting.Segments
import Mathlib.Data.List.Perm.Basic

/-!
# Places of a catalog

A declaration is for one place of the catalog (`Declaration.place`): a key of one of the three layers, or
the type of a service.  In a regular catalog it puts its item there and leaves what is in all other places,
the display names and the providers of templates.  Because declared keys are accepted but for their length,
checking them against another limit compares lengths only, in whatever order the keys come.  Main statement:
`declared_catalogs_are_regular`.
-/

namespace AccountVault

/-- Where a catalog keeps what is declared. -/
inductive Catalog.Place
  | globalDefault (key : String)
  | providerDefault (provider key : String)
  | serviceDefault (service key : String)
  | serviceType (service : String)
  deriving DecidableEq

/-- What a catalog keeps in one place. -/
inductive Catalog.Item
  | default (cell : Cell)
  | type (name : String)
  deriving DecidableEq

namespace Declaration

def place : Declaration → Catalog.Place
  | globalDefault key _ => .globalDefault key
  | providerDefault provider key _ => .providerDefault provider key
  | serviceDefault service key _ => .serviceDefault service key
  | serviceType service _ => .serviceType service

def item : Declaration → Catalog.Item
  | globalDefault _ value => .default (.defined value .globalDefault)
  | providerDefault _ _ value => .default (.defined value .providerDefault)
  | serviceDefault _ _ value => .default (.defined value .template)
  | serviceType _ type => .type type

end Declaration

/-- A key that was accepted can only be too long. -/
theorem Key.of_fault?_eq_some {key : String} {limit limit' : Nat} {cause : Invalid}
    (h : check key limit = .ok ()) (hcause : fault? key limit' = some cause) :
    limit' < key.utf8ByteSize ∧ cause = .longKey key limit' := by
  have hne : key ≠ "" := ne_empty_of_check h
  have hsegments : segmentFault? key (segments key.toList) = none :=
    segmentFault?_eq_none_iff.2 (check_eq_ok_iff_isSegment.1 h).2
  rw [fault?, if_neg hne, hsegments] at hcause
  split at hcause
  · next hlong =>
    cases hcause
    exact ⟨hlong, rfl⟩
  · exact absurd hcause (by simp)

namespace Catalog

/-- The type of the service that a template is for. -/
def serviceType? (c : Catalog) (service : String) : Option String := (c.template? service).bind (·.type)

def item? (c : Catalog) : Place → Option Item
  | .globalDefault key => (c.globalDefault? key).map .default
  | .providerDefault provider key => (c.providerDefault? provider key).map .default
  | .serviceDefault service key => (c.serviceDefault? service key).map .default
  | .serviceType service => (c.serviceType? service).map .type

variable {c c' : Catalog} {x : Declaration} {key name service : String}

/-! ### What a declaration changes -/

theorem get?_providerOrNew (c : Catalog) (name key : String) :
    (c.providerOrNew name).defaults.get? key = c.providerDefault? name key := by
  rw [providerOrNew, providerDefault?]
  cases c.provider? name with
  | none => exact Table.get?_empty key
  | some p => rfl

theorem get?_templateOrNew (c : Catalog) (service key : String) :
    (c.templateOrNew service).defaults.get? key = c.serviceDefault? service key := by
  rw [templateOrNew, serviceDefault?]
  cases c.template? service with
  | none => exact Table.get?_empty key
  | some t => rfl

theorem type_templateOrNew (c : Catalog) (service : String) :
    (c.templateOrNew service).type = c.serviceType? service := by
  rw [templateOrNew, serviceType?]
  cases c.template? service <;> rfl

theorem displayName_providerOrNew (c : Catalog) (name : String) :
    (c.providerOrNew name).displayName = (c.provider? name).bind Provider.displayName := by
  rw [providerOrNew]
  cases c.provider? name <;> rfl

theorem provider_templateOrNew (c : Catalog) (service : String) :
    (c.templateOrNew service).provider = (c.template? service).bind Template.provider := by
  rw [templateOrNew]
  cases c.template? service <;> rfl

namespace Regular

/-- The provider of a declaration, and no other, gets a default more. -/
theorem provider?_put (h : c.Regular) {provider key : String} {value : Value}
    (hx : (Declaration.providerDefault provider key value).Accepted) (name : String) :
    (c.put (.providerDefault provider key value)).provider? name =
      if provider = name then some { c.providerOrNew provider with
        defaults := (c.providerOrNew provider).defaults.set key (.defined value .providerDefault) }
      else c.provider? name := by
  rw [Catalog.put, provider?_putProvider]
  simp only [(h.providerOrNew hx.1).name_eq]

theorem template?_put_default (h : c.Regular) {value : Value}
    (hx : (Declaration.serviceDefault service key value).Accepted) (name : String) :
    (c.put (.serviceDefault service key value)).template? name =
      if service = name then some { c.templateOrNew service with
        defaults := (c.templateOrNew service).defaults.set key (.defined value .template) }
      else c.template? name := by
  rw [Catalog.put, template?_putTemplate]
  simp only [(h.templateOrNew hx.1).name_eq]

theorem template?_put_type (h : c.Regular) {type : String}
    (hx : (Declaration.serviceType service type).Accepted) (name : String) :
    (c.put (.serviceType service type)).template? name =
      if service = name then some { c.templateOrNew service with type := some type }
      else c.template? name := by
  rw [Catalog.put, template?_putTemplate]
  simp only [(h.templateOrNew hx.1).name_eq]

/-- A declaration puts its item in its place, and changes no other place. -/
theorem item?_put (h : c.Regular) (hx : x.Accepted) (p : Place) :
    (c.put x).item? p = if x.place = p then some x.item else c.item? p := by
  cases x with
  | globalDefault key value =>
    cases p with
    | globalDefault other =>
      have hget : (c.put (.globalDefault key value)).globalDefault? other =
          if key = other then some (.defined value .globalDefault) else c.globalDefault? other :=
        Table.get?_set ..
      rw [item?, hget]
      by_cases hkey : key = other <;> simp [Declaration.place, Declaration.item, item?, hkey]
    | _ => rfl
  | providerDefault provider key value =>
    cases p with
    | providerDefault name other =>
      rw [item?, providerDefault?, h.provider?_put hx]
      by_cases hname : provider = name
      · subst hname
        by_cases hkey : key = other <;>
          simp [Declaration.place, Declaration.item, item?, Table.get?_set, get?_providerOrNew, hkey]
      · simp [Declaration.place, item?, providerDefault?, hname]
    | _ => rfl
  | serviceDefault service key value =>
    cases p with
    | serviceDefault name other =>
      rw [item?, serviceDefault?, h.template?_put_default hx]
      by_cases hname : service = name
      · subst hname
        by_cases hkey : key = other <;>
          simp [Declaration.place, Declaration.item, item?, Table.get?_set, get?_templateOrNew, hkey]
      · simp [Declaration.place, item?, serviceDefault?, hname]
    | serviceType name =>
      rw [item?, serviceType?, h.template?_put_default hx]
      by_cases hname : service = name
      · subst hname
        simp [Declaration.place, item?, serviceType?, type_templateOrNew]
      · simp [Declaration.place, item?, serviceType?, hname]
    | _ => rfl
  | serviceType service type =>
    cases p with
    | serviceDefault name other =>
      rw [item?, serviceDefault?, h.template?_put_type hx]
      by_cases hname : service = name
      · subst hname
        simp [Declaration.place, item?, get?_templateOrNew]
      · simp [Declaration.place, item?, serviceDefault?, hname]
    | serviceType name =>
      rw [item?, serviceType?, h.template?_put_type hx]
      by_cases hname : service = name <;>
        simp [Declaration.place, Declaration.item, item?, serviceType?, hname]
    | _ => rfl

/-- What providers are called is left to definitions. -/
theorem displayName_put (h : c.Regular) (hx : x.Accepted) (name : String) :
    ((c.put x).provider? name).bind Provider.displayName =
      (c.provider? name).bind Provider.displayName := by
  cases x with
  | providerDefault provider key value =>
    rw [h.provider?_put hx]
    split
    · next heq => exact heq ▸ c.displayName_providerOrNew provider
    · rfl
  | _ => rfl

/-- Who offers a service is left to definitions. -/
theorem provider_put (h : c.Regular) (hx : x.Accepted) (name : String) :
    ((c.put x).template? name).bind Template.provider = (c.template? name).bind Template.provider := by
  cases x with
  | serviceDefault service key value =>
    rw [h.template?_put_default hx]
    split
    · next heq => exact heq ▸ c.provider_templateOrNew service
    · rfl
  | serviceType service type =>
    rw [h.template?_put_type hx]
    split
    · next heq => exact heq ▸ c.provider_templateOrNew service
    · rfl
  | _ => rfl

end Regular

/-! ### The order in which keys are checked -/

/-- `checkKeys`, with the providers and the templates in a given order. -/
def checkKeysIn (c : Catalog) (providers : List (String × Provider)) (templates : List (String × Template))
    (limit : Nat) : Except Problem Unit :=
  let keys := c.globals.keys ++ providers.flatMap (·.2.defaults.keys) ++
    templates.flatMap (·.2.defaults.keys)
  match keys.findSome? (Key.fault? · limit) with
  | none => .ok ()
  | some cause => .error (.config (.declaredKey cause))

theorem checkKeysIn_toList (c : Catalog) (limit : Nat) :
    c.checkKeysIn c.providers.toList c.templates.toList limit = c.checkKeys limit := rfl

theorem Regular.check_of_declares (h : c.Regular) (hkey : c.Declares key) :
    Key.check key Key.defaultLimit = .ok () := by
  rcases hkey with hkey | ⟨provider, hkey⟩ | ⟨service, hkey⟩
  · obtain ⟨cell, hcell⟩ := Option.isSome_iff_exists.1 hkey
    exact (h.globals key cell hcell).1
  · obtain ⟨cell, hcell⟩ := Option.isSome_iff_exists.1 hkey
    obtain ⟨p, hp, hcell⟩ := Option.bind_eq_some_iff.1 hcell
    exact ((h.providers provider p hp).defaults key cell hcell).1
  · obtain ⟨cell, hcell⟩ := Option.isSome_iff_exists.1 hkey
    obtain ⟨t, ht, hcell⟩ := Option.bind_eq_some_iff.1 hcell
    exact ((h.templates service t ht).defaults key cell hcell).1

section

variable {providers : List (String × Provider)} {templates : List (String × Template)} {limit : Nat}

/-- The order does not matter to which keys there are. -/
theorem mem_keys_iff_declares (hproviders : providers.Perm c.providers.toList)
    (htemplates : templates.Perm c.templates.toList) :
    key ∈ c.globals.keys ++ providers.flatMap (·.2.defaults.keys) ++
      templates.flatMap (·.2.defaults.keys) ↔ c.Declares key := by
  rw [← mem_declaredKeys_iff]
  exact (((hproviders.flatMap_right _).append_left _).append (htemplates.flatMap_right _)).mem_iff

theorem Regular.checkKeysIn_eq_ok_iff (h : c.Regular) (hproviders : providers.Perm c.providers.toList)
    (htemplates : templates.Perm c.templates.toList) :
    c.checkKeysIn providers templates limit = .ok () ↔
      ∀ key, c.Declares key → key.utf8ByteSize ≤ limit := by
  unfold checkKeysIn
  simp only
  split
  · next hnone =>
    rw [List.findSome?_eq_none_iff] at hnone
    refine ⟨fun _ key hkey => ?_, fun _ => rfl⟩
    have hfault := hnone key ((mem_keys_iff_declares hproviders htemplates).2 hkey)
    exact (Key.check_eq_ok_iff_isSegment.1 (Key.check_eq_ok_iff.2 hfault)).1
  · next cause hsome =>
    obtain ⟨key, hkey, hfault⟩ := List.exists_of_findSome?_eq_some hsome
    have hdeclares := (mem_keys_iff_declares hproviders htemplates).1 hkey
    have hlong := (Key.of_fault?_eq_some (h.check_of_declares hdeclares) hfault).1
    refine ⟨fun hok => absurd hok (by simp), fun hall => ?_⟩
    exact absurd (hall key hdeclares) (Nat.not_le.2 hlong)

/-- What is reported is a declared key that is too long. -/
theorem Regular.exists_of_checkKeysIn_eq_error (h : c.Regular)
    (hproviders : providers.Perm c.providers.toList) (htemplates : templates.Perm c.templates.toList)
    {e : Problem} (he : c.checkKeysIn providers templates limit = .error e) :
    ∃ key, c.Declares key ∧ limit < key.utf8ByteSize ∧ e = .config (.declaredKey (.longKey key limit)) := by
  unfold checkKeysIn at he
  simp only at he
  split at he
  · exact absurd he (by simp)
  · next cause hsome =>
    cases he
    obtain ⟨key, hkey, hfault⟩ := List.exists_of_findSome?_eq_some hsome
    have hdeclares := (mem_keys_iff_declares hproviders htemplates).1 hkey
    obtain ⟨hlong, rfl⟩ := Key.of_fault?_eq_some (h.check_of_declares hdeclares) hfault
    exact ⟨key, hdeclares, hlong, rfl⟩

end

end Catalog

/-- A catalog that comes from definitions, or from nothing, and from declarations after that is regular:
its providers and templates are kept under their own names, which are accepted, and its defaults have
accepted keys, are set and carry their layers.  A declaration that goes through puts its item in its place
and changes no other place, no display name and no provider of a template.  Checking the keys against a limit
goes through exactly if every declared key is short enough, in whatever order the providers and the templates
come, and reports a declared key that is too long otherwise. -/
theorem declared_catalogs_are_regular {c : Catalog} (hc : c.Declared) :
    c.Regular ∧
      (∀ x c', c.declare x = .ok c' → c'.Declared ∧
        (∀ p, c'.item? p = if x.place = p then some x.item else c.item? p) ∧
        (∀ name, (c'.provider? name).bind Provider.displayName =
          (c.provider? name).bind Provider.displayName) ∧
        ∀ service, (c'.template? service).bind Template.provider =
          (c.template? service).bind Template.provider) ∧
      ∀ limit, (c.checkKeys limit = .ok () ↔ ∀ key, c.Declares key → key.utf8ByteSize ≤ limit) ∧
        ∀ providers templates, providers.Perm c.providers.toList → templates.Perm c.templates.toList →
          (c.checkKeysIn providers templates limit = .ok () ↔ c.checkKeys limit = .ok ()) ∧
          ∀ e, c.checkKeysIn providers templates limit = .error e → ∃ key, c.Declares key ∧
            limit < key.utf8ByteSize ∧ e = .config (.declaredKey (.longKey key limit)) := by
  have h := hc.regular
  have hcheck : ∀ limit, c.checkKeys limit = .ok () ↔
      ∀ key, c.Declares key → key.utf8ByteSize ≤ limit := by
    intro limit
    rw [← c.checkKeysIn_toList]
    exact h.checkKeysIn_eq_ok_iff (.refl _) (.refl _)
  refine ⟨h, fun x c' hx => ?_, fun limit => ⟨hcheck limit, fun providers templates hp ht => ?_⟩⟩
  · obtain ⟨haccepted, rfl⟩ := Catalog.declare_eq_ok_iff.1 hx
    exact ⟨hc.declare hx, h.item?_put haccepted, h.displayName_put haccepted, h.provider_put haccepted⟩
  · exact ⟨(h.checkKeysIn_eq_ok_iff hp ht).trans (hcheck limit).symm,
      fun e he => h.exists_of_checkKeysIn_eq_error hp ht he⟩

/-- A service of a document gets a type, and a provider of it a longer key than a limit of four bytes
allows. -/
theorem declared_catalogs_are_regular_of_document :
    let settings : Std.ExtTreeMap String Yaml.Datum :=
      (∅ : Std.ExtTreeMap String Yaml.Datum).insert "host" (.text "h")
    let d : Definitions :=
      { providers := (∅ : Std.ExtTreeMap String ProviderDefinition).insert "acme"
          { displayName := some "Acme", settings }
        services := (∅ : Std.ExtTreeMap String ServiceDefinition).insert "mail"
          { provider := some "acme", settings } }
    let base := (Catalog.ofDefinitions d).toOption.getD {}
    let ds : List Declaration := [.providerDefault "acme" "color" (.text "red")]
    let c := (base.declareAll ds).toOption.getD {}
    let c' := (c.declare (.serviceType "mail" "email")).toOption.getD {}
    c.item? (.providerDefault "acme" "color") = some (.default (.defined (.text "red") .providerDefault)) ∧
      c'.item? (.serviceType "mail") = some (.type "email") ∧
      c'.item? (.serviceDefault "mail" "host") = some (.default (.defined (.text "h") .template)) ∧
      (c'.provider? "acme").bind Provider.displayName = some "Acme" ∧
      c.checkKeysIn c.providers.toList.reverse c.templates.toList.reverse 4 ≠ .ok () := by
  intro settings d base ds c c'
  have hd : Catalog.ofDefinitions d = .ok base := by decide +kernel
  have hc : c.Declared := ⟨base, ds, .inr ⟨d, hd⟩, by decide +kernel⟩
  have hx : c.declare (.serviceType "mail" "email") = .ok c' := by decide +kernel
  obtain ⟨-, hdeclare, hcheck⟩ := declared_catalogs_are_regular hc
  obtain ⟨-, hitem, hdisplay, -⟩ := hdeclare _ c' hx
  have hlong : c.checkKeys 4 ≠ .ok () := by decide +kernel
  have horder := ((hcheck 4).2 _ _ (List.reverse_perm _) (List.reverse_perm _)).1
  refine ⟨by decide +kernel, by simp [hitem, Declaration.place, Declaration.item], ?_, ?_, ?_⟩
  · rw [hitem, if_neg (by decide)]
    decide +kernel
  · rw [hdisplay]
    decide +kernel
  · exact fun hok => hlong (horder.1 hok)

end AccountVault
