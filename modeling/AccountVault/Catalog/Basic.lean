import AccountVault.Setting.Key
import AccountVault.Setting.Table

/-!
# Catalog

The catalog declares defaults in three layers: for everybody, for the accounts of a provider, and for
a service through its template.  A template may also say which provider offers the service and what
type of service it is.  `Catalog.declare` adds one declaration after checking its names and its key,
and changes nothing else.
-/

namespace AccountVault

/-- A provider and the defaults of its accounts. -/
structure Provider where
  name : String
  displayName : Option String := none
  defaults : Table := ∅
  deriving DecidableEq

/-- A service and the defaults of its bindings. -/
structure Template where
  name : String
  /-- The one provider that offers the service; every provider does where none is named. -/
  provider : Option String := none
  type : Option String := none
  defaults : Table := ∅
  deriving DecidableEq

/-- Whether accounts of `provider` are offered the service. -/
def Template.offeredBy (t : Template) (provider : String) : Bool :=
  t.provider.all (· = provider)

/-- Whether the service is of a type and offered to accounts of a provider. -/
def Template.supplies (t : Template) (provider type : String) : Bool :=
  t.type = some type && t.offeredBy provider

/-- Declared defaults, providers by name and templates by service name. -/
structure Catalog where
  globals : Table := ∅
  providers : Std.ExtTreeMap String Provider := ∅
  templates : Std.ExtTreeMap String Template := ∅
  deriving DecidableEq

/-- One thing to declare. -/
inductive Declaration
  | globalDefault (key : String) (value : Value)
  | providerDefault (provider key : String) (value : Value)
  | serviceDefault (service key : String) (value : Value)
  | serviceType (service type : String)
  deriving DecidableEq, Repr

namespace Catalog

def provider? (c : Catalog) (name : String) : Option Provider := c.providers[name]?

def template? (c : Catalog) (service : String) : Option Template := c.templates[service]?

def globalDefault? (c : Catalog) (key : String) : Option Cell := c.globals.get? key

def providerDefault? (c : Catalog) (provider key : String) : Option Cell :=
  (c.provider? provider).bind (·.defaults.get? key)

def serviceDefault? (c : Catalog) (service key : String) : Option Cell :=
  (c.template? service).bind (·.defaults.get? key)

/-- The names of the providers, in order. -/
def providerNames (c : Catalog) : List String := c.providers.keys

/-- The services of a type that accounts of a provider are offered, in order. -/
def servicesOfType (c : Catalog) (provider type : String) : List String :=
  ((c.templates.toList.map (·.2)).filter (·.supplies provider type)).map (·.name)
    |>.mergeSort fun a b => (compare a b).isLE

/-- Whether accounts of a provider are offered some service of a type. -/
def supports (c : Catalog) (provider type : String) : Bool :=
  c.templates.toList.any fun t => t.2.supplies provider type

/-- The provider declared under a name, or a new one. -/
def providerOrNew (c : Catalog) (name : String) : Provider :=
  (c.provider? name).getD { name }

/-- The template declared under a service's name, or a new one. -/
def templateOrNew (c : Catalog) (service : String) : Template :=
  (c.template? service).getD { name := service }

def putProvider (c : Catalog) (p : Provider) : Catalog :=
  { c with providers := c.providers.insert p.name p }

def putTemplate (c : Catalog) (t : Template) : Catalog :=
  { c with templates := c.templates.insert t.name t }

/-- Adds a declaration; keys may have up to `Key.defaultLimit` bytes. -/
def declare (c : Catalog) : Declaration → Except Problem Catalog
  | .globalDefault key value => do
    Key.check key Key.defaultLimit
    return { c with globals := c.globals.set key (.defined value .globalDefault) }
  | .providerDefault provider key value => do
    Name.check "provider" provider
    Key.check key Key.defaultLimit
    let p := c.providerOrNew provider
    return c.putProvider { p with defaults := p.defaults.set key (.defined value .providerDefault) }
  | .serviceDefault service key value => do
    Name.check "service" service
    Key.check key Key.defaultLimit
    let t := c.templateOrNew service
    return c.putTemplate { t with defaults := t.defaults.set key (.defined value .template) }
  | .serviceType service type => do
    Name.check "service" service
    Name.check "service type" type
    let t := c.templateOrNew service
    return c.putTemplate { t with type := some type }

/-- Adds declarations one after the other, up to the first that is refused. -/
def declareAll (c : Catalog) (ds : List Declaration) : Except Problem Catalog :=
  ds.foldlM declare c

/-- Every declared key: global ones, then those of each provider and each template in order. -/
def declaredKeys (c : Catalog) : List String :=
  c.globals.keys ++ c.providers.toList.flatMap (fun p => p.2.defaults.keys) ++
    c.templates.toList.flatMap (fun t => t.2.defaults.keys)

/-- Checks every declared key against a limit on its length. -/
def checkKeys (c : Catalog) (limit : Nat) : Except Problem Unit :=
  match c.declaredKeys.findSome? (Key.fault? · limit) with
  | none => .ok ()
  | some cause => .error (.config (.declaredKey cause))

theorem provider?_putProvider (c : Catalog) (p : Provider) (name : String) :
    (c.putProvider p).provider? name = if p.name = name then some p else c.provider? name := by
  simp [provider?, putProvider, Std.ExtTreeMap.getElem?_insert]

theorem template?_putTemplate (c : Catalog) (t : Template) (service : String) :
    (c.putTemplate t).template? service =
      if t.name = service then some t else c.template? service := by
  simp [template?, putTemplate, Std.ExtTreeMap.getElem?_insert]

theorem checkKeys_eq_ok_iff {c : Catalog} {limit : Nat} :
    c.checkKeys limit = .ok () ↔ ∀ key ∈ c.declaredKeys, Key.check key limit = .ok () := by
  simp only [Key.check_eq_ok_iff]
  unfold checkKeys
  split
  · next h => simpa using h
  · next cause h =>
    obtain ⟨key, hmem, hkey⟩ := List.exists_of_findSome?_eq_some h
    simp only [reduceCtorEq, false_iff]
    exact fun hall => absurd (hall key hmem) (by simp [hkey])

end Catalog

end AccountVault
