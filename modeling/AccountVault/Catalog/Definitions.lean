import AccountVault.Catalog.Basic
import AccountVault.Word
import AccountVault.Yaml.Fields

/-!
# Definitions

The contents of a catalog as a document: defaults, providers and services by name, with settings that
have no type yet.  `Catalog.ofDefinitions` checks them and gives the settings their types; a whole
number becomes a 32-bit integer if it fits and a 64-bit one otherwise.
-/

namespace AccountVault

/-- What a document says about a provider. -/
structure ProviderDefinition where
  displayName : Option String := none
  settings : Std.ExtTreeMap String Yaml.Datum := ∅

/-- What a document says about a service. -/
structure ServiceDefinition where
  provider : Option String := none
  type : Option String := none
  settings : Std.ExtTreeMap String Yaml.Datum := ∅

structure Definitions where
  defaults : Std.ExtTreeMap String Yaml.Datum := ∅
  providers : Std.ExtTreeMap String ProviderDefinition := ∅
  services : Std.ExtTreeMap String ServiceDefinition := ∅

/-! ### Reading the document -/

/-- A map whose values are read by `f`; the last entry of a key counts.  The map may be left out. -/
def Yaml.Tree.map? {α : Type} (f : Tree → Option α) : Option Tree → Option (Std.ExtTreeMap String α)
  | none => some ∅
  | some t => do
    (← t.entries?).foldlM (fun m p => do return m.insert p.1 (← f p.2)) ∅

/-- A text that may be null or left out. -/
def Yaml.Tree.textOrNone? : Option Tree → Option (Option String)
  | none => some none
  | some t => t.optionalText?

def ProviderDefinition.ofTree? (t : Yaml.Tree) : Option ProviderDefinition := do
  match ← t.fields? ["display_name", "settings"] with
  | [name, settings] =>
    return ⟨← Yaml.Tree.textOrNone? name, ← Yaml.Tree.map? Yaml.Tree.datum? settings⟩
  | _ => none

def ServiceDefinition.ofTree? (t : Yaml.Tree) : Option ServiceDefinition := do
  match ← t.fields? ["provider", "type", "settings"] with
  | [provider, type, settings] =>
    return ⟨← Yaml.Tree.textOrNone? provider, ← Yaml.Tree.textOrNone? type,
      ← Yaml.Tree.map? Yaml.Tree.datum? settings⟩
  | _ => none

def Definitions.ofTree? (t : Yaml.Tree) : Option Definitions := do
  match ← t.fields? ["defaults", "providers", "services"] with
  | [defaults, providers, services] =>
    return ⟨← Yaml.Tree.map? Yaml.Tree.datum? defaults,
      ← Yaml.Tree.map? ProviderDefinition.ofTree? providers,
      ← Yaml.Tree.map? ServiceDefinition.ofTree? services⟩
  | _ => none

/-! ### From definitions to a catalog -/

/-- The text of an item of a list; a tag does not count. -/
def Yaml.Datum.itemText? : Datum → Option String
  | text s => some s
  | tagged _ d => itemText? d
  | _ => none

/-- The setting that a datum stands for. -/
def Value.ofDatum? : Yaml.Datum → Option Value
  | .text s => some (.text s)
  | .boolean b => some (.boolean b)
  | .integer n =>
    match Word.int32? n with
    | some w => some (.integer w)
    | none => (Word.int64? n).map .integer64
  | .sequence items => (items.mapM Yaml.Datum.itemText?).map .textList
  | _ => none

/-- The setting that a datum stands for under a key. -/
def Value.ofDatum (key : String) (d : Yaml.Datum) : Except Problem Value :=
  match ofDatum? d with
  | some v => .ok v
  | none => .error (.config (.unsupportedValue key))

/-- The defaults of a provider or a service, all from one layer. -/
def Table.ofDefinition (layer : Layer) (settings : Std.ExtTreeMap String Yaml.Datum) :
    Except Problem Table :=
  settings.toList.foldlM (fun t p => do
    Key.check p.1 Key.defaultLimit
    let v ← Value.ofDatum p.1 p.2
    return t.set p.1 (.defined v layer)) ∅

namespace Catalog

def defineGlobal (c : Catalog) (key : String) (d : Yaml.Datum) : Except Problem Catalog := do
  let v ← Value.ofDatum key d
  c.declare (.globalDefault key v)

def defineProvider (c : Catalog) (name : String) (p : ProviderDefinition) :
    Except Problem Catalog := do
  Name.check "provider" name
  let defaults ← Table.ofDefinition .providerDefault p.settings
  return c.putProvider { name, displayName := p.displayName, defaults }

def defineService (c : Catalog) (name : String) (s : ServiceDefinition) :
    Except Problem Catalog := do
  Name.check "service" name
  if let some type := s.type then Name.check "service type" type
  let defaults ← Table.ofDefinition .template s.settings
  return c.putTemplate { name, provider := s.provider, type := s.type, defaults }

/-- The catalog of some definitions; they are checked in order, each kind by name. -/
def ofDefinitions (d : Definitions) : Except Problem Catalog := do
  let c ← d.defaults.toList.foldlM (fun c p => c.defineGlobal p.1 p.2) {}
  let c ← d.providers.toList.foldlM (fun c p => c.defineProvider p.1 p.2) c
  d.services.toList.foldlM (fun c p => c.defineService p.1 p.2) c

/-- The catalog that a YAML text defines. -/
def ofText (text : String) : Except Problem Catalog :=
  match (Yaml.Tree.parse? text).bind Definitions.ofTree? with
  | none => .error (.config .unreadableDefinitions)
  | some d => ofDefinitions d

end Catalog

end AccountVault
