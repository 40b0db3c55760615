import AccountVault.Json.Fields
import AccountVault.Json.Reader
import AccountVault.Record.Basic

/-!
# The text of a record

A record is kept as a compact JSON object with its fields in the order of the structure, the display
name left out where there is none, and maps in the order of their keys.  A value is written with its
type beside it.
-/

namespace AccountVault

namespace Value

/-- The payload of a value. -/
def dataToJson : Value → Json
  | text s => .text s
  | integer n => .int n.toInt
  | integer64 n => .int n.toInt
  | boolean b => .boolean b
  | textList items => .array (items.map .text)

def toJson (v : Value) : Json := .record [("type", .text v.type.name), ("data", v.dataToJson)]

/-- The payload read at a type. -/
def ofData? (j : Json) : ValueType → Option Value
  | .text => j.text?.map text
  | .integer => j.int32?.map integer
  | .integer64 => j.int64?.map integer64
  | .boolean => j.boolean?.map boolean
  | .textList => j.textList?.map textList

/-- The word for the type of a value; in an array it has to be a string. -/
def typeWord? (j type : Json) : Option String :=
  match j with
  | .array _ => type.text?
  | _ => type.word?

def ofJson? (j : Json) : Option Value := do
  match ← j.fields? ["type", "data"] with
  | [some type, some data] =>
    let t ← (typeWord? j type).bind ValueType.ofName?
    ofData? data t
  | _ => none

end Value

namespace StoredCell

def toJson (c : StoredCell) : Json :=
  .record [("source", .text (Source.name c.source)), ("value", c.value.toJson)]

def ofJson? (j : Json) : Option StoredCell := do
  match ← j.fields? ["source", "value"] with
  | [some source, some value] =>
    return ⟨← source.word?.bind Source.ofName?, ← Value.ofJson? value⟩
  | _ => none

end StoredCell

namespace BindingRecord

def toJson (r : BindingRecord) : Json :=
  .record [("provider_type", .text r.providerType), ("enabled", .boolean r.enabled),
    ("settings", .ofMap StoredCell.toJson r.settings)]

/-- Settings may be left out, but not be null. -/
def ofJson? (j : Json) : Option BindingRecord := do
  match ← j.fields? ["provider_type", "enabled", "settings"] with
  | [some providerType, some enabled, settings] =>
    return {
      providerType := ← providerType.text?
      enabled := ← enabled.boolean?
      settings := ← (settings.map (·.map? StoredCell.ofJson?)).getD (some ∅) }
  | _ => none

end BindingRecord

namespace Record

def toJson (r : Record) : Json :=
  .record <|
    [("id", .int r.id.toNat), ("provider", .text r.provider)] ++
    (r.displayName.map fun name => ("display_name", Json.text name)).toList ++
    [("enabled", .boolean r.enabled), ("settings", .ofMap StoredCell.toJson r.settings),
      ("services", .ofMap BindingRecord.toJson r.services)]

/-- The display name may be left out or null; settings and services may be left out. -/
def ofJson? (j : Json) : Option Record := do
  match ← j.fields? ["id", "provider", "display_name", "enabled", "settings", "services"] with
  | [some id, some provider, displayName, some enabled, settings, services] =>
    return {
      id := ← id.id?
      provider := ← provider.text?
      displayName := ← (displayName.map Json.optionalText?).getD (some none)
      enabled := ← enabled.boolean?
      settings := ← (settings.map (·.map? StoredCell.ofJson?)).getD (some ∅)
      services := ← (services.map (·.map? BindingRecord.ofJson?)).getD (some ∅) }
  | _ => none

/-- The bytes that a record is kept as. -/
def encode (r : Record) : Bytes := r.toJson.print

/-- The record that some bytes hold. -/
def decode (bs : Bytes) : Except Problem Record :=
  match (Json.parse bs).bind ofJson? with
  | some r => .ok r
  | none => .error (.persistence .unreadable)

end Record

end AccountVault
