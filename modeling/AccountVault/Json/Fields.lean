import AccountVault.Json.Basic
import AccountVault.Storage.Request
import AccountVault.Word
import Std.Data.ExtTreeMap

/-!
# Typed parts of JSON values

How structures, maps, lists and words stand in JSON.  A structure is an object whose known members
occur once and whose other members are skipped, or an array of its fields in order.  A map is an
object in which the last member of a name counts.  A word of an enumeration is a string, or an object
with the word as its only member and null as the value.
-/

namespace AccountVault.Json

/-- The names of an object's members, if all of them are text. -/
def names? (members : List (Option String × Json)) : Option (List String) := members.mapM (·.1)

/-- The fields of a structure under given names, `none` where one is missing. -/
def fields? (names : List String) : Json → Option (List (Option Json))
  | object members => do
    let present ← names? members
    if names.all (fun n => present.count n ≤ 1) then
      return names.map fun n => (members.find? (·.1 = some n)).map (·.2)
    else none
  | array items =>
    if items.length ≤ names.length then some (names.zipIdx.map fun p => items[p.2]?) else none
  | _ => none

def text? : Json → Option String
  | string s => s
  | _ => none

def boolean? : Json → Option Bool
  | boolean b => some b
  | _ => none

/-- An integer that is written without fraction and exponent. -/
def int? : Json → Option Int
  | number n => n.int?
  | _ => none

def id? (j : Json) : Option AccountId :=
  j.int?.bind fun n => if 0 ≤ n then Word.nat64? n.toNat else none

def int32? (j : Json) : Option Int32 := j.int?.bind Word.int32?

def int64? (j : Json) : Option Int64 := j.int?.bind Word.int64?

def textList? : Json → Option (List String)
  | array items => items.mapM text?
  | _ => none

/-- Text, or null for none. -/
def optionalText? : Json → Option (Option String)
  | null => some none
  | j => j.text?.map some

/-- The word of an enumeration. -/
def word? : Json → Option String
  | string s => s
  | object [(s, null)] => s
  | _ => none

/-- A map whose values are read by `f`. -/
def map? {α : Type} (f : Json → Option α) : Json → Option (Std.ExtTreeMap String α)
  | object members =>
    members.foldlM (fun m p => do
      let name ← p.1
      let v ← f p.2
      return m.insert name v) ∅
  | _ => none

/-- The object of a map. -/
def ofMap {α : Type} (f : α → Json) (m : Std.ExtTreeMap String α) : Json :=
  record (m.toList.map fun p => (p.1, f p.2))

end AccountVault.Json
