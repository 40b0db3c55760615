import AccountVault.Json.Fields
import AccountVault.Json.Reader
import AccountVault.Notice.Basic
import AccountVault.Timestamp.Basic

/-!
# The text of a notice

A notice with the time it was published at, as a JSON object.
-/

namespace AccountVault

/-- A notice and when it was published. -/
structure StampedNotice where
  notice : Notice
  timestamp : Timestamp
  deriving DecidableEq, Repr

namespace StampedNotice

def ofJson? (j : Json) : Option StampedNotice := do
  match ← j.fields? ["kind", "account_id", "changed_keys", "changed_services", "timestamp"] with
  | [some kind, some account, some keys, some services, some timestamp] =>
    return {
      notice := {
        kind := ← kind.word?.bind NoticeKind.ofName?
        account := ← account.id?
        keys := ← keys.textList?
        services := ← services.textList? }
      timestamp := ← timestamp.text?.bind Timestamp.ofText? }
  | _ => none

/-- The notice that some text holds. -/
def decode? (bs : Bytes) : Option StampedNotice := (Json.parse bs).bind ofJson?

end StampedNotice

end AccountVault
