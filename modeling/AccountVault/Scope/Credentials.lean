import AccountVault.Scope.Lookup

/-!
# Credentials

How an account signs in to a service.  The method, the mechanism and the id of the stored secret are
plain settings of the service's scope.  Parameters are the settings under
`auth.<method>.<mechanism>.`: what the account's scope sees, and over it what the service's scope
sees, with that beginning taken off the keys.
-/

namespace AccountVault

/-- What a sign-in needs. -/
structure Credentials where
  /-- The id of the secret in an external store, 0 where none is set. -/
  id : UInt32
  method : String
  mechanism : String
  parameters : Std.ExtTreeMap String Value := ∅

namespace Credentials

def idKey : String := "credentials_id"

def methodKey : String := "auth.method"

def mechanismKey : String := "auth.mechanism"

/-- Credentials without parameters.  The method and the mechanism have to be single key segments, so
that together they name one group of keys. -/
def make (id : Int64) (method mechanism : String) : Except Problem Credentials := do
  unless 0 ≤ id.toInt ∧ id.toInt < UInt32.size do
    throw (.invalid (.credentialsRange id))
  unless Key.isSegment method.toList do
    throw (.invalid (.authSegment "method" method))
  unless Key.isSegment mechanism.toList do
    throw (.invalid (.authSegment "mechanism" mechanism))
  return { id := UInt32.ofNat id.toInt.toNat, method, mechanism }

/-- What the keys of the parameters begin with. -/
def lead (c : Credentials) : String := "auth." ++ c.method ++ "." ++ c.mechanism ++ "."

/-- Adds the cells of a table under their names after the lead. -/
def gather (c : Credentials) (t : Table) : Credentials :=
  t.toList.foldl (fun c p =>
    match p.2.value? with
    | none => c
    | some v =>
      let name := String.ofList (p.1.toList.drop c.lead.length)
      { c with parameters := c.parameters.insert name v }) c

/-- The parameters with others laid over them, the last of a name winning. -/
def login (c : Credentials) (extra : List (String × Value)) : Std.ExtTreeMap String Value :=
  extra.foldl (fun m p => m.insert p.1 p.2) c.parameters

end Credentials

/-- The credentials of a service, or none where no layer names a method or a mechanism. -/
def Layers.credentials (l : Layers) (service : String) : Except Problem (Option Credentials) := do
  let scope := Scope.service service
  let method ← l.resolve scope Credentials.methodKey .text ""
  let mechanism ← l.resolve scope Credentials.mechanismKey .text ""
  if method.source = none ∨ mechanism.source = none then
    return none
  let id ← l.resolve scope Credentials.idKey .integer64 0
  let c ← Credentials.make id.value method.value mechanism.value
  let seen (scope : Scope) := l.effective scope (some c.lead)
  return some ((c.gather (seen .account)).gather (seen scope))

end AccountVault
