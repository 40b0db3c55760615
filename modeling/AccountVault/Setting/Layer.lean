/-!
# Layers

A setting can be defined in six layers.  `Layer.rank` orders them from the weakest to the
strongest; a `Source` is the layer that a value came from, or `none` where no layer defines one.
-/

namespace AccountVault

/-- A place that can define a setting. -/
inductive Layer
  /-- Shipped for every account. -/
  | globalDefault
  /-- Declared by the account's provider. -/
  | providerDefault
  /-- Declared by the template of a service. -/
  | template
  /-- Written on the account. -/
  | account
  /-- Written on a service of the account. -/
  | service
  /-- Forced by the application for a service. -/
  | application
  deriving DecidableEq, Repr

namespace Layer

/-- Precedence, from the weakest layer to the strongest. -/
def rank : Layer → Nat
  | globalDefault => 1
  | providerDefault => 2
  | template => 3
  | account => 4
  | service => 5
  | application => 6

/-- The word for a layer in records and answers. -/
def name : Layer → String
  | globalDefault => "default"
  | providerDefault => "account_default"
  | template => "service_template"
  | account => "account"
  | service => "service_override"
  | application => "application"

theorem rank_injective {a b : Layer} (h : a.rank = b.rank) : a = b := by
  cases a <;> cases b <;> simp_all [rank]

theorem rank_pos (l : Layer) : 0 < l.rank := by
  cases l <;> decide

end Layer

/-- Where a value came from; `none` means that there is no value. -/
abbrev Source := Option Layer

namespace Source

/-- Precedence of a source, `none` below every layer. -/
def rank : Source → Nat
  | none => 0
  | some l => l.rank

/-- The word for a source in records and answers. -/
def name : Source → String
  | none => "none"
  | some l => l.name

/-- Every source, from the weakest to the strongest. -/
def all : List Source :=
  [none, some .globalDefault, some .providerDefault, some .template, some .account,
    some .service, some .application]

/-- The source with a given word. -/
def ofName? (s : String) : Option Source := all.find? fun a => a.name = s

theorem ofName?_name (a : Source) : ofName? a.name = some a := by
  rcases a with _ | l
  · decide +kernel
  · cases l <;> decide +kernel

theorem rank_injective {a b : Source} (h : rank a = rank b) : a = b := by
  rcases a with _ | a <;> rcases b with _ | b
  · rfl
  · exact absurd h.symm (Nat.ne_of_gt b.rank_pos)
  · exact absurd h (Nat.ne_of_gt a.rank_pos)
  · exact congrArg some (Layer.rank_injective h)

end Source

end AccountVault
