import AccountVault.Proofs.Account.Edits

/-!
# Edits made in place

An edit can be carried out on an account in place, one check or one change after the other
(`Account.perform`); what has been done when a check fails stays done.  All checks come before the first
change, so that it is the same as to edit the account at once or not at all (`Account.on_perform`).
-/

namespace AccountVault

/-- Work on something in place.  Where it breaks off, what it has done until then stays. -/
abbrev InPlace (σ α : Type) : Type := ExceptT Problem (StateM σ) α

namespace InPlace

variable {σ α β : Type} {s : σ}

/-- The result of some work, and what it was done on as it is then. -/
def on (x : InPlace σ α) (s : σ) : Except Problem α × σ := x.run.run s

/-- Goes on if a check went well. -/
def require (x : Except Problem α) : InPlace σ α := ExceptT.mk (pure x)

/-- What is left, and the result, where something is done at once or not at all. -/
def after (s : σ) : Except Problem (σ × α) → Except Problem α × σ
  | .ok (s', x) => (.ok x, s')
  | .error e => (.error e, s)

theorem on_pure (x : α) : (pure x : InPlace σ α).on s = (.ok x, s) := rfl

theorem on_get_bind (f : σ → InPlace σ β) : (get >>= f).on s = (f s).on s := rfl

theorem on_modify_bind (g : σ → σ) (f : Unit → InPlace σ β) :
    ((modify g : InPlace σ Unit) >>= f).on s = (f ()).on (g s) := rfl

theorem on_bind_of_ok {x : InPlace σ α} {f : α → InPlace σ β} {s' : σ} {y : α}
    (h : x.on s = (.ok y, s')) : (x >>= f).on s = (f y).on s' := by
  have hx : x s = (.ok y, s') := h
  have hbind : (x >>= f).on s = ExceptT.bindCont f (x s).1 (x s).2 := rfl
  rw [hbind, hx]
  rfl

/-- Work that is broken off does not go on. -/
theorem on_bind_of_error {x : InPlace σ α} {f : α → InPlace σ β} {s' : σ} {e : Problem}
    (h : x.on s = (.error e, s')) : (x >>= f).on s = (.error e, s') := by
  have hx : x s = (.error e, s') := h
  have hbind : (x >>= f).on s = ExceptT.bindCont f (x s).1 (x s).2 := rfl
  rw [hbind, hx]
  rfl

/-- To check changes nothing. -/
theorem on_require (x : Except Problem α) :
    (require x : InPlace σ α).on s = after s (x.map fun y => (s, y)) := by
  cases x <;> rfl

/-- A check ends the work in place where it ends what is done at once. -/
theorem on_require_eq_after {x : Except Problem α} {f : α → InPlace σ β}
    {g : α → Except Problem (σ × β)} (h : ∀ y, x = .ok y → (f y).on s = after s (g y)) :
    (require x >>= f).on s = after s (x >>= g) := by
  cases x with
  | error e => rfl
  | ok y => exact h y rfl

end InPlace

namespace Account

/-! ### What an edit is made of -/

def requireLive (id : AccountId) : InPlace Account Unit := do
  InPlace.require ((← get).checkLive id)

def log (f : ChangeLog → ChangeLog) : InPlace Account Unit :=
  modify fun a => { a with changes := f a.changes }

/-- The binding of a service, which is made if it is not there. -/
def binding (service : String) : InPlace Account Binding := do
  let a ← get
  match a.bindings[service]? with
  | some b => return b
  | none =>
    let b : Binding := { name := service, providerType := a.provider }
    set (a.putBinding service b)
    return b

open InPlace

/-- An edit, check by check and change by change. -/
def perform (limit : Nat) (id : AccountId) : Edit → InPlace Account Bool
  | .rename name => do
    requireLive id
    if (← get).displayName ≠ some name then
      modify fun a => { a with displayName := some name }
      log (·.touch)
    return false
  | .setEnabled on => do
    requireLive id
    if (← get).enabled ≠ on then
      modify fun a => { a with enabled := on }
      log (·.touch)
    return false
  | .write .account key value source => do
    require (Key.check key limit)
    let cell ← require (Cell.define value source)
    requireLive id
    modify fun a => { a with settings := a.settings.set key cell }
    log (·.touchKey key)
    return false
  | .write (.service name) key value source => do
    require (Key.check key limit)
    let cell ← require (Cell.define value source)
    requireLive id
    let b ← binding name
    modify (·.putBinding name { b with settings := b.settings.set key cell })
    log (·.touchServiceKey name key)
    return false
  | .remove .account key => do
    require (Key.check key limit)
    requireLive id
    let found := (← get).settings.contains key
    modify fun a => { a with settings := a.settings.erase key }
    if found then log (·.touchKey key)
    return found
  | .remove (.service name) key => do
    require (Key.check key limit)
    requireLive id
    let b ← binding name
    let found := b.settings.contains key
    modify (·.putBinding name { b with settings := b.settings.erase key })
    if found then log (·.touchServiceKey name key)
    return found
  | .bind service => do
    require (Name.check "service" service)
    requireLive id
    let _ ← binding service
    return false
  | .setServiceEnabled service on => do
    requireLive id
    let b ← binding service
    if b.enabled ≠ on then
      modify (·.putBinding service { b with enabled := on })
      log (·.touchService service)
    return false

variable {a : Account} {limit : Nat} {id : AccountId}

/-! ### Maps that stay as they are -/

theorem putBinding_self {service : String} {b : Binding} (h : a.bindings[service]? = some b) :
    a.putBinding service b = a := by
  have hmap : a.bindings.insert service b = a.bindings := by
    refine Std.ExtTreeMap.ext_getElem? fun name => ?_
    rw [Std.ExtTreeMap.getElem?_insert]
    split
    · rename_i hname
      rw [← h, Std.LawfulEqCmp.compare_eq_iff_eq.1 hname]
    · rfl
  rw [putBinding, hmap]

theorem putBinding_putBinding (a : Account) (service : String) (b b' : Binding) :
    (a.putBinding service b).putBinding service b' = a.putBinding service b' := by
  have hmap : (a.bindings.insert service b).insert service b' = a.bindings.insert service b' := by
    refine Std.ExtTreeMap.ext_getElem? fun name => ?_
    simp only [Std.ExtTreeMap.getElem?_insert]
    split <;> rfl
  exact congrArg (fun m => { a with bindings := m }) hmap

theorem erase_of_not_contains {t : Table} {key : String} (h : t.contains key = false) :
    t.erase key = t := by
  refine Table.ext fun k => ?_
  rw [Table.get?_erase]
  split
  · subst k
    rw [Table.contains_eq_isSome, Option.isSome_eq_false_iff, Option.isNone_iff_eq_none] at h
    exact h.symm
  · rfl

/-! ### Step by step -/

theorem on_log_bind {β : Type} (g : ChangeLog → ChangeLog) (f : Unit → InPlace Account β) :
    (log g >>= f).on a = (f ()).on { a with changes := g a.changes } := rfl

/-- To ask for a binding binds the service. -/
theorem on_binding_bind {β : Type} (service : String) (f : Binding → InPlace Account β) :
    (binding service >>= f).on a = (f (a.bindingOrNew service)).on (a.bind service) := by
  have hrun : (binding service >>= f).on a = ((match a.bindings[service]? with
      | some b => pure b
      | none => do
        let b : Binding := { name := service, providerType := a.provider }
        set (a.putBinding service b)
        return b) >>= f : InPlace Account β).on a := rfl
  rw [hrun, Account.bind, bindingOrNew]
  cases h : a.bindings[service]? with
  | none => rfl
  | some b =>
    have hself : a.putBinding service b = a := putBinding_self h
    rw [Option.getD_some, hself]
    rfl

theorem on_requireLive_eq_after {f : Unit → InPlace Account Bool}
    {g : Unit → Except Problem (Account × Bool)} (h : (f ()).on a = after a (g ())) :
    (requireLive id >>= f).on a = after a (a.checkLive id >>= g) := by
  have hlive : (requireLive id >>= f).on a = (require (a.checkLive id) >>= f).on a := rfl
  rw [hlive]
  exact on_require_eq_after fun _ _ => h

/-- An edit that is made in place is made at once or not at all. -/
theorem on_perform (e : Edit) : (perform limit id e).on a = after a (a.edit limit id e) := by
  cases e with
  | rename name =>
    rw [perform, edit]
    refine on_requireLive_eq_after ?_
    by_cases h : a.displayName = some name
    · simp only [on_get_bind, on_pure, h, ne_eq, not_true_eq_false, if_false, rename, if_true]
      rfl
    · simp only [on_get_bind, on_modify_bind, on_log_bind, on_pure, h, ne_eq, not_false_eq_true,
        if_true, rename, if_false]
      rfl
  | setEnabled on =>
    rw [perform, edit]
    refine on_requireLive_eq_after ?_
    by_cases h : a.enabled = on
    · simp only [on_get_bind, on_pure, h, ne_eq, not_true_eq_false, if_false, setEnabled, if_true]
      rfl
    · simp only [on_get_bind, on_modify_bind, on_log_bind, on_pure, h, ne_eq, not_false_eq_true,
        if_true, setEnabled, if_false]
      rfl
  | write scope key value source =>
    cases scope with
    | account =>
      rw [perform, edit]
      exact on_require_eq_after fun _ _ => on_require_eq_after fun _ _ => on_requireLive_eq_after rfl
    | service name =>
      rw [perform, edit]
      refine on_require_eq_after fun _ _ => on_require_eq_after fun _ _ => on_requireLive_eq_after ?_
      simp only [on_binding_bind, on_modify_bind, on_log_bind, on_pure, Account.bind,
        putBinding_putBinding]
      rfl
  | remove scope key =>
    cases scope with
    | account =>
      rw [perform, edit]
      refine on_require_eq_after fun _ _ => on_requireLive_eq_after ?_
      cases h : a.settings.contains key with
      | true =>
        simp only [on_get_bind, on_modify_bind, on_log_bind, on_pure, if_true, remove, h]
        rfl
      | false =>
        simp only [on_get_bind, on_modify_bind, remove, h, erase_of_not_contains h]
        rfl
    | service name =>
      rw [perform, edit]
      refine on_require_eq_after fun _ _ => on_requireLive_eq_after ?_
      cases h : (a.bindingOrNew name).settings.contains key with
      | true =>
        simp only [on_binding_bind, on_modify_bind, on_log_bind, on_pure, if_true, remove, h,
          Account.bind, putBinding_putBinding]
        rfl
      | false =>
        simp only [on_binding_bind, on_modify_bind, remove, h, erase_of_not_contains h, Account.bind,
          putBinding_putBinding]
        rfl
  | bind service =>
    rw [perform, edit]
    refine on_require_eq_after fun _ _ => on_requireLive_eq_after ?_
    simp only [on_binding_bind, on_pure]
    rfl
  | setServiceEnabled service on =>
    rw [perform, edit]
    refine on_requireLive_eq_after ?_
    by_cases h : (a.bindingOrNew service).enabled = on
    · simp only [on_binding_bind, on_pure, h, ne_eq, not_true_eq_false, if_false,
        setServiceEnabled, if_true]
      rfl
    · simp only [on_binding_bind, on_modify_bind, on_log_bind, on_pure, h, ne_eq,
        not_false_eq_true, if_true, setServiceEnabled, if_false, Account.bind,
        putBinding_putBinding]
      rfl

end Account

end AccountVault
