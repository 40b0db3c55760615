import AccountVault.Proofs.Account.InPlace
import AccountVault.Proofs.Stale
import AccountVault.Proofs.System.Frames

/-!
# Commands

A command is what a caller asks of a vault and does not have to wait for.  It is carried out on the vault
in place (`Vault.perform`), and comes out as if it had been carried out at once or not at all
(`Vault.on_perform`): a command that is refused has changed nothing (`Vault.eq_of_refused`), and one that
goes well has done what its actions do in a system (`System.run_actions`).
-/

namespace AccountVault

/-- What a caller can ask for without having to wait. -/
inductive Command
  | create (provider : String)
  | edit (id : AccountId) (e : Edit)
  /-- Binds a service and switches it. -/
  | switch (id : AccountId) (service : String) (on : Bool)
  | setOverride (service key : String) (value : Value)
  | clearOverride (service key : String)
  | ask (id : AccountId) (q : Query)

namespace Command

/-- The type of the answer: the id of a new account, whether a key that was to be removed was there, or
the answer to a question. -/
@[reducible] def Answer : Command → Type
  | create _ => AccountId
  | edit .. => Bool
  | switch .. => Bool
  | setOverride .. => Unit
  | clearOverride .. => Bool
  | ask _ q => q.Answer

/-- The actions that a command comes to when it goes well. -/
def actions : Command → List Action
  | create provider => [.create provider]
  | edit id e => [.edit id e]
  | switch id service on => [.edit id (.bind service), .edit id (.setServiceEnabled service on)]
  | setOverride service key value => [.setOverride service key value]
  | clearOverride service key => [.clearOverride service key]
  | ask _ _ => []

end Command

namespace Vault

open InPlace

/-- Edits an account of a vault in place. -/
def editInPlace (id : AccountId) (e : Edit) : InPlace Vault Bool := do
  let v ← get
  match v.account? id with
  | none => throw (.stale id)
  | some a =>
    let (r, a) := (Account.perform v.options.keyLimit id e).on a
    set (v.putAccount id a)
    require r

/-- Carries out a command, check by check and change by change. -/
def perform : (c : Command) → InPlace Vault c.Answer
  | .create provider => do
    require (Name.check "provider" provider)
    let id := (← get).nextId
    if id.toNat + 1 < UInt64.size then
      modify fun v => { v with nextId := id + 1 }
      modify (·.putAccount id { provider })
      return id
    else throw (.invalid .idsExhausted)
  | .edit id e => editInPlace id e
  | .switch id service on => do
    let _ ← editInPlace id (.bind service)
    editInPlace id (.setServiceEnabled service on)
  | .setOverride service key value => do
    require (Name.check "service" service)
    require (Key.check key (← get).options.keyLimit)
    modify fun v => { v with overrides := v.overrides.set service key value }
  | .clearOverride service key => do
    let found := ((← get).overrides.table service).contains key
    modify fun v => { v with overrides := (v.overrides.clear service key).1 }
    return found
  | .ask id q => do
    let v ← get
    require (q.check v.options.keyLimit)
    let a ← require (v.live id)
    require (q.answer (v.layers a))

/-- What a command comes to if it is carried out at once. -/
def act (v : Vault) : (c : Command) → Except Problem (Vault × c.Answer)
  | .create provider => v.create provider
  | .edit id e => v.edit id e
  | .switch id service on => v.switchService id service on
  | .setOverride service key value => (v.setOverride service key value).map fun v => (v, ())
  | .clearOverride service key => .ok (v.clearOverride service key)
  | .ask id q => (v.ask id q).map fun x => (v, x)

variable {v v' : Vault} {id : AccountId}

theorem putAccount_self {a : Account} (h : v.account? id = some a) : v.putAccount id a = v := by
  have hmap : v.accounts.insert id a = v.accounts := by
    refine Std.ExtTreeMap.ext_getElem? fun other => ?_
    rw [Std.ExtTreeMap.getElem?_insert]
    split
    · rename_i hid
      rw [← h, account?, Std.LawfulEqCmp.compare_eq_iff_eq.1 hid]
    · rfl
  rw [putAccount, hmap]

theorem on_editInPlace (id : AccountId) (e : Edit) :
    (editInPlace id e).on v = after v (v.edit id e) := by
  have hget : (editInPlace id e).on v = (match v.account? id with
      | none => throw (.stale id)
      | some a => do
        set (v.putAccount id ((Account.perform v.options.keyLimit id e).on a).2)
        require ((Account.perform v.options.keyLimit id e).on a).1 : InPlace Vault Bool).on v := rfl
  rw [hget, edit]
  cases ha : v.account? id with
  | none => rfl
  | some a =>
    simp only [Account.on_perform]
    cases he : a.edit v.options.keyLimit id e with
    | ok r => rfl
    | error p =>
      -- the account is put back as it was
      have hput : v.putAccount id a = v := putAccount_self ha
      show ((.error p : Except Problem Bool), v.putAccount id a) = _
      rw [hput]
      rfl

/-- Once an account has been edited, every edit with accepted parts goes well. -/
theorem exists_edit_of_edit {e e' : Edit} {found : Bool} (h : v.edit id e = .ok (v', found))
    (he' : e'.check v'.options.keyLimit = .ok ()) : ∃ r, v'.edit id e' = .ok r := by
  rw [edit] at h
  cases ha : v.account? id with
  | none =>
    rw [ha] at h
    exact absurd h (by simp)
  | some a =>
    rw [ha] at h
    obtain ⟨⟨a', found'⟩, he, h⟩ := except_bind_eq_ok_iff.1 h
    cases h
    obtain ⟨hlive, hedited⟩ := Account.edited_of_edit he
    have hlive' : a'.state ≠ .deleted := by
      rw [hedited.state_eq]
      exact hlive
    have hedit : ∃ r, a'.edit v.options.keyLimit id e' = .ok r :=
      Account.exists_edit_iff.2 ⟨he', hlive'⟩
    obtain ⟨r, hr⟩ := hedit
    refine ⟨((v.putAccount id a').putAccount id r.1, r.2), ?_⟩
    have ha' : (v.putAccount id a').account? id = some a' := by
      rw [account?_putAccount, if_pos rfl]
    have hr' : a'.edit (v.putAccount id a').options.keyLimit id e' = .ok r := hr
    simp only [edit, ha', hr']
    rfl

/-- A command that is carried out in place is carried out at once or not at all. -/
theorem on_perform (c : Command) : (perform c).on v = after v (v.act c) := by
  cases c with
  | create provider =>
    rw [perform, act, create]
    refine on_require_eq_after fun _ _ => ?_
    rw [on_get_bind]
    by_cases hn : v.nextId.toNat + 1 < UInt64.size
    · simp only [if_pos hn]
      rfl
    · simp only [if_neg hn]
      rfl
  | edit id e => exact on_editInPlace id e
  | switch id service on =>
    rw [perform, act, switchService]
    have hbind := on_editInPlace (v := v) id (.bind service)
    cases h : v.edit id (.bind service) with
    | error p =>
      rw [h] at hbind
      exact on_bind_of_error hbind
    | ok r =>
      -- the account that has just been bound to the service is there, and not deleted
      obtain ⟨v', found⟩ := r
      have hswitch : ∃ r, v'.edit id (.setServiceEnabled service on) = .ok r :=
        exists_edit_of_edit h rfl
      obtain ⟨r, hr⟩ := hswitch
      rw [h] at hbind
      rw [on_bind_of_ok hbind, on_editInPlace, hr]
      exact congrArg (after v) hr.symm
  | setOverride service key value =>
    rw [perform, act, setOverride]
    cases Name.check "service" service with
    | error p => rfl
    | ok _ =>
      have hget : ∀ f : Vault → InPlace Vault Unit,
          (require (.ok ()) >>= fun _ => get >>= f).on v = (f v).on v := fun _ => rfl
      rw [hget]
      cases Key.check key v.options.keyLimit with
      | error p => rfl
      | ok _ => rfl
  | clearOverride service key =>
    have hfound : (v.overrides.clear service key).2 = (v.overrides.table service).contains key := by
      rw [Overrides.clear]
      split
      · exact (‹_ = true›).symm
      · exact (Bool.eq_false_iff.2 ‹_›).symm
    rw [perform, act, on_get_bind, ← hfound]
    rfl
  | ask id q =>
    rw [perform, act, on_get_bind, ask]
    cases q.check v.options.keyLimit with
    | error p => rfl
    | ok _ =>
      cases v.live id with
      | error p => rfl
      | ok a => exact on_require (q.answer (v.layers a))

/-- A command that is refused has changed nothing. -/
theorem eq_of_refused {c : Command} {e : Problem} (h : (perform c).on v = (.error e, v')) :
    v' = v := by
  rw [on_perform] at h
  cases hact : v.act c with
  | error e =>
    rw [hact] at h
    exact (Prod.mk.inj h).2.symm
  | ok r =>
    rw [hact] at h
    exact absurd (Prod.mk.inj h).1 (by simp)

theorem act_of_answered {c : Command} {x : c.Answer} (h : (perform c).on v = (.ok x, v')) :
    v.act c = .ok (v', x) := by
  rw [on_perform] at h
  cases hact : v.act c with
  | error e =>
    rw [hact] at h
    exact absurd (Prod.mk.inj h).1 (by simp)
  | ok r =>
    rw [hact] at h
    cases h
    rfl

end Vault

namespace System

variable {s : System} {v' : Vault}

/-- A command that goes well does to a vault what its actions do in a system. -/
theorem run_actions {c : Command} {x : c.Answer} (h : (Vault.perform c).on s.vault = (.ok x, v')) :
    s.run c.actions = { s with vault := v' } := by
  have hact := Vault.act_of_answered h
  cases c with
  | create provider => exact step_of_accept rfl (except_map_eq_ok_iff.2 ⟨_, hact, rfl⟩)
  | edit id e => exact step_edit hact
  | switch id service on => exact run_switchService hact
  | setOverride service key value =>
    obtain ⟨w, hset, hw⟩ := except_map_eq_ok_iff.1 hact
    cases hw
    exact step_of_accept rfl hset
  | clearOverride service key =>
    cases hact
    rfl
  | ask id q =>
    obtain ⟨y, -, hy⟩ := except_map_eq_ok_iff.1 hact
    cases hy
    rfl

end System

end AccountVault
