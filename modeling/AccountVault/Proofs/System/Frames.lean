import AccountVault.Proofs.Catalog.Declared
import AccountVault.Proofs.Stream

/-!
# What tasks leave alone

A task moves accounts on in their life and keeps their change logs.  The options, the catalog, the
overrides and all that callers have put on the accounts are as before (`Vault.SameData`).  The options
and the catalog are not changed by any action (`System.options_run`, `System.catalog_run`).
-/

namespace AccountVault

/-- A vault that differs in nothing that lookups consult. -/
structure Vault.SameData (v v' : Vault) : Prop where
  options : v'.options = v.options
  catalog : v'.catalog = v.catalog
  overrides : v'.overrides = v.overrides
  accounts : ∀ id, (v'.account? id).map Account.settled = (v.account? id).map Account.settled

/-- An override is set under accepted names only. -/
theorem Vault.setOverride_eq_ok_iff {v v' : Vault} {service key : String} {value : Value} :
    v.setOverride service key value = .ok v' ↔
      Name.check "service" service = .ok () ∧ Key.check key v.options.keyLimit = .ok () ∧
        v' = { v with overrides := v.overrides.set service key value } := by
  rw [setOverride]
  cases Name.check "service" service with
  | error e => simp [bind, Except.bind]
  | ok u =>
    cases Key.check key v.options.keyLimit with
    | error e => simp [bind, Except.bind]
    | ok u => simp [bind, Except.bind, pure, Except.pure, eq_comm]

/-- What is recorded is seen in the accounts, on the roster and on the board. -/
theorem Vault.recordSaved_eq (v : Vault) (id : AccountId) (d : Draft) :
    ∃ accounts roster board, v.recordSaved id d = { v with accounts, roster, board } := by
  rw [recordSaved, publish]
  cases v.account? id <;> split <;> exact ⟨_, _, _, rfl⟩

theorem Vault.recordRemoved_eq (v : Vault) (id : AccountId) :
    ∃ accounts roster board, v.recordRemoved id = { v with accounts, roster, board } := by
  rw [recordRemoved, markDeleted]
  split <;> exact ⟨_, _, _, rfl⟩

namespace Vault.SameData

variable {v v' v'' : Vault}

theorem refl (v : Vault) : v.SameData v := ⟨rfl, rfl, rfl, fun _ => rfl⟩

theorem trans (h : v.SameData v') (h' : v'.SameData v'') : v.SameData v'' :=
  ⟨h'.options.trans h.options, h'.catalog.trans h.catalog, h'.overrides.trans h.overrides,
    fun id => (h'.accounts id).trans (h.accounts id)⟩

theorem of_accounts (ho : v'.options = v.options) (hc : v'.catalog = v.catalog)
    (hf : v'.overrides = v.overrides) (ha : v'.accounts = v.accounts) : v.SameData v' :=
  ⟨ho, hc, hf, fun id => by rw [account?, account?, ha]⟩

theorem putAccount {id : AccountId} {a a' : Account} (ha : v.account? id = some a)
    (h : a'.settled = a.settled) : v.SameData (v.putAccount id a') := by
  refine ⟨rfl, rfl, rfl, fun other => ?_⟩
  rw [account?_putAccount]
  split
  · subst other
    rw [ha, Option.map_some, Option.map_some, h]
  · rfl

theorem recordSaved (v : Vault) (id : AccountId) (d : Draft) : v.SameData (v.recordSaved id d) := by
  obtain ⟨accounts, roster, board, hv⟩ := v.recordSaved_eq id d
  refine ⟨by rw [hv], by rw [hv], by rw [hv], fun other => ?_⟩
  rw [account?_recordSaved]
  split
  · subst other
    rw [Option.map_map]
    rfl
  · rfl

theorem recordRemoved (v : Vault) (id : AccountId) : v.SameData (v.recordRemoved id) := by
  obtain ⟨accounts, roster, board, hv⟩ := v.recordRemoved_eq id
  refine ⟨by rw [hv], by rw [hv], by rw [hv], fun other => ?_⟩
  rw [account?_recordRemoved]
  split
  · subst other
    rw [Option.map_map]
    rfl
  · rfl

end Vault.SameData

namespace Task

variable {v : Vault} {self : TaskId} {task : Task} {p : Progress}

theorem Stepped.sameData (h : Stepped v self task p) : v.SameData p.vault := by
  cases h with
  | pass => exact .refl v
  | shut | enqueue | raise | skip => exact .of_accounts rfl rfl rfl rfl
  | enter goal _ h =>
    cases h with
    | refused | clean | firstDraft | draft | removal => exact .of_accounts rfl rfl rfl rfl
    | @discard a ha =>
      have hput : v.SameData (v.putAccount _ { a with state := .deleted }) := .putAccount ha rfl
      exact hput.trans (.of_accounts rfl rfl rfl rfl)

theorem Replied.sameData {r : Except Fault Reply} (h : Replied v self task r p) :
    v.SameData p.vault := by
  cases h with
  | markFailed | failed | marked => exact .of_accounts rfl rfl rfl rfl
  | saved goal id work d =>
    exact (Vault.SameData.recordSaved v id d).trans (.of_accounts rfl rfl rfl rfl)
  | removed goal id =>
    exact (Vault.SameData.recordRemoved v id).trans (.of_accounts rfl rfl rfl rfl)

end Task

namespace System

variable {s s' : System} {a : Action}

/-- An action of a task, or of the one who hands out notices, changes nothing that lookups consult. -/
theorem sameData_of_task? (hs : s.step? a = some s') (ha : a.task?.isSome) :
    s.vault.SameData s'.vault := by
  cases stepped hs with
  | quiet hq => exact absurd ha (by simp [Action.task?_of_isQuiet hq])
  | create | edit => exact absurd ha (by simp [Action.task?])
  | spawn => exact .refl _
  | run _ hp => exact (Task.stepped hp).sameData
  | fail e _ hr => exact (Task.replied hr s.vault _ _).sameData
  | serve _ hr => exact (Task.replied hr s.vault _ _).sameData

/-- An override that is accepted is all that has changed then. -/
theorem eq_of_setOverride {service key : String} {value : Value}
    (hs : s.step? (.setOverride service key value) = some s') :
    Key.check key s.vault.options.keyLimit = .ok () ∧ s' = { s with vault :=
      { s.vault with overrides := s.vault.overrides.set service key value } } := by
  rw [step?] at hs
  cases hv : s.vault.setOverride service key value with
  | error e =>
    rw [hv] at hs
    exact absurd hs (by simp [accept])
  | ok v' =>
    rw [hv] at hs
    cases hs
    obtain ⟨-, hkey, rfl⟩ := Vault.setOverride_eq_ok_iff.1 hv
    exact ⟨hkey, rfl⟩

/-- No action changes the options or the catalog, and what is forced changes only when an override is set
or lifted. -/
theorem frame_step (hs : s.step? a = some s') :
    s'.vault.options = s.vault.options ∧ s'.vault.catalog = s.vault.catalog ∧
      (s'.vault.overrides = s.vault.overrides ∨
        (∃ service key value,
          s'.vault.overrides = s.vault.overrides.set service key value) ∨
        ∃ service key, s'.vault.overrides = (s.vault.overrides.clear service key).1) := by
  by_cases ha : a.task?.isSome
  · have h := sameData_of_task? hs ha
    exact ⟨h.options, h.catalog, .inl h.overrides⟩
  · cases a with
    | run | answer => exact absurd rfl ha
    | create provider =>
      cases stepped hs with
      | quiet hq => exact absurd hq (by simp [Action.isQuiet])
      | create => exact ⟨rfl, rfl, .inl rfl⟩
    | edit id e =>
      cases stepped hs with
      | quiet hq => exact absurd hq (by simp [Action.isQuiet])
      | edit => exact ⟨rfl, rfl, .inl rfl⟩
    | setOverride service key value =>
      obtain ⟨-, rfl⟩ := eq_of_setOverride hs
      exact ⟨rfl, rfl, .inr (.inl ⟨service, key, value, rfl⟩)⟩
    | clearOverride service key =>
      cases hs
      exact ⟨rfl, rfl, .inr (.inr ⟨service, key, rfl⟩)⟩
    | spawn t op =>
      cases stepped hs with
      | quiet hq => exact absurd hq (by simp [Action.isQuiet])
      | spawn => exact ⟨rfl, rfl, .inl rfl⟩
    | subscribe | unsubscribe | dispatch | cancel =>
      cases hs
      exact ⟨rfl, rfl, .inl rfl⟩

theorem shared_step (hs : s.step? a = some s') :
    s'.vault.options = s.vault.options ∧ s'.vault.catalog = s.vault.catalog := by
  obtain ⟨hoptions, hcatalog, -⟩ := frame_step hs
  exact ⟨hoptions, hcatalog⟩

theorem options_run (s : System) (as : List Action) : (s.run as).vault.options = s.vault.options :=
  run_induction (P := fun s' => s'.vault.options = s.vault.options)
    (fun _ _ _ h hs => (shared_step hs).1.trans h) rfl as

theorem catalog_run (s : System) (as : List Action) : (s.run as).vault.catalog = s.vault.catalog :=
  run_induction (P := fun s' => s'.vault.catalog = s.vault.catalog)
    (fun _ _ _ h hs => (shared_step hs).2.trans h) rfl as

end System

theorem Contents.checkKeys_of_opened {c : Contents} {options : Options} {catalog : Catalog} {v : Vault}
    (hv : c.opened options catalog = .ok v) : catalog.checkKeys options.keyLimit = .ok () := by
  rw [opened_eq, except_bind_eq_ok_iff] at hv
  obtain ⟨u, hk, -⟩ := hv
  exact hk

/-- A vault is opened with the options and the catalog that were asked for, and with no overrides. -/
theorem Contents.shared_of_opened {c : Contents} {options : Options} {catalog : Catalog} {v : Vault}
    (hv : c.opened options catalog = .ok v) :
    v.options = options ∧ v.catalog = catalog ∧ v.overrides = ∅ := by
  simp only [opened_eq, except_bind_eq_ok_iff] at hv
  obtain ⟨-, -, accounts, -, free, -, hv⟩ := hv
  cases hv
  exact ⟨rfl, rfl, rfl⟩

end AccountVault
