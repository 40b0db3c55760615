import AccountVault.Proofs.System.Frames

/-!
# No cell is left unset

Whatever a storage answers, an opening that goes well ends with a vault whose cells are all set
(`Vault.filled_of_opening`): what it loads is checked record by record (`Ensures`), its defaults are
declared, and nothing is forced yet.  Every action of a run leaves it so (`System.filled_run`).
-/

namespace AccountVault

/-- Every cell that lies in a vault is set. -/
structure Vault.Filled (v : Vault) : Prop where
  catalog : v.catalog.AllSet
  forced : ∀ service, (v.overrides.table service).AllSet
  accounts : ∀ id a, v.account? id = some a → a.Tidy

/-! ### Openings -/

section

variable {σ α β : Type} {P : α → Prop} {Q : β → Prop} {x : ExceptT Problem (StateM σ) α}
  {ask : Request → StateM σ (Except Fault Reply)}

/-- Wherever a program starts, what it comes to has a property, if it comes to anything. -/
def Ensures (x : ExceptT Problem (StateM σ) α) (P : α → Prop) : Prop :=
  ∀ s a, (x.run s).1 = .ok a → P a

theorem Ensures.pure {a : α} (h : P a) : Ensures (pure a : ExceptT Problem (StateM σ) α) P := by
  intro s b hb
  cases hb
  exact h

theorem Ensures.lift {r : Except Problem α} (h : ∀ a, r = .ok a → P a) :
    Ensures (liftM r : ExceptT Problem (StateM σ) α) P := by
  intro s a ha
  cases r with
  | error e => cases ha
  | ok b => exact h a ha

theorem Ensures.bind {f : α → ExceptT Problem (StateM σ) β} (hx : Ensures x P)
    (hf : ∀ a, P a → Ensures (f a) Q) : Ensures (x >>= f) Q := by
  intro s b hb
  have hbind : (x >>= f).run s = ExceptT.bindCont f (x.run s).1 (x.run s).2 := rfl
  rw [hbind] at hb
  cases hr : (x.run s).1 with
  | error e =>
    rw [hr] at hb
    cases hb
  | ok a =>
    rw [hr] at hb
    exact hf a (hx s a hr) _ b hb

/-- What comes first does not matter, if it is enough how the program goes on. -/
theorem Ensures.andThen {f : α → ExceptT Problem (StateM σ) β} (hf : ∀ a, Ensures (f a) Q) :
    Ensures (x >>= f) Q :=
  Ensures.bind (P := fun _ => True) (fun _ _ _ => trivial) fun a _ => hf a

namespace Vault

/-- Accounts are loaded with set cells only, whatever records the storage comes up with. -/
theorem tidy_of_loadAccounts (ids : List AccountId) {accounts : Std.ExtTreeMap AccountId Account}
    (h : ∀ (id : AccountId) (a : Account), accounts[id]? = some a → a.Tidy) :
    Ensures (loadAccounts ask ids accounts) fun loaded =>
      ∀ (id : AccountId) (a : Account), loaded[id]? = some a → a.Tidy := by
  induction ids generalizing accounts with
  | nil => exact .pure h
  | cons id ids ih =>
    refine .andThen fun reply => ?_
    cases reply.record? with
    | none => exact ih h
    | some bytes =>
      refine Ensures.bind (.lift (P := Account.Tidy) fun a ha => ?_) fun a ha => ih fun other b hb => ?_
      · exact (Contents.decodeAccount_eq_ok_iff.1 ha).2.1
      · rw [Std.ExtTreeMap.getElem?_insert] at hb
        split at hb
        · cases hb
          exact ha
        · exact h other b hb

/-- A vault that opens holds set cells only, whatever the storage answers. -/
theorem filled_of_opening {options : Options} {catalog : Catalog} (hc : catalog.Declared) :
    Ensures (opening ask options catalog) Filled := by
  refine .andThen fun _ => .andThen fun reply => ?_
  have hnone : ∀ (id : AccountId) (a : Account),
      (∅ : Std.ExtTreeMap AccountId Account)[id]? = some a → a.Tidy := fun id a ha =>
    absurd ha (by simp)
  refine Ensures.bind (tidy_of_loadAccounts _ hnone) fun accounts haccounts => ?_
  refine .andThen fun free => .andThen fun reply => .pure ?_
  exact ⟨hc.allSet, fun _ => Table.allSet_empty, haccounts⟩

end Vault

end

/-! ### Runs -/

/-- Whether an account is tidy does not depend on where it is in its life. -/
theorem Account.tidy_settled_iff {a : Account} : a.settled.Tidy ↔ a.Tidy :=
  ⟨fun h => ⟨h.settings, h.bindings⟩, fun h => ⟨h.settings, h.bindings⟩⟩

theorem Vault.SameData.tidy {v v' : Vault} (h : v.SameData v')
    (hv : ∀ id a, v.account? id = some a → a.Tidy) : ∀ id a, v'.account? id = some a → a.Tidy := by
  intro id b hb
  have hid := h.accounts id
  rw [hb, Option.map_some] at hid
  obtain ⟨a, ha, hsettled⟩ := Option.map_eq_some_iff.1 hid.symm
  rw [← Account.tidy_settled_iff, ← hsettled, Account.tidy_settled_iff]
  exact hv id a ha

namespace System

variable {s s' : System} {a : Action}

/-- What forcing a value and lifting one keep of a table, every action keeps of what is forced. -/
theorem forced_step {P : Table → Prop}
    (hset : ∀ t key value, P t → P (t.set key (.defined value .application)))
    (herase : ∀ t key, P t → P (t.erase key)) (h : ∀ service, P (s.vault.overrides.table service))
    (hs : s.step? a = some s') : ∀ service, P (s'.vault.overrides.table service) := by
  intro other
  rcases (frame_step hs).2.2 with hsame | ⟨service, key, value, hforce⟩ | ⟨service, key, hclear⟩
  · rw [hsame]
    exact h other
  · rw [hforce, Overrides.table_set]
    split
    · exact hset _ key value (h service)
    · exact h other
  · rw [hclear, Overrides.table_clear]
    split
    · exact herase _ key (h service)
    · exact h other

theorem tidy_step (h : ∀ id b, s.vault.account? id = some b → b.Tidy) (hs : s.step? a = some s') :
    ∀ id b, s'.vault.account? id = some b → b.Tidy := by
  by_cases ha : a.task?.isSome
  · exact (sameData_of_task? hs ha).tidy h
  · intro id b hb
    cases stepped hs with
    | quiet hq hsame =>
      rw [Vault.account?, hsame.accounts] at hb
      exact h id b hb
    | create provider =>
      replace hb : (s.vault.putAccount s.vault.nextId { provider }).account? id = some b := hb
      rw [Vault.account?_putAccount] at hb
      split at hb
      · cases hb
        exact Account.tidy_new provider
      · exact h id b hb
    | edit hacc hlive he =>
      rw [Vault.account?_putAccount] at hb
      split at hb
      · cases hb
        exact he.tidy (h _ _ hacc)
      · exact h id b hb
    | spawn => exact h id b hb
    | run | fail | serve => exact absurd rfl ha

/-- No action puts an unset cell anywhere. -/
theorem filled_step (h : s.vault.Filled) (hs : s.step? a = some s') : s'.vault.Filled := by
  refine ⟨?_, ?_, tidy_step h.accounts hs⟩
  · rw [(shared_step hs).2]
    exact h.catalog
  · exact forced_step (fun _ key value ht => ht.set key _) (fun _ key ht => ht.erase key) h.forced hs

theorem filled_run (h : s.vault.Filled) (as : List Action) : (s.run as).vault.Filled :=
  run_induction (fun _ _ _ => filled_step) h as

end System

namespace Contents

variable {c : Contents} {options : Options} {catalog : Catalog} {v : Vault}

/-- Nothing is forced in a vault that has just been opened. -/
theorem forced_run {P : Table → Prop} (hv : c.opened options catalog = .ok v) (hempty : P ∅)
    (hset : ∀ t key value, P t → P (t.set key (.defined value .application)))
    (herase : ∀ t key, P t → P (t.erase key)) (as : List Action) :
    ∀ service, P (((System.start v c).run as).vault.overrides.table service) := by
  refine System.run_induction (P := fun s => ∀ service, P (s.vault.overrides.table service))
    (fun _ _ _ h hs => System.forced_step hset herase h hs) (fun service => ?_) as
  show P (v.overrides.table service)
  rw [(shared_of_opened hv).2.2]
  exact hempty

end Contents

end AccountVault
