import AccountVault.Proofs.Stale
import AccountVault.Proofs.System.Frames
import AccountVault.Proofs.System.Goals

/-!
# Closing a vault

A vault that is to be flushed when it is closed goes over every written account with changes.  As long as
nothing else happens, what it has still to go over is all that is unsettled, unless a save has failed
(`Task.Closes`); so once it has closed well nothing is unsettled, and nothing was done meanwhile but to
write accounts that had been written before (`System.closes_run`).
-/

namespace AccountVault

namespace Vault

/-- An account has been written, and has changes that are still to be saved. -/
def Unsettled (v : Vault) (id : AccountId) : Prop :=
  ∃ a, v.account? id = some a ∧ a.state = .saved ∧ a.isDirty = true

/-- A vault in which accounts that had been written have been written again, and nothing else has
happened that can be seen in an account. -/
structure Rewritten (v v' : Vault) : Prop where
  data : v.SameData v'
  states : ∀ id, (v'.account? id).map Account.state = (v.account? id).map Account.state

namespace Rewritten

variable {v v' v'' : Vault}

theorem trans (h : v.Rewritten v') (h' : v'.Rewritten v'') : v.Rewritten v'' :=
  ⟨h.data.trans h'.data, fun id => (h'.states id).trans (h.states id)⟩

theorem of_accounts (hdata : v.SameData v') (ha : v'.accounts = v.accounts) : v.Rewritten v' :=
  ⟨hdata, fun id => by rw [account?, account?, ha]⟩

theorem refl (v : Vault) : v.Rewritten v := of_accounts (.refl v) rfl

theorem recordSaved {id : AccountId} {a : Account} (ha : v.account? id = some a)
    (hs : a.state = .saved) (d : Draft) : v.Rewritten (v.recordSaved id d) := by
  refine ⟨.recordSaved v id d, fun other => ?_⟩
  rw [account?_recordSaved]
  split
  · subst other
    rw [ha, Option.map_some, Option.map_some, Option.map_some, hs]
    rfl
  · rfl

end Rewritten

theorem mem_dirtyIds {s : System} (hs : s.Sound) {id : AccountId} (h : s.vault.Unsettled id) :
    id ∈ s.vault.dirtyIds := by
  obtain ⟨a, ha, hsaved, hdirty⟩ := h
  exact mem_rosterWhere_iff.2 ⟨hs.finds_iff.2 ⟨a, ha, hsaved⟩, a, ha, hdirty⟩

/-- What was written at the revision that the account is at is settled. -/
theorem Unsettled.of_recordSaved {v : Vault} {id i : AccountId} {d : Draft}
    (hd : ∀ a, v.account? id = some a → d.revision = a.changes.revision)
    (h : (v.recordSaved id d).Unsettled i) : i ≠ id ∧ v.Unsettled i := by
  obtain ⟨a, ha, hsaved, hdirty⟩ := h
  rw [account?_recordSaved] at ha
  split at ha
  · subst i
    obtain ⟨b, hb, rfl⟩ := Option.map_eq_some_iff.1 ha
    have hclean : (b.markSaved d.revision).isDirty = false := by
      simp [Account.isDirty, Account.markSaved, ChangeLog.isDirty, hd b hb]
    exact absurd (hclean.symm.trans hdirty) (by simp)
  · exact ⟨Ne.symm ‹_›, a, ha, hsaved, hdirty⟩

end Vault

namespace Task

/-- A task that closes a vault, and as long as no save has failed has still to go over all that is
unsettled. -/
inductive Closes (v : Vault) : Task → Prop
  | starting (h : v.options.flushOnClose = true) : Closes v (starting .close)
  | sweeping (sw : Sweep) (h : sw.failure = none → ∀ i, v.Unsettled i → i ∈ sw.rest) :
    Closes v (sweeping sw)
  | entering (sw : Sweep) (id : AccountId)
    (h : sw.failure = none → ∀ i, v.Unsettled i → i = id ∨ i ∈ sw.rest) :
    Closes v (working (.sweep sw) id .commit .entering)
  | saving (sw : Sweep) (id : AccountId) (d : Draft)
    (h : sw.failure = none → ∀ i, v.Unsettled i → i = id ∨ i ∈ sw.rest)
    (hd : ∀ a, v.account? id = some a → d.revision = a.changes.revision) :
    Closes v (working (.sweep sw) id .commit (.saving d))
  | draining (o : Outcome) (h : ∀ n, o = .ok n → ∀ i, ¬ v.Unsettled i) : Closes v (draining o)
  | finished (o : Outcome) (h : ∀ n, o = .ok n → ∀ i, ¬ v.Unsettled i) : Closes v (finished o)

variable {s : System} {t : TaskId} {v : Vault} {task : Task} {p : Progress}

theorem Closes.congr {v' : Vault} (h : task.Closes v) (ho : v'.options = v.options)
    (ha : v'.accounts = v.accounts) : task.Closes v' := by
  have hunsettled : ∀ i, v'.Unsettled i → v.Unsettled i := by
    intro i hi
    rw [Vault.Unsettled, Vault.account?, ha] at hi
    exact hi
  cases h with
  | starting h => exact .starting (ho ▸ h)
  | sweeping sw h => exact .sweeping sw fun hf i hi => h hf i (hunsettled i hi)
  | entering sw id h => exact .entering sw id fun hf i hi => h hf i (hunsettled i hi)
  | saving sw id d h hd =>
    refine .saving sw id d (fun hf i hi => h hf i (hunsettled i hi)) fun a hacc => hd a ?_
    rw [Vault.account?, ha] at hacc
    exact hacc
  | draining o h => exact .draining o fun n hn i hi => h n hn i (hunsettled i hi)
  | finished o h => exact .finished o fun n hn i hi => h n hn i (hunsettled i hi)

/-- A sweep that is done with an account has still to go over the rest. -/
theorem closes_conclude {sw : Sweep} {r : Except Problem Unit}
    (h : (sw.note r).failure = none → ∀ i, v.Unsettled i → i ∈ sw.rest) :
    (conclude (.sweep sw) r).Closes v := by
  have hrest : (sw.note r).rest = sw.rest := by
    cases r with
    | ok => rfl
    | error e => cases e <;> rfl
  refine .sweeping _ fun hf => ?_
  rw [hrest]
  exact h hf

theorem failure_of_note {sw : Sweep} {r : Except Problem Unit} (h : (sw.note r).failure = none) :
    sw.failure = none := by
  cases r with
  | ok => exact h
  | error e =>
    cases e with
    | stale => exact h
    | _ => exact absurd h (by simp [Sweep.note])

theorem closes_advance {sw : Sweep} (h : sw.failure = none → ∀ i, v.Unsettled i → i ∈ sw.rest)
    (cancelled : TokenId → Bool) :
    (advance cancelled v t sw).task.Closes (advance cancelled v t sw).vault := by
  -- a sweep without a failure that is over has left nothing
  have hover : sw.rest = [] → ∀ n, sw.outcome = .ok n → ∀ i, ¬ v.Unsettled i := by
    intro hrest n hn i hi
    have hf : sw.failure = none := by
      cases hf : sw.failure with
      | none => rfl
      | some e =>
        rw [Sweep.outcome, hf] at hn
        exact absurd hn (by simp)
    have hmem := h hf i hi
    rw [hrest] at hmem
    exact absurd hmem (by simp)
  rw [advance]
  split
  · rename_i hrest
    split
    · have hdrain : (draining (sw.outcome.map fun _ => 0)).Closes v := by
        refine .draining _ fun n hn => ?_
        cases ho : sw.outcome with
        | ok m => exact hover hrest m ho
        | error e =>
          rw [ho] at hn
          exact absurd hn (by simp [Except.map])
      exact hdrain.congr rfl rfl
    · exact .finished _ (hover hrest)
  · rename_i id rest hrest
    split
    · exact .finished _ fun n hn => absurd hn (by simp)
    · have henter : (working (.sweep { sw with rest }) id .commit .entering).Closes v := by
        refine .entering _ id fun hf i hi => ?_
        have hmem := h hf i hi
        rw [hrest] at hmem
        exact List.mem_cons.1 hmem
      exact henter.congr rfl rfl

/-- What the holder of an account's turn finds to do for a sweep. -/
theorem closes_entered {sw : Sweep} {id : AccountId}
    (hr : s.Reached id .saved) (h : sw.failure = none → ∀ i, s.vault.Unsettled i → i = id ∨ i ∈ sw.rest) :
    let p := proceed (s.vault.enter id .commit).1 t (.sweep sw) id .commit (s.vault.enter id .commit).2
    p.task.Closes p.vault ∧ s.vault.Rewritten p.vault := by
  have hent := s.vault.entered id .commit
  have hne : ∀ a, s.vault.account? id = some a → a.state ≠ .deleted →
      ∀ e, (s.vault.enter id .commit).2 ≠ .done (.error e) := fun a ha hs =>
    Vault.enter_snd_ne ha hs .commit
  generalize (s.vault.enter id .commit).1 = v' at hent ⊢
  generalize (s.vault.enter id .commit).2 = stage at hent hne ⊢
  -- the account has nothing to save, so that the rest is all that is unsettled
  have hdone : ∀ r, ¬ s.vault.Unsettled id →
      (conclude (.sweep sw) r).Closes s.vault := by
    intro r hid
    refine closes_conclude fun hf i hi => ?_
    rcases h (failure_of_note hf) i hi with rfl | hmem
    · exact absurd hi hid
    · exact hmem
  cases hent with
  | refused _ e =>
    refine ⟨(hdone _ ?_).congr rfl rfl, .of_accounts (.of_accounts rfl rfl rfl rfl) rfl⟩
    rintro ⟨a, ha, hs, -⟩
    exact hne a ha (by simp [hs]) e rfl
  | clean ha _ hd =>
    refine ⟨(hdone _ ?_).congr rfl rfl, .of_accounts (.of_accounts rfl rfl rfl rfl) rfl⟩
    rintro ⟨b, hb, -, hdirty⟩
    obtain rfl := Option.some.inj (ha.symm.trans hb)
    exact absurd (hd.symm.trans hdirty) (by simp)
  | firstDraft ha hs =>
    obtain ⟨b, hb, hrank⟩ := hr
    obtain rfl := Option.some.inj (ha.symm.trans hb)
    rw [hs] at hrank
    exact absurd hrank (by decide)
  | draft ha hs hd =>
    refine ⟨.saving sw id _ h fun b hb => ?_, .refl _⟩
    obtain rfl := Option.some.inj (ha.symm.trans hb)
    rfl

/-- Whoever saves a draft for a sweep saves an account that had been written. -/
theorem exists_of_saving (hsound : s.Sound) {goal : Goal} {id : AccountId} {work : Work} {d : Draft}
    (ht : s.tasks[t]? = some (.working goal id work (.saving d))) (hr : s.Reached id .saved) :
    ∃ a, s.vault.account? id = some a ∧ a.state = .saved := by
  obtain ⟨c, hc⟩ := hsound.desks id
  obtain ⟨S, -, hdraft⟩ := hc.drafted t _ d (hsound.active_eq_some ht (by simp)) rfl
  obtain ⟨a, ha, -, hlive, -⟩ := hdraft.account
  obtain ⟨b, hb, hrank⟩ := hr
  obtain rfl := Option.some.inj ((show s.vault.account? id = some a from ha).symm.trans hb)
  refine ⟨a, ha, ?_⟩
  cases hs : a.state with
  | saved => rfl
  | unsaved => rw [hs] at hrank; exact absurd hrank (by decide)
  | deleted => exact absurd hs hlive

theorem Closes.moved (h : task.Closes s.vault) (hsound : s.Sound) (hfit : task.Fits s)
    (ht : s.tasks[t]? = some task) (hm : task.Moved s t p) :
    p.task.Closes p.vault ∧ s.vault.Rewritten p.vault := by
  cases hm with
  | step hp =>
    cases h with
    | starting hflush =>
      cases hp
      rw [start, if_pos hflush]
      exact ⟨.sweeping _ fun _ i hi => Vault.mem_dirtyIds hsound hi, .refl _⟩
    | sweeping sw h =>
      cases hp
      refine ⟨closes_advance h _, ?_⟩
      rw [advance]
      split
      · split
        · exact .of_accounts (.of_accounts rfl rfl rfl rfl) rfl
        · exact .refl _
      · split
        · exact .refl _
        · exact .of_accounts (.of_accounts rfl rfl rfl rfl) rfl
    | entering sw id h =>
      obtain ⟨-, rfl⟩ := step_entering hp
      exact closes_entered hfit.1.2.1 h
    | saving => exact absurd hp (by simp [Task.step])
    | draining o h =>
      obtain ⟨-, rfl⟩ := step_draining hp
      exact ⟨.finished o h, .refl _⟩
    | finished => exact absurd hp (by simp [Task.step])
  | reply hr hrep =>
    cases h with
    | starting | sweeping | entering | draining | finished =>
      exact absurd hr (by simp [request?, Point.request?])
    | saving sw id d h hd =>
      obtain ⟨a, ha, hsaved⟩ := exists_of_saving hsound ht hfit.1.2.1
      cases hrep with
      | failed _ _ _ _ e =>
        have hfailed : (conclude (.sweep sw) (.error (.persistence (.fault e)))).Closes s.vault :=
          closes_conclude fun hf => absurd hf (by simp [Sweep.note])
        exact ⟨hfailed.congr rfl rfl, .of_accounts (.of_accounts rfl rfl rfl rfl) rfl⟩
      | saved =>
        have hsaved' : (conclude (.sweep sw) (.ok ())).Closes (s.vault.recordSaved id d) := by
          refine closes_conclude fun hf i hi => ?_
          obtain ⟨hne, hi⟩ := hi.of_recordSaved hd
          exact (h hf i hi).resolve_left hne
        exact ⟨hsaved'.congr rfl rfl, (Vault.Rewritten.recordSaved ha hsaved d).trans
          (.of_accounts (.of_accounts rfl rfl rfl rfl) rfl)⟩

end Task

namespace System

variable {s s' : System} {t : TaskId} {task : Task} {a : Action}

/-- While a vault is being closed, and nothing else happens but that notices are handed out. -/
theorem closes_step (hs : s.step? a = some s') (hsound : s.Sound) (hfit : s.Fitting)
    (ha : a = .dispatch ∨ a.task? = some t) (ht : s.tasks[t]? = some task)
    (h : task.Closes s.vault) :
    ∃ task', s'.tasks[t]? = some task' ∧ task'.Closes s'.vault ∧ s.vault.Rewritten s'.vault := by
  rcases ha with rfl | ha
  · cases hs
    exact ⟨task, ht, h.congr rfl rfl, .of_accounts (.of_accounts rfl rfl rfl rfl) rfl⟩
  · rcases moved ht hs with ⟨hne, -⟩ | ⟨-, p, hp, ht', hv⟩
    · exact absurd ha hne
    · rw [hv]
      exact ⟨p.task, ht', h.moved hsound (hfit t task ht) ht hp⟩

theorem closes_run (hsound : s.Sound) (hfit : s.Fitting) (ht : s.tasks[t]? = some task)
    (h : task.Closes s.vault) {as : List Action} (has : ∀ a ∈ as, a = .dispatch ∨ a.task? = some t) :
    ∃ task', (s.run as).tasks[t]? = some task' ∧ task'.Closes (s.run as).vault ∧
      s.vault.Rewritten (s.run as).vault := by
  induction as generalizing s task with
  | nil => exact ⟨task, ht, h, .refl _⟩
  | cons a as ih =>
    obtain ⟨ha, has⟩ := List.forall_mem_cons.1 has
    rw [run_cons]
    cases hs : s.step? a with
    | none =>
      rw [step_of_step?_eq_none hs]
      exact ih hsound hfit ht h has
    | some s' =>
      rw [step_of_step? hs]
      obtain ⟨task', ht', h', hw⟩ := closes_step hs hsound hfit ha ht h
      obtain ⟨task'', ht'', h'', hw'⟩ := ih (hsound.step hs) (hfit.step hsound hs) ht' h' has
      exact ⟨task'', ht'', h'', hw.trans hw'⟩

/-- Once a vault has closed well, nothing is unsettled. -/
theorem settled_of_closed (hsound : s.Sound) (hfit : s.Fitting) (hflush : s.vault.options.flushOnClose)
    (ht : s.tasks[t]? = none) {during : List Action}
    (hduring : ∀ a ∈ during, a = .dispatch ∨ a.task? = some t) {n : Nat}
    (hok : (s.run (.spawn t .close :: during)).outcome? t = some (.ok n)) :
    let s' := s.run (.spawn t .close :: during)
    s.vault.Rewritten s'.vault ∧ ∀ i, ¬ s'.vault.Unsettled i := by
  have hstep := step?_spawn ht .close
  rw [run_cons, step_of_step? hstep] at hok ⊢
  obtain ⟨task, ht', h, hw⟩ := closes_run (hsound.step hstep) (hfit.step hsound hstep)
    Std.ExtTreeMap.getElem?_insert_self (.starting hflush) hduring
  rw [outcome?_of_task ht'] at hok
  refine ⟨hw, ?_⟩
  cases h with
  | finished o h =>
    cases hok
    exact h n rfl
  | _ => exact absurd hok (by simp [Task.outcome?])

end System

end AccountVault
