import AccountVault.Proofs.System.Following
import AccountVault.Vault.Query

/-!
# Deleted accounts are out of reach

What is left of an account once it has been deleted (`System.Gone`): it is not found, nothing is stored
of it and no save of it is under way, every edit and every question finds it stale and changes nothing,
and so does every commit and deletion that comes to its turn.  Main statement: `System.Sound.gone`.
-/

namespace AccountVault

/-! ### Edits and questions -/

/-- Checks what can be wrong with an edit itself. -/
def Edit.check (limit : Nat) : Edit → Except Problem Unit
  | .write _ key value source => do
    Key.check key limit
    (Cell.define value source).map fun _ => ()
  | .remove _ key => Key.check key limit
  | .bind service => Name.check "service" service
  | _ => .ok ()

namespace Account

/-- An edit is checked, then the account, and only then something is changed. -/
theorem exists_edit_eq (a : Account) (limit : Nat) (id : AccountId) (e : Edit) :
    ∃ r, a.edit limit id e = (do e.check limit; a.checkLive id; pure r) := by
  cases e with
  | rename | setEnabled | setServiceEnabled => exact ⟨_, rfl⟩
  | remove | bind => exact ⟨_, rfl⟩
  | write scope key value source =>
    rw [edit, Edit.check]
    cases Key.check key limit with
    | error p => exact ⟨(a, false), rfl⟩
    | ok u =>
      cases Cell.define value source with
      | error p => exact ⟨(a, false), rfl⟩
      | ok cell => exact ⟨(a.put scope key cell, false), rfl⟩

theorem edit_of_deleted {a : Account} (h : a.state = .deleted) {limit : Nat} (id : AccountId)
    {e : Edit} (he : e.check limit = .ok ()) : a.edit limit id e = .error (.stale id) := by
  obtain ⟨r, hr⟩ := a.exists_edit_eq limit id e
  have hlive : a.checkLive id = .error (.stale id) := by simp [checkLive, h]
  rw [hr, he, hlive]
  rfl

/-- An account that lives takes every edit that passes its checks, and no other. -/
theorem exists_edit_iff {a : Account} {limit : Nat} {id : AccountId} {e : Edit} :
    (∃ r, a.edit limit id e = .ok r) ↔ e.check limit = .ok () ∧ a.state ≠ .deleted := by
  obtain ⟨r, hr⟩ := a.exists_edit_eq limit id e
  rw [hr, ← @checkLive_eq_ok_iff a id]
  cases e.check limit <;> cases a.checkLive id <;>
    simp [Bind.bind, Except.bind, Pure.pure, Except.pure]

end Account

namespace Vault

variable {v : Vault} {id : AccountId} {a : Account}

theorem edit_of_deleted (ha : v.account? id = some a) (hs : a.state = .deleted) {e : Edit}
    (he : e.check v.options.keyLimit = .ok ()) : v.edit id e = .error (.stale id) := by
  rw [edit, ha]
  simp only [Account.edit_of_deleted hs id he]
  rfl

theorem live_of_deleted (ha : v.account? id = some a) (hs : a.state = .deleted) :
    v.live id = .error (.stale id) := by
  rw [live, ha]
  simp [Account.checkLive, hs, bind, Except.bind]

theorem ask_of_deleted (ha : v.account? id = some a) (hs : a.state = .deleted) {q : Query}
    (hq : q.check v.options.keyLimit = .ok ()) : v.ask id q = .error (.stale id) := by
  rw [ask, hq, live_of_deleted ha hs]
  rfl

/-- A deleted account is on no list. -/
theorem not_mem_list (ha : v.account? id = some a) (hs : a.state = .deleted) (f : AccountFilter) :
    id ∉ v.list f := by
  intro hmem
  have haccepts := (List.mem_filter.1 hmem).2
  rw [ha, Option.any_some, AccountFilter.accepts, hs] at haccepts
  simp at haccepts

/-! ### What holders of a turn find -/

/-- Where there is no account any more, there is nothing to commit and nothing to delete. -/
theorem enter_of_dead (h : ∀ a, v.account? id = some a → a.state = .deleted) (w : Work) :
    v.enter id w = (v, .done (.error (.stale id))) := by
  have hl : v.live id = .error (.stale id) := by
    cases ha : v.account? id with
    | none => rw [live, ha]
    | some a => exact live_of_deleted ha (h a ha)
  cases w with
  | commit => rw [enter, draft?, hl]; rfl
  | delete => rw [enter, hl]

/-- Nobody is refused who finds an account that is not deleted. -/
theorem enter_snd_ne (ha : v.account? id = some a) (hs : a.state ≠ .deleted) (w : Work)
    (e : Problem) : (v.enter id w).2 ≠ .done (.error e) := by
  have hl : v.live id = .ok a := live_eq_ok_iff.2 ⟨ha, hs⟩
  cases w with
  | commit =>
    by_cases hc : a.state = .saved ∧ (!a.isDirty) = true
    · simp [enter, draft?, hl, hc, bind, Except.bind, pure, Except.pure]
    · simp only [enter, draft?, hl, hc, bind, Except.bind, pure, Except.pure, if_false]
      simp
  | delete =>
    rw [enter, hl]
    by_cases hc : a.state = .saved
    · simp [hc]
    · simp [hc]

end Vault

namespace Task

/-- A task at the head of an account's queue does what its holder finds to do. -/
theorem step_entering {cancelled : TokenId → Bool} {v : Vault} {self : TaskId} {goal : Goal}
    {id : AccountId} {work : Work} {p : Progress}
    (h : (working goal id work .entering).step cancelled v self = some p) :
    v.turns.holder? (.account id) = some self ∧
      p = proceed (v.enter id work).1 self goal id work (v.enter id work).2 := by
  rw [step] at h
  split at h
  · exact ⟨‹_›, (Option.some.inj h).symm⟩
  · exact absurd h (by simp)

/-! ### Work on deleted accounts -/

/-- How far a task has got that was asked to commit or to delete an account which was deleted before. -/
inductive Refused (id : AccountId) : Task → Prop
  | starting (op : Operation) (h : op = .commit id ∨ op = .delete id) : Refused id (starting op)
  | entering (work : Work) : Refused id (working .report id work .entering)
  | finished : Refused id (finished (.error (.stale id)))

theorem Refused.request?_eq_none {id : AccountId} {task : Task} (h : task.Refused id) :
    task.request? = none := by
  cases h <;> rfl

/-- It waits for its turn, is refused, and touches nothing but queues. -/
theorem Refused.step {s : System} {t : TaskId} {id : AccountId} {task : Task} {p : Progress}
    (h : task.Refused id) (hdel : s.Reached id .deleted)
    (hp : task.step s.isCancelled s.vault t = some p) :
    p.task.Refused id ∧ ∃ turns, p.vault = { s.vault with turns } := by
  cases h with
  | starting op hop =>
    cases hp
    rcases hop with rfl | rfl
    · exact ⟨.entering .commit, _, rfl⟩
    · exact ⟨.entering .delete, _, rfl⟩
  | entering work =>
    obtain ⟨-, rfl⟩ := step_entering hp
    rw [Vault.enter_of_dead fun _ => hdel.state_eq]
    exact ⟨.finished, _, rfl⟩
  | finished => exact absurd hp (by simp [Task.step])

end Task

namespace System

variable {s s' : System} {id : AccountId} {t : TaskId} {task : Task}

/-! ### What a deletion leaves behind -/

/-- Nobody is past the queue of a deleted account. -/
theorem Sound.active_eq_none (h : s.Sound) (hdel : s.Reached id .deleted) : s.active id = none := by
  obtain ⟨c, hc⟩ := h.desks id
  refine Option.eq_none_iff_forall_ne_some.2 fun ⟨t, p⟩ hact => ?_
  -- whoever writes has drafted an account that was not deleted
  have hdraft : ∀ f, p.draft? ≠ some f := by
    intro f hf
    obtain ⟨S, -, hd⟩ := hc.drafted t p f hact hf
    obtain ⟨b, hb, -, hlive, -⟩ := hd.account
    exact hlive (hdel.state_eq hb)
  cases p with
  | entering =>
    have hat := h.orderly.inTurn.active_eq_some_iff.1 hact
    obtain ⟨task, -, hat⟩ := Option.bind_eq_some_iff.1 hat
    exact (Task.at?_eq_some_iff.1 hat).2 rfl
  | awaitingMark f | raisingMark f | saving f => exact hdraft f rfl
  | removing =>
    obtain ⟨b, hb, hsaved⟩ := hc.removing t hact
    exact absurd (hsaved.symm.trans (hdel.state_eq hb)) (by simp)

/-- No save of a deleted account is under way. -/
theorem Sound.call?_ne_save (h : s.Sound) (hdel : s.Reached id .deleted) (t : TaskId)
    (bytes : Bytes) : s.call? t ≠ some (.save id bytes) := by
  intro hc
  obtain ⟨task, ht, hr⟩ := exists_of_call? hc
  cases task with
  | working goal i work p =>
    cases p with
    | saving d =>
      cases hr
      have hact := h.active_eq_some ht (by simp)
      exact absurd ((h.active_eq_none hdel).symm.trans hact) (by simp)
    | _ => exact absurd hr (by simp [Task.request?, Point.request?])
  | _ => exact absurd hr (by simp [Task.request?])

/-- An edit of a deleted account changes nothing, whatever is wrong with it. -/
theorem step_edit_of_deleted (hdel : s.Reached id .deleted) (e : Edit) :
    s.step (.edit id e) = s := by
  cases hstep : s.step? (.edit id e) with
  | none => exact step_of_step?_eq_none hstep
  | some s' =>
    cases stepped hstep with
    | quiet hq => exact absurd hq (by simp [Action.isQuiet])
    | edit hb hlive => exact absurd (hdel.state_eq hb) hlive

/-! ### Work that comes too late -/

theorem refused_run (hs : s.Sound) (hdel : s.Reached id .deleted) (ht : s.tasks[t]? = some task)
    (h : task.Refused id) (as : List Action) :
    ∃ task', (s.run as).tasks[t]? = some task' ∧ task'.Refused id := by
  have hP := follow (t := t) (P := fun s task => s.Reached id .deleted ∧ task.Refused id)
    (fun _ _ _ _ hs hstep h => ⟨h.1.step hs hstep, h.2⟩) ?_ hs ht ⟨hdel, h⟩ as
  · obtain ⟨task', ht', -, h'⟩ := hP
    exact ⟨task', ht', h'⟩
  · intro s s' a task p hs hstep _ hm _ h
    refine ⟨h.1.step hs hstep, ?_⟩
    cases hm with
    | step hp => exact (h.2.step h.1 hp).1
    | reply hr => exact absurd (h.2.request?_eq_none.symm.trans hr) (by simp)

/-- Its steps change nothing but how far it has got and who waits for whom. -/
theorem refused_step {a : Action} (hdel : s.Reached id .deleted) (ht : s.tasks[t]? = some task)
    (h : task.Refused id) (hs : s.step? a = some s') (ha : a.task? = some t) :
    ∃ turns task', s' =
      { s with vault := { s.vault with turns }, tasks := s.tasks.insert t task' } := by
  have hnone := h.request?_eq_none
  cases stepped hs with
  | quiet hq => exact absurd ((Action.task?_of_isQuiet hq).symm.trans ha) (by simp)
  | create | edit | spawn => exact absurd ha (by simp [Action.task?])
  | @run _ _ p ht' hp =>
    cases ha
    obtain rfl := Option.some.inj (ht.symm.trans ht')
    obtain ⟨-, turns, hv⟩ := h.step hdel hp
    refine ⟨turns, p.task, ?_⟩
    rw [record, hv]
  | fail _ ht' hr | serve ht' hr =>
    cases ha
    obtain rfl := Option.some.inj (ht.symm.trans ht')
    exact absurd (hnone.symm.trans hr) (by simp)

/-- Whoever stands in the queue of a deleted account has not begun. -/
theorem Sound.entering_of_mem (h : s.Sound) (hdel : s.Reached id .deleted)
    (ht : t ∈ s.vault.turns.queue (.account id)) :
    ∃ goal work, s.tasks[t]? = some (.working goal id work .entering) := by
  obtain ⟨task, htask, hq⟩ := ((h.inLine (.account id)).2 t).1 ht
  cases task with
  | working goal i work p =>
    obtain rfl : i = id := by simpa [Task.queues, Task.place?] using hq
    have hp : p = .entering := by
      refine Decidable.byContradiction fun hp => ?_
      have hact := h.active_eq_some htask hp
      exact absurd ((h.active_eq_none hdel).symm.trans hact) (by simp)
    rw [hp] at htask
    exact ⟨goal, work, htask⟩
  | _ => exact absurd hq (by simp [Task.queues, Task.place?])

/-- The first in the queue of a deleted account is refused, and leaves the queue to the others. -/
theorem run_head (hdel : s.Reached id .deleted) {goal : Goal} {work : Work}
    (hold : s.vault.turns.holder? (.account id) = some t)
    (ht : s.tasks[t]? = some (.working goal id work .entering)) :
    ∃ s', s.step? (.run t) = some s' ∧
      s'.tasks[t]? = some (.conclude goal (.error (.stale id))) ∧
      (∀ u, t ≠ u → s'.tasks[u]? = s.tasks[u]?) ∧
      s'.vault.turns.queue (.account id) = (s.vault.turns.queue (.account id)).tail := by
  have hp : (Task.working goal id work .entering).step s.isCancelled s.vault t =
      some (Task.proceed s.vault t goal id work (.done (.error (.stale id)))) := by
    rw [Task.step, if_pos hold, Vault.enter_of_dead fun _ => hdel.state_eq]
  refine ⟨_, step?_run ht hp, tasks_record_self _, fun u hu => tasks_record_of_ne _ u hu, ?_⟩
  exact (Task.queue_release ..).trans (if_pos rfl)

/-- Whoever stands in the queue of a deleted account comes to its turn once those before it have taken
a step each, and is refused. -/
theorem exists_turns (hs : s.Sound) (hdel : s.Reached id .deleted) {goal : Goal} {work : Work}
    (ht : s.tasks[t]? = some (.working goal id work .entering)) {before after : List TaskId}
    (hq : s.vault.turns.queue (.account id) = before ++ t :: after) :
    ∃ ts : List TaskId, (s.run (ts.map .run)).tasks[t]? =
      some (.conclude goal (.error (.stale id))) := by
  induction before generalizing s with
  | nil =>
    have hold : s.vault.turns.holder? (.account id) = some t := by
      rw [Turns.holder?, hq]
      rfl
    obtain ⟨s', hstep, ht', -⟩ := run_head hdel hold ht
    refine ⟨[t], ?_⟩
    rw [List.map_cons, run_cons, step_of_step? hstep]
    exact ht'
  | cons u before ih =>
    have hold : s.vault.turns.holder? (.account id) = some u := by
      rw [Turns.holder?, hq]
      rfl
    have hu : u ≠ t := by
      have hnodup := (hs.inLine (.account id)).1
      rw [hq, List.cons_append, List.nodup_cons] at hnodup
      rintro rfl
      exact hnodup.1 (by simp)
    obtain ⟨goal', work', htu⟩ := hs.entering_of_mem hdel (t := u) (by rw [hq]; simp)
    obtain ⟨s', hstep, -, hother, hq'⟩ := run_head hdel hold htu
    rw [hq] at hq'
    obtain ⟨ts, hts⟩ := ih (hs.step hstep) (hdel.step hs hstep) ((hother t hu).trans ht) hq'
    refine ⟨u :: ts, ?_⟩
    rw [List.map_cons, run_cons, step_of_step? hstep]
    exact hts

/-- Work on a deleted account can be brought to its end without the storage. -/
theorem exists_refusal (hs : s.Sound) (hdel : s.Reached id .deleted)
    (ht : s.tasks[t]? = some task) (h : task.Refused id) :
    ∃ ts : List TaskId, (s.run (ts.map .run)).outcome? t = some (.error (.stale id)) := by
  -- once it stands in the queue
  have hwait : ∀ {s : System} {work : Work}, s.Sound → s.Reached id .deleted →
      s.tasks[t]? = some (.working .report id work .entering) →
      ∃ ts : List TaskId, (s.run (ts.map .run)).outcome? t = some (.error (.stale id)) := by
    intro s work hs hdel ht
    have hmem : t ∈ s.vault.turns.queue (.account id) :=
      ((hs.inLine (.account id)).2 t).2 ⟨_, ht, by simp [Task.queues, Task.place?]⟩
    obtain ⟨before, after, hq⟩ := List.append_of_mem hmem
    obtain ⟨ts, hts⟩ := exists_turns hs hdel ht hq
    refine ⟨ts, ?_⟩
    rw [outcome?_of_task hts]
    rfl
  cases h with
  | starting op hop =>
    obtain ⟨work, hstart⟩ : ∃ work, Task.start s.vault t op =
        Task.enqueue s.vault t .report id work := by
      rcases hop with rfl | rfl
      · exact ⟨.commit, rfl⟩
      · exact ⟨.delete, rfl⟩
    have hp : (Task.starting op).step s.isCancelled s.vault t =
        some (Task.enqueue s.vault t .report id work) := congrArg some hstart
    have hstep := step?_run ht hp
    obtain ⟨ts, hts⟩ := hwait (hs.step hstep) (hdel.step hs hstep) (tasks_record_self _)
    refine ⟨t :: ts, ?_⟩
    rw [List.map_cons, run_cons, step_of_step? hstep]
    exact hts
  | entering work => exact hwait hs hdel ht
  | finished => exact ⟨[], outcome?_of_task ht⟩

/-- What is left of an account that has been deleted. -/
structure Gone (s : System) (id : AccountId) : Prop where
  deleted : ∃ a, s.vault.account? id = some a ∧ a.state = .deleted
  finds : s.vault.finds id = false
  list : ∀ f, id ∉ s.vault.list f
  stored : s.contents.record? id = none
  /-- No save of it is under way. -/
  call? : ∀ t bytes, s.call? t ≠ some (.save id bytes)
  edit : ∀ e : Edit, e.check s.vault.options.keyLimit = .ok () → s.vault.edit id e = .error (.stale id)
  /-- No edit changes anything, whatever is wrong with it. -/
  unchanged : ∀ e, s.step (.edit id e) = s
  ask : ∀ q : Query, q.check s.vault.options.keyLimit = .ok () →
    s.vault.ask id q = .error (.stale id)
  /-- Whoever is asked to commit or to delete it can only be refused, and changes nothing but the
  queues meanwhile. -/
  refuses : ∀ t op as, op = .commit id ∨ op = .delete id → s.tasks[t]? = none →
    let s' := (s.step (.spawn t op)).run as
    (∀ o, s'.outcome? t = some o → o = .error (.stale id)) ∧
    (∃ ts : List TaskId, (s'.run (ts.map .run)).outcome? t = some (.error (.stale id))) ∧
    ∀ a s'', s'.step? a = some s'' → a.task? = some t → ∃ turns task,
      s'' = { s' with vault := { s'.vault with turns }, tasks := s'.tasks.insert t task }

theorem Sound.gone (h : s.Sound) (hdel : s.Reached id .deleted) : s.Gone id := by
  obtain ⟨a, ha, hs⟩ := reached_deleted_iff.1 hdel
  obtain ⟨hfinds, hstored⟩ := h.absent_of_deleted hdel
  refine ⟨⟨a, ha, hs⟩, hfinds, Vault.not_mem_list ha hs, hstored, h.call?_ne_save hdel,
    fun e he => Vault.edit_of_deleted ha hs he, step_edit_of_deleted hdel,
    fun q hq => Vault.ask_of_deleted ha hs hq, ?_⟩
  intro t op as hop ht
  have hstep := step?_spawn ht op
  have hs₁ := h.step hstep
  have hdel₁ := hdel.step h hstep
  rw [step_of_step? hstep]
  intro s'
  obtain ⟨task, htask, href⟩ := refused_run hs₁ hdel₁ Std.ExtTreeMap.getElem?_insert_self
    (.starting op hop) as
  have hs' : s'.Sound := hs₁.run as
  have hdel' : s'.Reached id .deleted := hdel₁.run hs₁ as
  refine ⟨fun o ho => ?_, exists_refusal hs' hdel' htask href,
    fun a s'' hstep ha => refused_step hdel' htask href hstep ha⟩
  rw [outcome?_of_task htask] at ho
  cases href with
  | starting | entering => exact absurd ho (by simp [Task.outcome?])
  | finished => exact (Option.some.inj ho).symm

end System

end AccountVault
