import AccountVault.Proofs.Desk.Commit
import AccountVault.Proofs.Desk.Life
import AccountVault.Proofs.Stream

/-!
# Following one task

A task changes by its own steps and when its request has ended, and in no other way (`System.moved`).
So what is known of a task at one point of a run, and is kept by what it does itself and by what the
others do, is known of it from there on (`System.follow`).  The request that a task waits for is its
call; a call that has begun stays until it is answered (`System.call?_run`).
-/

namespace AccountVault

/-- What a task does in a system: a step of its own, or what it does once its request has ended. -/
inductive Task.Moved (s : System) (t : TaskId) (task : Task) : Progress → Prop
  | step {p : Progress} (h : task.step s.isCancelled s.vault t = some p) : Moved s t task p
  | reply {r : Request} {reply : Except Fault Reply} {p : Progress} (hr : task.request? = some r)
    (h : task.Replied s.vault t reply p) : Moved s t task p

/-- A task that waits for an answer takes no step of its own. -/
theorem Task.step_eq_none {task : Task} {r : Request} (hr : task.request? = some r)
    {cancelled : TokenId → Bool} {v : Vault} {self : TaskId} : task.step cancelled v self = none := by
  cases task with
  | working goal id work p =>
    cases p with
    | entering | awaitingMark => exact absurd hr (by simp [request?, Point.request?])
    | raisingMark | saving | removing => rfl
  | _ => exact absurd hr (by simp [request?])

/-- A task that waits for the notice board to be empty finishes then. -/
theorem Task.step_draining {cancelled : TokenId → Bool} {v : Vault} {self : TaskId} {o : Outcome}
    {p : Progress} (h : (draining o).step cancelled v self = some p) :
    v.board.queue = [] ∧ p = ⟨v, finished o, []⟩ := by
  rw [step] at h
  split at h
  · exact ⟨‹_›, (Option.some.inj h).symm⟩
  · exact absurd h (by simp)

/-- A task at work for a sweep stays at that account, or the sweep goes on with the result. -/
theorem Task.Moved.of_sweep {s : System} {t : TaskId} {sw : Sweep} {id : AccountId} {work : Work}
    {q : Point} {p : Progress} (h : (Task.working (.sweep sw) id work q).Moved s t p) :
    (∃ q', p.task = .working (.sweep sw) id work q') ∨ ∃ r, p.task = .sweeping (sw.note r) := by
  cases h with
  | step hp =>
    cases stepped hp with
    | pass h' | shut _ h' | enqueue _ _ _ h' => exact absurd h' (by simp [place?])
    | enter _ _ hv =>
      cases hv with
      | refused | clean | discard => exact .inr ⟨_, rfl⟩
      | firstDraft | draft | removal => exact .inl ⟨_, rfl⟩
    | raise | skip => exact .inl ⟨_, rfl⟩
  | reply _ hrep =>
    cases hrep with
    | markFailed | failed | saved | removed => exact .inr ⟨_, rfl⟩
    | marked => exact .inl ⟨_, rfl⟩

namespace System

variable {s s' : System} {t : TaskId} {task : Task} {a : Action}

theorem step?_spawn (ht : s.tasks[t]? = none) (op : Operation) :
    s.step? (.spawn t op) = some { s with tasks := s.tasks.insert t (.starting op) } := by
  simp [step?, ht]

theorem step?_run {p : Progress} (ht : s.tasks[t]? = some task)
    (hp : task.step s.isCancelled s.vault t = some p) : s.step? (.run t) = some (s.record t p) := by
  simp [step?, runTask?, ht, hp]

/-- An action is a move of a task, or leaves it as it is. -/
theorem moved (ht : s.tasks[t]? = some task) (hs : s.step? a = some s') :
    (a.task? ≠ some t ∧ s'.tasks[t]? = some task) ∨
      (a.task? = some t ∧ ∃ p, task.Moved s t p ∧ s'.tasks[t]? = some p.task ∧
        s'.vault = p.vault) := by
  by_cases ha : a.task? = some t
  · refine .inr ⟨ha, ?_⟩
    cases stepped hs with
    | quiet hq => exact absurd ((Action.task?_of_isQuiet hq).symm.trans ha) (by simp)
    | create | edit | spawn => exact absurd ha (by simp [Action.task?])
    | run ht' hp =>
      cases ha
      obtain rfl := Option.some.inj (ht.symm.trans ht')
      exact ⟨_, .step hp, tasks_record_self _, rfl⟩
    | fail e ht' hr =>
      cases ha
      obtain rfl := Option.some.inj (ht.symm.trans ht')
      exact ⟨_, .reply hr (Task.replied hr ..), tasks_record_self _, rfl⟩
    | serve ht' hr =>
      cases ha
      obtain rfl := Option.some.inj (ht.symm.trans ht')
      exact ⟨_, .reply hr (Task.replied hr ..), tasks_record_self _, rfl⟩
  · have hsome : s.tasks[t]? ≠ none := by
      rw [ht]
      simp
    exact .inl ⟨ha, (tasks_of_task?_ne hsome hs ha).trans ht⟩

/-- What is known of a task, and is kept by what it does and by what the others do, is known of it for
as long as the run goes. -/
theorem follow {P : System → Task → Prop}
    (hother : ∀ s s' a task, s.Sound → s.step? a = some s' → P s task → P s' task)
    (hmoved : ∀ s s' a task p, s.Sound → s.step? a = some s' → s.tasks[t]? = some task →
      task.Moved s t p → s'.vault = p.vault → P s task → P s' p.task)
    (hs : s.Sound) (ht : s.tasks[t]? = some task) (hP : P s task) (as : List Action) :
    ∃ task', (s.run as).tasks[t]? = some task' ∧ P (s.run as) task' := by
  refine (run_induction (P := fun s => s.Sound ∧ ∃ task, s.tasks[t]? = some task ∧ P s task)
    (fun s s' a h hstep => ?_) ⟨hs, task, ht, hP⟩ as).2
  obtain ⟨hsound, task, ht, hP⟩ := h
  refine ⟨hsound.step hstep, ?_⟩
  rcases moved ht hstep with ⟨-, ht'⟩ | ⟨-, p, hp, ht', hv⟩
  · exact ⟨task, ht', hother s s' a task hsound hstep hP⟩
  · exact ⟨p.task, ht', hmoved s s' a task p hsound hstep ht hp hv hP⟩

/-- A task that is there after a step has just been set going, or was there before. -/
theorem exists_task_of_step (hs : s.step? a = some s') (ht' : s'.tasks[t]? = some task) :
    (∃ op, a = .spawn t op ∧ task = .starting op) ∨ ∃ task', s.tasks[t]? = some task' := by
  cases ht : s.tasks[t]? with
  | some task' => exact .inr ⟨task', rfl⟩
  | none =>
    refine .inl ?_
    have hrecord : ∀ (u : TaskId) (task' : Task) (p : Progress), s.tasks[u]? = some task' →
        (s.record u p).tasks[t]? = none := by
      intro u task' p hu
      have hne : u ≠ t := by
        rintro rfl
        exact absurd (ht.symm.trans hu) (by simp)
      exact (tasks_record_of_ne p t hne).trans ht
    cases stepped hs with
    | quiet _ hsame => exact absurd (ht.symm.trans (hsame.tasks ▸ ht')) (by simp)
    | create | edit => exact absurd (ht.symm.trans ht') (by simp)
    | @spawn u op =>
      rw [Std.ExtTreeMap.getElem?_insert] at ht'
      split at ht'
      · rename_i hu
        obtain rfl := Std.LawfulEqCmp.eq_of_compare hu
        exact ⟨op, rfl, (Option.some.inj ht').symm⟩
      · exact absurd (ht.symm.trans ht') (by simp)
    | run hu | fail _ hu | serve hu => exact absurd ((hrecord _ _ _ hu).symm.trans ht') (by simp)

/-- What holds of every task that is set going, and is kept as in `follow`, holds of every task. -/
theorem follow_all {P : System → Task → Prop} (hstart : ∀ s op, P s (.starting op))
    (hother : ∀ s s' a task, s.Sound → s.step? a = some s' → P s task → P s' task)
    (hmoved : ∀ s s' a t task p, s.Sound → s.step? a = some s' → s.tasks[t]? = some task →
      task.Moved s t p → s'.vault = p.vault → P s task → P s' p.task)
    (hs : s.Sound) (h : ∀ (t : TaskId) task, s.tasks[t]? = some task → P s task)
    (as : List Action) :
    ∀ (t : TaskId) task, (s.run as).tasks[t]? = some task → P (s.run as) task := by
  refine (run_induction (P := fun s => s.Sound ∧
      ∀ (t : TaskId) task, s.tasks[t]? = some task → P s task)
    (fun s s' a h hstep => ?_) ⟨hs, h⟩ as).2
  obtain ⟨hsound, h⟩ := h
  refine ⟨hsound.step hstep, fun t task ht => ?_⟩
  rcases exists_task_of_step hstep ht with ⟨op, -, rfl⟩ | ⟨task', ht'⟩
  · exact hstart s' op
  · rcases moved ht' hstep with ⟨-, hsame⟩ | ⟨-, p, hp, hmove, hv⟩
    · obtain rfl := Option.some.inj (ht.symm.trans hsame)
      exact hother s s' a task hsound hstep (h t task ht')
    · obtain rfl := Option.some.inj (ht.symm.trans hmove)
      exact hmoved s s' a t task' p hsound hstep ht' hp hv (h t task' ht')

/-! ### Calls -/

/-- The request that a task waits for an answer to. -/
def call? (s : System) (t : TaskId) : Option Request := s.tasks[t]?.bind Task.request?

/-- The request that an action sets going for a task. -/
def begun (s : System) (t : TaskId) (a : Action) : List Request :=
  if a.task? = some t ∧ (s.step? a).isSome then ((s.step a).call? t).toList else []

/-- All requests that are set going for a task along a run. -/
def begunBy (t : TaskId) : System → List Action → List Request
  | _, [] => []
  | s, a :: as => s.begun t a ++ begunBy t (s.step a) as

theorem call?_of_task (ht : s.tasks[t]? = some task) : s.call? t = task.request? := by
  rw [call?, ht, Option.bind_some]

theorem exists_of_call? {r : Request} (h : s.call? t = some r) :
    ∃ task, s.tasks[t]? = some task ∧ task.request? = some r := Option.bind_eq_some_iff.1 h

theorem begun_of_step? (hs : s.step? a = some s') (ht : s'.tasks[t]? = some task)
    (ha : a.task? = some t) : s.begun t a = task.request?.toList := by
  have hstep := step_of_step? hs
  rw [begun, if_pos ⟨ha, by rw [hs]; rfl⟩, hstep, call?_of_task ht]

theorem begun_of_ne (ha : a.task? ≠ some t) : s.begun t a = [] := if_neg fun h => ha h.1

theorem begun_of_step?_eq_none (hs : s.step? a = none) : s.begun t a = [] :=
  if_neg fun h => absurd h.2 (by simp [hs])

/-- A task whose moves come to no request sets nothing going. -/
theorem begunBy_eq_nil {P : System → Task → Prop}
    (hother : ∀ s s' a task, s.step? a = some s' → P s task → P s' task)
    (hmoved : ∀ s s' a task p, s.step? a = some s' → task.Moved s t p → P s task →
      P s' p.task ∧ p.task.request? = none)
    (ht : s.tasks[t]? = some task) (h : P s task) (as : List Action) : s.begunBy t as = [] := by
  induction as generalizing s task with
  | nil => rfl
  | cons a as ih =>
    rw [begunBy]
    cases hs : s.step? a with
    | none =>
      rw [begun_of_step?_eq_none hs, step_of_step?_eq_none hs, ih ht h]
      rfl
    | some s' =>
      rw [step_of_step? hs]
      rcases moved ht hs with ⟨ha, ht'⟩ | ⟨ha, p, hm, ht', -⟩
      · rw [begun_of_ne ha, ih ht' (hother s s' a task hs h)]
        rfl
      · obtain ⟨h', hnone⟩ := hmoved s s' a task p hs hm h
        rw [begun_of_step? hs ht' ha, hnone, ih ht' h']
        rfl

theorem begunBy_of_finished {o : Outcome} (ht : s.tasks[t]? = some (.finished o))
    (as : List Action) : s.begunBy t as = [] := by
  refine begunBy_eq_nil (P := fun _ task => ∃ o, task = .finished o) (fun _ _ _ _ _ h => h) ?_ ht
    ⟨o, rfl⟩ as
  rintro s s' a task p - hm ⟨o, rfl⟩
  cases hm with
  | step hp => exact absurd hp (by simp [Task.step])
  | reply hr => exact absurd hr (by simp [Task.request?])

/-- A call goes on until it is answered. -/
theorem call?_step {r : Request} (h : s.call? t = some r) (ha : ∀ fault, a ≠ .answer t fault) :
    (s.step a).call? t = some r := by
  obtain ⟨task, ht, hr⟩ := exists_of_call? h
  cases hs : s.step? a with
  | none =>
    rw [step_of_step?_eq_none hs]
    exact h
  | some s' =>
    rw [step_of_step? hs]
    rcases moved ht hs with ⟨-, ht'⟩ | ⟨hat, -⟩
    · exact (call?_of_task ht').trans hr
    · cases a with
      | run =>
        cases hat
        simp [step?, runTask?, ht, Task.step_eq_none hr] at hs
      | answer _ fault =>
        cases hat
        exact absurd rfl (ha fault)
      | _ => exact absurd hat (by simp [Action.task?])

theorem call?_run {r : Request} (h : s.call? t = some r) (as : List Action)
    (has : ∀ fault, .answer t fault ∉ as) : (s.run as).call? t = some r := by
  induction as generalizing s with
  | nil => exact h
  | cons a as ih =>
    rw [run_cons]
    refine ih (call?_step h fun fault hf => has fault ?_) fun fault hf => has fault ?_
    · rw [hf]
      exact List.mem_cons_self
    · exact List.mem_cons_of_mem _ hf

/-- The call of a task can be answered, well or not. -/
theorem exists_step?_answer {r : Request} (h : s.call? t = some r) (fault : Option Fault) :
    ∃ s', s.step? (.answer t fault) = some s' := by
  obtain ⟨task, ht, hr⟩ := exists_of_call? h
  cases fault <;> exact ⟨_, by simp [step?, answer?, ht, hr]; rfl⟩

end System

end AccountVault
