import AccountVault.Proofs.Mark

/-!
# Steps that leave no trace

Two systems agree (`System.Agrees`) if they hold the same accounts, overrides, ids, records and notices;
they may differ in who waits for whom, and in the mark.  An operation on one account that does not end
well takes no step but between systems that agree (`System.agrees_of_step`), and only a caller's commit
of an unsaved account moves the mark, upwards (`System.Raised`).
-/

namespace AccountVault

/-- The same vault with other turns and another mark. -/
def Vault.reframe (v : Vault) (turns : Turns) (mark : AccountId) : Vault := { v with turns, mark }

/-- A vault that differs in nothing but the turns and the mark. -/
def Vault.Agrees (v v' : Vault) : Prop := ∃ turns mark, v' = v.reframe turns mark

theorem Vault.Agrees.refl (v : Vault) : v.Agrees v := ⟨v.turns, v.mark, rfl⟩

/-- The task that an action sets going or is a step of. -/
def Action.actor? : Action → Option TaskId
  | spawn t _ => some t
  | run t => some t
  | answer t _ => some t
  | _ => none

theorem Action.actor?_of_isQuiet {a : Action} (h : a.isQuiet = true) : a.actor? = none := by
  cases a <;> first | rfl | exact absurd h (by simp [isQuiet])

/-- What an operation is at work on, for whom, and where it can be. -/
inductive Task.Pursues : Operation → Task → Prop
  | starting (op : Operation) : Pursues op (.starting op)
  | commit (id : AccountId) (p : Point) : Pursues (.commit id) (.working .report id .commit p)
  | delete (id : AccountId) (p : Point) : Pursues (.delete id) (.working .report id .delete p)
  | deleteFound (id : AccountId) (p : Point) :
    Pursues (.deleteFound id) (.working .forgive id .delete p)
  | finished (op : Operation) (o : Outcome) : Pursues op (.finished o)
  /-- A flush or a closing can be anywhere. -/
  | sweep {op : Operation} (h : op.target? = none) (task : Task) : Pursues op task

namespace Task

variable {cancelled : TokenId → Bool} {v : Vault} {self : TaskId} {task : Task} {p : Progress}
  {op : Operation} {goal : Goal} {id : AccountId} {work : Work} {q : Point}

theorem Pursues.isSingle (h : task.Pursues op) (hop : op.target?.isSome)
    (ho : ∀ o, task ≠ Task.finished o) : task.isSingle = true := by
  cases h with
  | starting => exact hop
  | commit | delete | deleteFound => rfl
  | finished _ o => exact absurd rfl (ho o)
  | sweep h => exact absurd hop (by simp [h])

/-- Work for an operation goes on for it, from wherever it is. -/
theorem Pursues.working (h : (working goal id work q).Pursues op) (q' : Point) :
    (Task.working goal id work q').Pursues op := by
  cases h with
  | commit => exact .commit id q'
  | delete => exact .delete id q'
  | deleteFound => exact .deleteFound id q'
  | sweep h => exact .sweep h _

theorem Pursues.conclude (h : (Task.working goal id work q).Pursues op) (r : Except Problem Unit) :
    (conclude goal r).Pursues op := by
  cases h with
  | commit | delete => exact .finished _ _
  | deleteFound =>
    have hsingle : (Task.working .forgive id .delete q).isSingle = true := rfl
    obtain ⟨o, ho, -⟩ := conclude_of_isSingle hsingle r
    rw [ho]
    exact .finished _ o
  | sweep h => exact .sweep h _

theorem pursues_start (op : Operation) (v : Vault) (self : TaskId) :
    (start v self op).task.Pursues op := by
  cases op with
  | commit id => exact .commit id .entering
  | delete id => exact .delete id .entering
  | deleteFound id =>
    rw [start]
    split
    · exact .deleteFound id .entering
    · exact .finished _ _
  | flush | close => exact .sweep rfl _

/-- Whatever a task does, it does for its operation. -/
theorem Pursues.moved {s : System} {t : TaskId} (h : task.Pursues op) (hm : task.Moved s t p) :
    p.task.Pursues op := by
  cases hm with
  | step hp =>
    cases task with
    | starting op' =>
      cases hp
      cases h with
      | starting => exact pursues_start ..
      | sweep h => exact .sweep h _
    | working goal id work q =>
      cases stepped hp with
      | pass h' | shut _ h' | enqueue _ _ _ h' => exact absurd h' (by simp [place?])
      | enter _ _ hv =>
        cases hv with
        | refused | clean | discard => exact h.conclude _
        | firstDraft | draft | removal => exact h.working _
      | raise | skip => exact h.working _
    | sweeping | draining =>
      cases h with
      | sweep h => exact .sweep h _
    | finished => exact absurd hp (by simp [Task.step])
  | reply _ hrep =>
    cases hrep with
    | markFailed | failed | saved | removed => exact h.conclude _
    | marked => exact h.working _

/-- A step for one account that does not end well changes nothing but the turns. -/
theorem agrees_of_step (h : task.isSingle = true) (hp : task.step cancelled v self = some p)
    (hok : ∀ n, p.task ≠ finished (.ok n)) : v.Agrees p.vault ∧ p.vault.mark = v.mark := by
  have hsingle := isSingle_step h hp
  cases stepped hp with
  | pass => exact ⟨.refl v, rfl⟩
  | shut o =>
    rcases hsingle with hs | ⟨o', ho'⟩
    · exact absurd hs (by simp [Task.shut, isSingle])
    · exact absurd ho' (by simp [Task.shut])
  | enqueue => exact ⟨⟨_, v.mark, rfl⟩, rfl⟩
  | enter goal _ hv =>
    cases hv with
    | refused | clean | firstDraft => exact ⟨⟨_, v.mark, rfl⟩, rfl⟩
    | draft | removal => exact ⟨.refl v, rfl⟩
    | discard =>
      obtain ⟨o, ho, hzero⟩ := conclude_of_isSingle h (.ok ())
      exact absurd (ho.trans (by rw [hzero rfl])) (hok 0)
  | raise => exact ⟨.refl v, rfl⟩
  | skip => exact ⟨⟨_, v.mark, rfl⟩, rfl⟩

/-- Neither does an answer that is a failure. -/
theorem agrees_of_failed {e : Fault} (hr : Replied v self task (.error e) p) :
    v.Agrees p.vault ∧ p.vault.mark = v.mark := by
  cases hr with
  | markFailed | failed => exact ⟨⟨_, v.mark, rfl⟩, rfl⟩

end Task

namespace System

/-- A system that differs in nothing but its tasks, their turns, and the mark. -/
structure Agrees (s s' : System) : Prop where
  vault : s.vault.Agrees s'.vault
  records : s'.contents.records = s.contents.records
  handed : s'.handed = s.handed
  cancelled : s'.cancelled = s.cancelled

/-- The mark has not moved. -/
def SameMark (s s' : System) : Prop :=
  s'.vault.mark = s.vault.mark ∧ s'.contents.mark = s.contents.mark

/-- The mark has been raised above the id of an unsaved account, and not above all ids to come. -/
def Raised (s s' : System) (id : AccountId) : Prop :=
  ∃ a next, s.vault.account? id = some a ∧ a.state = .unsaved ∧ id < next ∧ next ≤ s.vault.nextId ∧
    s.vault.mark < next ∧ s'.vault.mark = next ∧ s'.contents.mark = some next

variable {loaded : Option AccountId} {known : AccountId → Bool} {s s' : System} {a : Action}
  {t : TaskId} {task : Task}

theorem Agrees.refl (s : System) : s.Agrees s := ⟨.refl _, rfl, rfl, rfl⟩

theorem outcome?_ne_of_task {task' : Task} (hok : ∀ n, s.outcome? t ≠ some (.ok n))
    (ht : s.tasks[t]? = some task') (n : Nat) : task' ≠ .finished (.ok n) := by
  rintro rfl
  exact hok n (outcome?_of_task ht)

/-- A step of a task for one account that does not end well leaves no trace but perhaps a raised mark. -/
theorem agrees_of_step (hsound : s.Sound) (hfit : s.Fitting) (hmarked : s.Marked loaded known)
    (hs : s.step? a = some s') (ha : a.task? = some t) (ht : s.tasks[t]? = some task)
    (hsingle : task.isSingle = true) (hok : ∀ n, s'.outcome? t ≠ some (.ok n)) :
    s.Agrees s' ∧ (s.SameMark s' ∨
      ∃ id d next, task = .working .report id .commit (.raisingMark d next) ∧ s.Raised s' id) := by
  cases stepped hs with
  | quiet hq => exact absurd ((Action.task?_of_isQuiet hq).symm.trans ha) (by simp)
  | create | edit | spawn => exact absurd ha (by simp [Action.task?])
  | @run t' task' p ht' hp =>
    cases ha
    obtain rfl := Option.some.inj (ht.symm.trans ht')
    have hend := outcome?_ne_of_task hok (tasks_record_self (s := s) p)
    obtain ⟨hv, hm⟩ := Task.agrees_of_step hsingle hp hend
    exact ⟨⟨hv, rfl, rfl, rfl⟩, .inl ⟨hm, rfl⟩⟩
  | @fail t' task' r e ht' hr =>
    cases ha
    obtain rfl := Option.some.inj (ht.symm.trans ht')
    obtain ⟨hv, hm⟩ := Task.agrees_of_failed (Task.replied hr s.vault t (.error e))
    exact ⟨⟨hv, rfl, rfl, rfl⟩, .inl ⟨hm, rfl⟩⟩
  | @serve t' task' r ht' hr =>
    cases ha
    obtain rfl := Option.some.inj (ht.symm.trans ht')
    have hrep := Task.replied hr s.vault t (.ok (s.contents.serve r).2)
    generalize task.answered s.vault t (.ok (s.contents.serve r).2) = p at hrep hok ⊢
    have hend := outcome?_ne_of_task hok (tasks_record_self (s := s) p)
    cases hrep with
    | marked goal id work d next =>
      cases hr
      obtain ⟨rfl, rfl, b, hb, hunsaved⟩ := hfit.of_mark hsound ht (.inr ⟨next, rfl⟩)
      obtain ⟨hlt, hle, hid⟩ := hmarked.points t _ id _ ht rfl
      exact ⟨⟨⟨_, next, rfl⟩, rfl, rfl, rfl⟩,
        .inr ⟨id, d, next, rfl, b, next, hb, hunsaved, hid, hle, hlt, rfl, rfl⟩⟩
    | saved | removed =>
      obtain ⟨o, ho, hzero⟩ := Task.conclude_of_isSingle hsingle (.ok ())
      exact absurd (ho.trans (by rw [hzero rfl])) (hend 0)

/-! ### Along a run -/

/-- Every task has been set going, and is at work on the operation that it was set going for. -/
theorem exists_pursued (hempty : ∀ t : TaskId, s.tasks[t]? = none) (as : List Action) {t : TaskId}
    {task : Task} (ht : (s.run as).tasks[t]? = some task) :
    ∃ op, .spawn t op ∈ as ∧ task.Pursues op := by
  induction as using List.reverseRecOn generalizing task with
  | nil => exact absurd ((hempty t).symm.trans ht) (by simp)
  | append_singleton as a ih =>
    rw [run_concat] at ht
    have hold : ∀ {task' : Task}, (s.run as).tasks[t]? = some task' →
        ∃ op, .spawn t op ∈ as ++ [a] ∧ task'.Pursues op := by
      intro task' ht'
      obtain ⟨op, hop, hpursues⟩ := ih ht'
      exact ⟨op, List.mem_append_left _ hop, hpursues⟩
    cases hs : (s.run as).step? a with
    | none =>
      rw [step_of_step?_eq_none hs] at ht
      exact hold ht
    | some s' =>
      rw [step_of_step? hs] at ht
      rcases exists_task_of_step hs ht with ⟨op, rfl, rfl⟩ | ⟨task', ht'⟩
      · exact ⟨op, by simp, .starting op⟩
      · obtain ⟨op, hop, hpursues⟩ := hold ht'
        rcases moved ht' hs with ⟨-, hsame⟩ | ⟨-, p, hm, hmove, -⟩
        · obtain rfl := Option.some.inj (ht.symm.trans hsame)
          exact ⟨op, hop, hpursues⟩
        · obtain rfl := Option.some.inj (ht.symm.trans hmove)
          exact ⟨op, hop, hpursues.moved hm⟩

theorem outcome?_run {o : Outcome} (h : s.outcome? t = some o) (as : List Action) :
    (s.run as).outcome? t = some o := by
  refine run_induction (P := fun s => s.outcome? t = some o) (fun s s' a h hs => ?_) h as
  obtain ⟨task, ht, ho⟩ := Option.bind_eq_some_iff.1 h
  have hfinished : task = .finished o := by
    cases task with
    | finished => cases ho; rfl
    | _ => exact absurd ho (by simp [Task.outcome?])
  subst hfinished
  have ha : a.task? ≠ some t := fun ha => absurd (hs.symm.trans (step?_of_finished ht ha)) (by simp)
  rw [outcome?_of_tasks (tasks_of_task?_ne (by simp [ht]) hs ha)]
  exact h

/-- No operation of a task is one on more than one account, and none has ended well at the end of a
run. -/
structure InVain (s : System) (as : List Action) (t : TaskId) : Prop where
  single : ∀ op, .spawn t op ∈ as → op.target?.isSome
  outcome : ∀ n, (s.run as).outcome? t ≠ some (.ok n)

theorem InVain.of_append {as bs : List Action} (h : s.InVain (as ++ bs) t) : s.InVain as t := by
  refine ⟨fun op hop => h.single op (List.mem_append_left _ hop), fun n hn => h.outcome n ?_⟩
  rw [run_append]
  exact outcome?_run hn bs

theorem exists_task_of_task? (hs : s.step? a = some s') (ha : a.task? = some t) :
    ∃ task, s.tasks[t]? = some task := by
  cases stepped hs with
  | quiet hq => exact absurd ((Action.task?_of_isQuiet hq).symm.trans ha) (by simp)
  | create | edit | spawn => exact absurd ha (by simp [Action.task?])
  | run ht | fail _ ht | serve ht =>
    cases ha
    exact ⟨_, ht⟩

end System

namespace Contents

variable {c : Contents} {options : Options} {catalog : Catalog} {v : Vault}

/-- All that a task does in vain leaves no trace, but for the mark, which a first commit may raise. -/
theorem agrees_of_inVain (hv : c.opened options catalog = .ok v) {as : List Action} {a : Action}
    {t : TaskId} (h : (System.start v c).InVain (as ++ [a]) t) (ha : a.actor? = some t) :
    let s := (System.start v c).run as
    s.Agrees (s.step a) ∧ (s.SameMark (s.step a) ∨
      ∃ id, .spawn t (.commit id) ∈ as ∧ s.Raised (s.step a) id) := by
  intro s
  have hopens := opens_of_opened hv
  cases hs : s.step? a with
  | none =>
    rw [System.step_of_step?_eq_none hs]
    exact ⟨.refl s, .inl ⟨rfl, rfl⟩⟩
  | some s' =>
    rw [System.step_of_step? hs]
    by_cases hspawn : a.task? = some t
    · obtain ⟨task, ht⟩ := System.exists_task_of_task? hs hspawn
      obtain ⟨op, hop, hpursues⟩ := System.exists_pursued (fun _ => by simp [System.start]) as ht
      have hone : op.target?.isSome := h.single op (List.mem_append_left _ hop)
      have hsingle : task.isSingle = true := by
        refine hpursues.isSingle hone ?_
        rintro o rfl
        exact absurd (hs.symm.trans (System.step?_of_finished ht hspawn)) (by simp)
      have hend : ∀ n, s'.outcome? t ≠ some (.ok n) := by
        intro n
        rw [← System.step_of_step? hs, ← System.run_concat]
        exact h.outcome n
      obtain ⟨hagrees, hmark⟩ := System.agrees_of_step (hopens.sound_start_run as)
        (hopens.fitting_run as) (marked_run hv as) hs hspawn ht hsingle hend
      refine ⟨hagrees, hmark.imp_right ?_⟩
      rintro ⟨id, d, next, rfl, hraised⟩
      cases hpursues with
      | commit => exact ⟨id, hop, hraised⟩
      | sweep hnone => exact absurd hone (by simp [hnone])
    · cases a with
      | spawn u op =>
        cases System.stepped hs with
        | quiet hq => exact absurd hq (by simp [Action.isQuiet])
        | spawn => exact ⟨⟨.refl _, rfl, rfl, rfl⟩, .inl ⟨rfl, rfl⟩⟩
      | run | answer => exact absurd ha hspawn
      | _ => exact absurd ha (by simp [Action.actor?])

end Contents

end AccountVault
