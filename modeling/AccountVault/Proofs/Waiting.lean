import AccountVault.Proofs.Desk.Commit
import AccountVault.Proofs.System.Following

/-!
# Nobody waits for ever

A task waits where it is in the queue for a turn that another task holds (`System.Waits`).  Who holds
the turn at the mark never waits, and who holds the turn of an account waits for the turn at the mark at
most, so that behind every task that waits there is one that does not (`System.Waits.exists_free`).  Main
statement: `turns_never_lock_up`.
-/

namespace AccountVault

/-- The turn that a task has to hold before it goes on. -/
def Task.awaits? : Task → Option Turn
  | working _ id _ .entering => some (.account id)
  | working _ _ _ (.awaitingMark _) => some .mark
  | _ => none

namespace System

/-- A task has to hold a turn to go on, and does not hold it. -/
def Waits (s : System) (t : TaskId) (turn : Turn) : Prop :=
  ∃ task, s.tasks[t]? = some task ∧ task.awaits? = some turn ∧
    s.vault.turns.holder? turn ≠ some t

theorem waits_iff {s : System} {t : TaskId} {turn : Turn} : s.Waits t turn ↔
    s.tasks[t]?.bind Task.awaits? = some turn ∧ s.vault.turns.holder? turn ≠ some t := by
  rw [Option.bind_eq_some_iff]
  constructor
  · rintro ⟨task, ht, hawaits, hne⟩
    exact ⟨⟨task, ht, hawaits⟩, hne⟩
  · rintro ⟨⟨task, ht, hawaits⟩, hne⟩
    exact ⟨task, ht, hawaits, hne⟩

instance (s : System) (t : TaskId) (turn : Turn) : Decidable (s.Waits t turn) :=
  decidable_of_iff _ waits_iff.symm

/-- A task has not finished, and waits for no turn. -/
def Free (s : System) (t : TaskId) : Prop :=
  ∃ task, s.tasks[t]? = some task ∧ task.outcome? = none ∧ ∀ turn, ¬ s.Waits t turn

end System

namespace Task

variable {task : Task} {turn : Turn}

theorem queues_of_awaits? (h : task.awaits? = some turn) : task.queues turn = true := by
  cases task with
  | working goal id work p =>
    cases p with
    | entering | awaitingMark =>
      cases h
      simp [queues, place?]
    | raisingMark | saving | removing => exact absurd h (by simp [awaits?])
  | _ => exact absurd h (by simp [awaits?])

/-- A task in a queue is at work on an account. -/
theorem exists_of_queues (h : task.queues turn = true) :
    ∃ goal id work p, task = working goal id work p := by
  cases task with
  | working goal id work p => exact ⟨goal, id, work, p, rfl⟩
  | _ => exact absurd h (by rw [queues_of_place?_eq_none rfl]; simp)

theorem outcome?_of_queues (h : task.queues turn = true) : task.outcome? = none := by
  obtain ⟨goal, id, work, p, rfl⟩ := exists_of_queues h
  rfl

/-- The order of the turns: a task in the queue at the mark has no other turn to wait for. -/
theorem eq_mark_of_queues {turn' : Turn} (h : task.queues .mark = true)
    (hturn : task.awaits? = some turn') : turn' = .mark := by
  obtain ⟨goal, id, work, p, rfl⟩ := exists_of_queues h
  cases p with
  | awaitingMark => exact (Option.some.inj hturn).symm
  | entering => exact absurd h (by simp [queues, place?])
  | raisingMark | saving | removing => exact absurd hturn (by simp [awaits?])

/-- A task in the queue for an account waits for that, or for the mark. -/
theorem eq_or_eq_mark_of_queues {id : AccountId} {turn' : Turn} (h : task.queues (.account id) = true)
    (hturn : task.awaits? = some turn') : turn' = .account id ∨ turn' = .mark := by
  obtain ⟨goal, id', work, p, rfl⟩ := exists_of_queues h
  cases p with
  | entering =>
    refine .inl ?_
    have hid : id' = id := by simpa [queues, place?] using h
    rw [← hid]
    exact (Option.some.inj hturn).symm
  | awaitingMark => exact .inr (Option.some.inj hturn).symm
  | raisingMark | saving | removing => exact absurd hturn (by simp [awaits?])

end Task

namespace System

variable {s : System} {t : TaskId} {task : Task} {turn : Turn} {id : AccountId}

/-! ### Whom a task waits for -/

/-- A turn that is waited for is held, by another task that stands in the queue for it. -/
theorem Waits.exists_holder (h : s.Waits t turn) (hline : s.InLine) :
    ∃ t' task', t' ≠ t ∧ s.vault.turns.holder? turn = some t' ∧ s.tasks[t']? = some task' ∧
      task'.queues turn = true := by
  obtain ⟨task, ht, hawaits, hne⟩ := h
  have hmem : t ∈ s.vault.turns.queue turn :=
    ((hline turn).2 t).2 ⟨task, ht, Task.queues_of_awaits? hawaits⟩
  obtain ⟨t', rest, hqueue⟩ := List.exists_cons_of_ne_nil (List.ne_nil_of_mem hmem)
  have hholder : s.vault.turns.holder? turn = some t' := by
    rw [Turns.holder?, hqueue]
    rfl
  have hmem' : t' ∈ s.vault.turns.queue turn := by
    rw [hqueue]
    exact List.mem_cons_self
  obtain ⟨task', ht', hqueues⟩ := ((hline turn).2 t').1 hmem'
  refine ⟨t', task', ?_, hholder, ht', hqueues⟩
  rintro rfl
  exact hne hholder

/-- The turn at the mark is held by a task that waits for nothing. -/
theorem Waits.free_of_mark (h : s.Waits t .mark) (hline : s.InLine) :
    ∃ t', t' ≠ t ∧ s.vault.turns.holder? .mark = some t' ∧ s.Free t' := by
  obtain ⟨t', task', hne, hholder, ht', hqueues⟩ := h.exists_holder hline
  refine ⟨t', hne, hholder, task', ht', Task.outcome?_of_queues hqueues, ?_⟩
  rintro turn ⟨task'', ht'', hawaits, hother⟩
  obtain rfl := Option.some.inj (ht'.symm.trans ht'')
  obtain rfl := Task.eq_mark_of_queues hqueues hawaits
  exact hother hholder

/-- The turn of an account is held by a task that waits for nothing but the turn at the mark. -/
theorem Waits.free_or_waits_of_account (h : s.Waits t (.account id)) (hline : s.InLine) :
    ∃ t', t' ≠ t ∧ s.vault.turns.holder? (.account id) = some t' ∧ (s.Free t' ∨ s.Waits t' .mark) := by
  obtain ⟨t', task', hne, hholder, ht', hqueues⟩ := h.exists_holder hline
  refine ⟨t', hne, hholder, ?_⟩
  by_cases hmark : s.Waits t' .mark
  · exact .inr hmark
  · refine .inl ⟨task', ht', Task.outcome?_of_queues hqueues, ?_⟩
    rintro turn ⟨task'', ht'', hawaits, hother⟩
    obtain rfl := Option.some.inj (ht'.symm.trans ht'')
    rcases Task.eq_or_eq_mark_of_queues hqueues hawaits with rfl | rfl
    · exact hother hholder
    · exact hmark ⟨task', ht', hawaits, hother⟩

/-- Behind every task that waits there is one that does not. -/
theorem Waits.exists_free (h : s.Waits t turn) (hline : s.InLine) : ∃ t', s.Free t' := by
  cases turn with
  | mark =>
    obtain ⟨t', -, -, hfree⟩ := h.free_of_mark hline
    exact ⟨t', hfree⟩
  | account id =>
    obtain ⟨t', -, -, hfree | hmark⟩ := h.free_or_waits_of_account hline
    · exact ⟨t', hfree⟩
    · obtain ⟨t'', -, -, hfree⟩ := hmark.free_of_mark hline
      exact ⟨t'', hfree⟩

/-! ### Who goes on -/

/-- A task that waits for no turn can take a step, or has a request to be answered, or waits for notices
to be handed out, unless it has finished. -/
theorem Free.goes_on (h : s.Free t) :
    (∃ s', s.step? (.run t) = some s') ∨ (∃ request, s.call? t = some request) ∨
      (∃ o, s.tasks[t]? = some (.draining o)) ∧ s.vault.board.queue ≠ [] := by
  obtain ⟨task, ht, hlive, hfree⟩ := h
  have hholds : ∀ turn, task.awaits? = some turn → s.vault.turns.holder? turn = some t := by
    intro turn hawaits
    by_contra hne
    exact hfree turn ⟨task, ht, hawaits, hne⟩
  have hrun : ∀ p, task.step s.isCancelled s.vault t = some p → ∃ s', s.step? (.run t) = some s' :=
    fun p hp => ⟨_, step?_run ht hp⟩
  cases task with
  | starting op => exact .inl (hrun _ rfl)
  | sweeping sweep => exact .inl (hrun _ rfl)
  | finished o => exact absurd hlive (by simp [Task.outcome?])
  | draining o =>
    by_cases hboard : s.vault.board.queue = []
    · exact .inl (hrun _ (by rw [Task.step, if_pos hboard]))
    · exact .inr (.inr ⟨⟨o, ht⟩, hboard⟩)
  | working goal id work p =>
    cases p with
    | entering =>
      have hturn := hholds (.account id) rfl
      exact .inl (hrun _ (by rw [Task.step, if_pos hturn]))
    | awaitingMark d =>
      have hturn := hholds .mark rfl
      obtain ⟨p, hp⟩ : ∃ p, Task.step s.isCancelled s.vault t
          (.working goal id work (.awaitingMark d)) = some p := by
        rw [Task.step, if_pos hturn]
        split <;> exact ⟨_, rfl⟩
      exact .inl (hrun p hp)
    | raisingMark | saving | removing => exact .inr (.inl ⟨_, call?_of_task ht⟩)

/-! ### Who is done -/

/-- A task that is at work on no account stands in no queue. -/
theorem InLine.not_mem_queue (hline : s.InLine) (ht : s.tasks[t]? = some task)
    (hplace : task.place? = none) (turn : Turn) : t ∉ s.vault.turns.queue turn := by
  intro hmem
  obtain ⟨task', ht', hqueues⟩ := ((hline turn).2 t).1 hmem
  obtain rfl := Option.some.inj (ht.symm.trans ht')
  rw [Task.queues_of_place?_eq_none hplace] at hqueues
  exact absurd hqueues (by simp)

theorem exists_finished_of_outcome? {o : Outcome} (h : s.outcome? t = some o) :
    s.tasks[t]? = some (.finished o) := by
  obtain ⟨task, ht, ho⟩ := Option.bind_eq_some_iff.1 h
  cases task with
  | finished o' =>
    cases ho
    exact ht
  | _ => exact absurd ho (by simp [Task.outcome?])

end System

/-- In every state that a vault can come to, whatever tasks run on it and however their requests end: a
turn that a task waits for is held by another one, which at the mark waits for nothing and at an account
waits for the turn at the mark at most.  So where some task has not finished, some such task waits for no
turn, and every such task goes on, by a step, by the answer to its request or when the notices have been
handed out.  A task that has finished, in whatever way, holds no turn and stands in no queue for one. -/
theorem turns_never_lock_up {c : Contents} {options : Options} {catalog : Catalog} {v : Vault}
    (hv : c.opened options catalog = .ok v) (as : List Action) :
    let s := (System.start v c).run as
    (∀ t, s.Waits t .mark → ∃ t', t' ≠ t ∧ s.vault.turns.holder? .mark = some t' ∧ s.Free t') ∧
    (∀ t id, s.Waits t (.account id) → ∃ t', t' ≠ t ∧
      s.vault.turns.holder? (.account id) = some t' ∧ (s.Free t' ∨ s.Waits t' .mark)) ∧
    (∀ (t : TaskId) task, s.tasks[t]? = some task → task.outcome? = none → ∃ t', s.Free t') ∧
    (∀ t, s.Free t → (∃ s', s.step? (.run t) = some s') ∨
      (∃ request, s.call? t = some request ∧ ∀ fault, ∃ s', s.step? (.answer t fault) = some s') ∨
      (∃ o, s.tasks[t]? = some (.draining o)) ∧ s.vault.board.queue ≠ []) ∧
    ∀ t o, s.outcome? t = some o → ∀ turn,
      s.vault.turns.holder? turn ≠ some t ∧ t ∉ s.vault.turns.queue turn := by
  intro s
  have hline : s.InLine := ((Contents.opens_of_opened hv).sound_start_run as).inLine
  refine ⟨fun t hwaits => hwaits.free_of_mark hline,
    fun t id hwaits => hwaits.free_or_waits_of_account hline, fun t task ht hlive => ?_,
    fun t hfree => ?_, fun t o ho turn => ?_⟩
  · by_cases hfree : s.Free t
    · exact ⟨t, hfree⟩
    · obtain ⟨turn, hwaits⟩ : ∃ turn, s.Waits t turn := by
        by_contra hnone
        exact hfree ⟨task, ht, hlive, fun turn hwaits => hnone ⟨turn, hwaits⟩⟩
      exact hwaits.exists_free hline
  · rcases hfree.goes_on with hstep | ⟨request, hcall⟩ | hdraining
    · exact .inl hstep
    · exact .inr (.inl ⟨request, hcall, System.exists_step?_answer hcall⟩)
    · exact .inr (.inr hdraining)
  · have hnot : t ∉ s.vault.turns.queue turn :=
      hline.not_mem_queue (System.exists_finished_of_outcome? ho) rfl turn
    refine ⟨fun hholder => hnot ?_, hnot⟩
    obtain ⟨rest, hqueue⟩ := List.head?_eq_some_iff.1 hholder
    rw [hqueue]
    exact List.mem_cons_self

/-- Two first commits and a deletion: the first commit holds the turn at the mark, the second one waits
for it, and the deletion waits behind the second.  When the mark cannot be written, the first commit is
over and holds nothing, and the second one goes on. -/
theorem turns_never_lock_up_of_race :
    let as : List Action := [.create "acme", .create "acme", .spawn 0 (.commit 1), .spawn 1 (.commit 2),
      .spawn 2 (.delete 2), .run 0, .run 0, .run 0, .run 1, .run 1, .run 2]
    let s := (System.start {} ∅).run as
    let failed := (System.start {} ∅).run (as ++ [.answer 0 (some (.refused .saveMark))])
    s.Waits 2 (.account 2) ∧ s.Waits 1 .mark ∧ s.vault.turns.holder? (.account 2) = some 1 ∧
      s.vault.turns.holder? .mark = some 0 ∧ s.Free 0 ∧
      (∃ o, failed.outcome? 0 = some o) ∧
      (∀ turn, failed.vault.turns.holder? turn ≠ some 0) ∧
      failed.vault.turns.holder? .mark = some 1 ∧ failed.Free 1 := by
  intro as s failed
  have hv : (∅ : Contents).opened {} {} = .ok {} := Contents.opened_empty {} {} rfl
  have hdeletion : s.Waits 2 (.account 2) := by decide +kernel
  have hcommit : s.Waits 1 .mark := by decide +kernel
  obtain ⟨hmark, -⟩ := turns_never_lock_up hv as
  obtain ⟨t, -, hholder, hfree⟩ := hmark 1 hcommit
  have hfirst : s.vault.turns.holder? .mark = some 0 := by decide +kernel
  obtain rfl : t = 0 := Option.some.inj (hholder.symm.trans hfirst)
  -- after the failure the second commit holds both turns that it needs
  obtain ⟨-, haccount, -, -, hdone⟩ :=
    turns_never_lock_up hv (as ++ [.answer 0 (some (.refused .saveMark))])
  have houtcome : failed.outcome? 0 = some (.error (.persistence (.fault (.refused .saveMark)))) := by
    decide +kernel
  have hbehind : failed.Waits 2 (.account 2) := by decide +kernel
  have hsecond : failed.vault.turns.holder? (.account 2) = some 1 := by decide +kernel
  have hgoes : ¬ failed.Waits 1 .mark := by decide +kernel
  obtain ⟨t, -, hholder', hfree' | hwaits⟩ := haccount 2 2 hbehind
  all_goals obtain rfl : t = 1 := Option.some.inj (hholder'.symm.trans hsecond)
  · exact ⟨hdeletion, hcommit, by decide +kernel, hfirst, hfree, ⟨_, houtcome⟩,
      fun turn => (hdone 0 _ houtcome turn).1, by decide +kernel, hfree'⟩
  · exact absurd hwaits hgoes

end AccountVault
