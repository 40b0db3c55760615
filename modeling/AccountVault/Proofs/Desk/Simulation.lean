import AccountVault.Proofs.Desk.Basic

/-!
# Systems as seen from a desk

Main statement: `System.desk_step`, by which whatever a system does is a step of the desk of each
account.  It needs that turns are held, that ids are fresh, and that every draft is of the account that
is worked on (`System.Orderly`).
-/

namespace AccountVault

theorem Draft.account_notice (d : Draft) : d.notice.account = d.record.id := by
  unfold Draft.notice
  split <;> rfl

theorem Draft.kind_notice (d : Draft) :
    d.notice.kind = if d.isNew then .created else .updated := by
  unfold Draft.notice
  split <;> rfl

theorem Draft.kind_notice_ne (d : Draft) : d.notice.kind ≠ .deleted := by
  rw [kind_notice]
  split <;> simp

namespace Task

/-- What a task is about to write is of the account that it works on. -/
def Addressed (task : Task) : Prop :=
  ∀ id p d, task.place? = some (id, p) → p.draft? = some d → d.record.id = id

theorem addressed_of_place?_eq_none {task : Task} (h : task.place? = none) : task.Addressed :=
  fun _ _ _ hp => absurd hp (by simp [h])

theorem addressed_working {goal : Goal} {id : AccountId} {work : Work} {p : Point}
    (h : ∀ d, p.draft? = some d → d.record.id = id) : (working goal id work p).Addressed := by
  intro i q d hq hd
  cases hq
  exact h d hd

theorem Stepped.addressed {v : Vault} {self : TaskId} {task : Task} {p : Progress}
    (h : Stepped v self task p) (ha : task.Addressed) : p.task.Addressed := by
  cases h with
  | pass _ h' => exact addressed_of_place?_eq_none h'
  | shut => exact addressed_of_place?_eq_none rfl
  | enqueue => exact addressed_working (by simp [Point.draft?])
  | enter goal _ h =>
    cases h with
    | refused | clean | discard => exact addressed_of_place?_eq_none (place?_conclude ..)
    | firstDraft | draft => exact addressed_working fun d hd => by cases hd; rfl
    | removal => exact addressed_working (by simp [Point.draft?])
  | raise | skip => exact addressed_working fun d hd => ha _ _ d rfl hd

theorem Replied.addressed {v : Vault} {self : TaskId} {task : Task} {r : Except Fault Reply}
    {p : Progress} (h : Replied v self task r p) (ha : task.Addressed) : p.task.Addressed := by
  cases h with
  | markFailed | failed | saved | removed => exact addressed_of_place?_eq_none (place?_conclude ..)
  | marked => exact addressed_working fun d hd => ha _ _ d rfl hd

end Task

namespace System

/-- What the desks rely on. -/
structure Orderly (s : System) : Prop where
  inTurn : s.InTurn
  fresh : s.vault.Fresh
  addressed : ∀ (t : TaskId) (task : Task), s.tasks[t]? = some task → task.Addressed

theorem addressed_record {s : System} {t : TaskId} {p : Progress}
    (h : ∀ (t : TaskId) (task : Task), s.tasks[t]? = some task → task.Addressed)
    (hp : p.task.Addressed) (other : TaskId) (task : Task)
    (ht : (s.record t p).tasks[other]? = some task) : task.Addressed := by
  rw [getElem?_record] at ht
  split at ht
  · cases ht
    exact hp
  · exact h other task ht

theorem Orderly.step {s s' : System} {a : Action} (h : s.Orderly) (hs : s.step? a = some s') :
    s'.Orderly := by
  refine ⟨h.inTurn.step hs, fresh_step h.fresh hs, ?_⟩
  cases stepped hs with
  | quiet _ hsame => rw [hsame.tasks]; exact h.addressed
  | create | edit => exact h.addressed
  | spawn op _ =>
    exact addressed_record (p := ⟨s.vault, .starting op, []⟩) h.addressed
      (Task.addressed_of_place?_eq_none rfl)
  | run ht hp => exact addressed_record h.addressed ((Task.stepped hp).addressed (h.addressed _ _ ht))
  | fail e ht hr =>
    exact addressed_record h.addressed ((Task.replied hr s.vault _ _).addressed (h.addressed _ _ ht))
  | serve ht hr =>
    exact addressed_record h.addressed ((Task.replied hr s.vault _ _).addressed (h.addressed _ _ ht))

theorem Orderly.run {s : System} (h : s.Orderly) (as : List Action) : (s.run as).Orderly :=
  run_induction (fun _ _ _ h hs => h.step hs) h as

/-! ### Steps that pass a desk by -/

/-- What a step has to leave as it is for a desk not to notice. -/
theorem stepped_idle {s s' : System} {id : AccountId} {c : Chronicle}
    (ha : s'.vault.account? id = s.vault.account? id) (hf : s'.vault.finds id = s.vault.finds id)
    (hr : s'.contents.record? id = s.contents.record? id) (hact : s'.active id = s.active id)
    (ho : s'.vault.board.isOpen = true → s.vault.board.isOpen = true)
    (hn : (s'.desk id c).notices = (s.desk id c).notices)
    (hw : (s'.desk id c).writes = (s.desk id c).writes) :
    Desk.Stepped id (s.desk id c) (s'.desk id c) := by
  have h : s'.desk id c = { s.desk id c with isOpen := s'.vault.board.isOpen } :=
    Desk.ext ha hf hr hact rfl hn hw rfl
  rw [h]
  exact .idle _ ho

/-- A step of a task that is not at work on the account, and does nothing to it. -/
theorem stepped_idle_record {s : System} {t : TaskId} {task : Task} {p : Progress} {id : AccountId}
    {c : Chronicle} (h : s.InTurn) (h' : (s.record t p).InTurn) (ht : s.tasks[t]? = some task)
    (hp : task.at? id = none) (hp' : p.task.at? id = none)
    (ha : p.vault.account? id = s.vault.account? id) (hf : p.vault.finds id = s.vault.finds id)
    (hb : p.vault.board = s.vault.board ∨ p.vault.board = s.vault.board.close) :
    Desk.Stepped id (s.desk id c) ((s.record t p).desk id c) := by
  refine stepped_idle ha hf rfl ?_ ?_ ?_ rfl
  · exact active_congr h h' (tasks_record_of_ne p) (by rw [ht]; exact hp)
      (by rw [tasks_record_self]; exact hp')
  · rcases hb with hb | hb
    · exact fun ho => hb ▸ ho
    · exact fun ho => absurd ho (by rw [show (s.record t p).vault.board = _ from hb]; simp [Board.close])
  · rcases hb with hb | hb <;>
      simp only [desk, published, show (s.record t p).vault.board = _ from hb] <;> rfl

/-! ### What the chronicle takes down -/

theorem note_run_eq_self {s : System} {t : TaskId} {task : Task} (id : AccountId) (c : Chronicle)
    (ht : s.tasks[t]? = some task) (h : ∀ goal i, task ≠ .working goal i .commit .entering) :
    c.note id s (.run t) = c := by
  simp only [Chronicle.note, ht]
  split
  · rename_i heq
    exact absurd (Option.some.inj heq) (h _ _)
  · rfl

theorem note_run_of_ne {s : System} {t : TaskId} {goal : Goal} {i id : AccountId} {work : Work}
    {p : Point} (c : Chronicle) (ht : s.tasks[t]? = some (.working goal i work p)) (hi : i ≠ id) :
    c.note id s (.run t) = c := by
  simp only [Chronicle.note, ht]
  split
  · rename_i heq
    cases heq
    split
    · rw [if_neg hi]
    · rfl
  · rfl

theorem note_run_commit {s : System} {t : TaskId} {goal : Goal} {id : AccountId} (c : Chronicle)
    {a : Account} (ht : s.tasks[t]? = some (.working goal id .commit .entering))
    (ha : s.vault.account? id = some a) : c.note id s (.run t) = c.draw t a := by
  simp only [Chronicle.note, ht, ha, if_true]

/-! ### Steps of tasks -/

variable {s : System} {t : TaskId} {task : Task} {p : Progress}

theorem account?_of_entered {v v' : Vault} {i id : AccountId} {work : Work} {stage : Stage}
    (h : v.Entered i work v' stage) (hi : i ≠ id) : v'.account? id = v.account? id := by
  cases h with
  | discard => rw [Vault.account?_putAccount, if_neg hi]
  | _ => rfl

/-- The task that enters the work on an account finds the desk free. -/
theorem desk_enter (h : s.Orderly) {goal : Goal} {id : AccountId} {work : Work} {v : Vault}
    {stage : Stage} (ht : s.tasks[t]? = some (.working goal id work .entering))
    (hold : s.vault.turns.holder? (.account id) = some t) (hv : s.vault.Entered id work v stage)
    (h' : (s.record t (Task.proceed v t goal id work stage)).Orderly) (c : Chronicle) :
    Desk.Stepped id (s.desk id c)
      ((s.record t (Task.proceed v t goal id work stage)).desk id (c.note id s (.run t))) := by
  have hat : s.tasks[t]?.bind (·.at? id) = none := by rw [ht, Option.bind_some, Task.at?_entering]
  have hfree : s.active id = none := active_eq_none_of_hold hold hat
  -- a task that is done leaves the desk free
  have hdone : ∀ r, stage = .done r →
      (s.record t (Task.proceed v t goal id work stage)).active id = s.active id := by
    rintro r rfl
    refine active_congr h.inTurn h'.inTurn (tasks_record_of_ne _) hat ?_
    rw [tasks_record_self]
    exact Task.at?_of_place?_eq_none (Task.place?_conclude ..) id
  cases hv with
  | refused work e =>
    have hdesk : ∀ c', (s.record t (Task.proceed s.vault t goal id work (.done (.error e)))).desk id
        c' = { s.desk id c with chronicle := c' } := fun c' =>
      Desk.ext rfl rfl rfl (hdone _ rfl) rfl rfl rfl rfl
    rw [hdesk]
    cases work with
    | delete =>
      rw [note_run_eq_self id c ht (by simp)]
      exact .idle _ fun ho => ho
    | commit =>
      cases ha : s.vault.account? id with
      | none =>
        have hn : c.note id s (.run t) = c := by simp only [Chronicle.note, ht, ha]
        rw [hn]
        exact .idle _ fun ho => ho
      | some a =>
        rw [note_run_commit c ht ha]
        exact .look t hfree ha
  | clean ha =>
    have hdesk : ∀ c', (s.record t (Task.proceed s.vault t goal id .commit (.done (.ok ())))).desk id
        c' = { s.desk id c with chronicle := c' } := fun c' =>
      Desk.ext rfl rfl rfl (hdone _ rfl) rfl rfl rfl rfl
    rw [hdesk, note_run_commit c ht ha]
    exact .look t hfree ha
  | @firstDraft a ha hs =>
    have hact := active_working h'.inTurn rfl (by simp)
    have hdesk : ∀ c', (s.record t (Task.proceed s.vault t goal id .commit
        (.paused (.awaitingMark (.ofAccount id a))))).desk id c' = { s.desk id c with
          active := some (t, .awaitingMark (.ofAccount id a)), chronicle := c' } := fun c' =>
      Desk.ext rfl rfl rfl hact rfl rfl rfl rfl
    rw [hdesk, note_run_commit c ht ha]
    exact .draft t hfree ha (.inl hs) rfl
  | @draft a ha hs =>
    have hact := active_working h'.inTurn rfl (by simp)
    have hdesk : ∀ c', (s.record t (Task.proceed s.vault t goal id .commit
        (.paused (.saving (.ofAccount id a))))).desk id c' = { s.desk id c with
          active := some (t, .saving (.ofAccount id a)), chronicle := c' } := fun c' =>
      Desk.ext rfl rfl rfl hact rfl rfl rfl rfl
    rw [hdesk, note_run_commit c ht ha]
    exact .draft t hfree ha (.inr hs) rfl
  | removal ha hs =>
    have hact := active_working h'.inTurn rfl (by simp)
    have hdesk : ∀ c', (s.record t (Task.proceed s.vault t goal id .delete
        (.paused .removing))).desk id c' = { s.desk id c with
          active := some (t, .removing), chronicle := c' } := fun c' =>
      Desk.ext rfl rfl rfl hact rfl rfl rfl rfl
    rw [hdesk, note_run_eq_self id c ht (by simp)]
    exact .beginRemoval t hfree ha hs
  | @discard a ha hs =>
    have hdesk : ∀ c', (s.record t (Task.proceed (s.vault.putAccount id { a with state := .deleted })
        t goal id .delete (.done (.ok ())))).desk id c' = { s.desk id c with
          account := some { a with state := .deleted }, chronicle := c' } := fun c' =>
      Desk.ext ((Vault.account?_putAccount ..).trans (if_pos rfl)) rfl rfl (hdone _ rfl) rfl rfl rfl
        rfl
    rw [hdesk, note_run_eq_self id c ht (by simp)]
    exact .discard hfree ha hs

theorem desk_run (h : s.Orderly) (h' : (s.record t p).Orderly) (ht : s.tasks[t]? = some task)
    (hp : Task.Stepped s.vault t task p) (id : AccountId) (c : Chronicle) :
    Desk.Stepped id (s.desk id c) ((s.record t p).desk id (c.note id s (.run t))) := by
  have hplace : task.place? = none → c.note id s (.run t) = c ∧ task.at? id = none := fun hn =>
    ⟨note_run_eq_self id c ht (by rintro goal i rfl; exact absurd hn (by simp [Task.place?])),
      Task.at?_of_place?_eq_none hn id⟩
  cases hp with
  | pass hn hn' =>
    rw [(hplace hn).1]
    exact stepped_idle_record h.inTurn h'.inTurn ht (hplace hn).2
      (Task.at?_of_place?_eq_none hn' id) rfl rfl (.inl rfl)
  | shut o hn =>
    rw [(hplace hn).1]
    exact stepped_idle_record h.inTurn h'.inTurn ht (hplace hn).2
      (Task.at?_of_place?_eq_none rfl id) rfl rfl (.inr rfl)
  | enqueue goal i work hn =>
    rw [(hplace hn).1]
    exact stepped_idle_record h.inTurn h'.inTurn ht (hplace hn).2 (Task.at?_entering ..) rfl rfl
      (.inl rfl)
  | @enter v stage goal i work hold hv =>
    by_cases hi : i = id
    · subst i
      exact desk_enter h ht hold hv h' c
    · rw [note_run_of_ne c ht hi]
      have ha := account?_of_entered hv hi
      refine stepped_idle_record h.inTurn h'.inTurn ht (Task.at?_entering ..) ?_ ?_ ?_ ?_ <;> cases hv
      all_goals first
        | exact Task.at?_of_place?_eq_none (Task.place?_conclude ..) id
        | exact Task.at?_working_of_ne hi
        | exact ha
        | exact .inl rfl
        | rfl
  | raise goal i work f hold hlt =>
    by_cases hi : i = id
    · subst i
      rw [note_run_eq_self id c ht (by simp)]
      have hact := h.inTurn.active_eq_some_iff.2
        (by rw [ht, Option.bind_some, Task.at?_working (by simp)])
      have hdesk : (s.record t ⟨s.vault, .working goal id work (.raisingMark f s.vault.nextId),
          []⟩).desk id c = { s.desk id c with active := some (t, .raisingMark f s.vault.nextId) } :=
        Desk.ext rfl rfl rfl (active_working h'.inTurn rfl (by simp)) rfl rfl rfl rfl
      rw [hdesk]
      exact .advance hact rfl rfl
    · rw [note_run_of_ne c ht hi]
      exact stepped_idle_record h.inTurn h'.inTurn ht (Task.at?_working_of_ne hi)
        (Task.at?_working_of_ne hi) rfl rfl (.inl rfl)
  | skip goal i work f hold hlt =>
    by_cases hi : i = id
    · subst i
      rw [note_run_eq_self id c ht (by simp)]
      have hact := h.inTurn.active_eq_some_iff.2
        (by rw [ht, Option.bind_some, Task.at?_working (by simp)])
      have hdesk : (s.record t ⟨(Task.release s.vault .mark).1, .working goal id work (.saving f),
          (Task.release s.vault .mark).2⟩).desk id c =
          { s.desk id c with active := some (t, .saving f) } :=
        Desk.ext rfl rfl rfl (active_working h'.inTurn rfl (by simp)) rfl rfl rfl rfl
      rw [hdesk]
      exact .advance hact rfl rfl
    · rw [note_run_of_ne c ht hi]
      exact stepped_idle_record h.inTurn h'.inTurn ht (Task.at?_working_of_ne hi)
        (Task.at?_working_of_ne hi) rfl rfl (.inl rfl)

/-- A request that fails only ends the work that made it. -/
theorem desk_fail (h : s.Orderly) (h' : (s.record t p).Orderly) (ht : s.tasks[t]? = some task)
    {e : Fault} (hp : Task.Replied s.vault t task (.error e) p) (id : AccountId) (c : Chronicle) :
    Desk.Stepped id (s.desk id c) ((s.record t p).desk id c) := by
  have hend : ∀ {goal i work q}, task = .working goal i work q → q ≠ .entering →
      p.task.place? = none → p.vault.account? id = s.vault.account? id →
      p.vault.finds id = s.vault.finds id → p.vault.board = s.vault.board →
      Desk.Stepped id (s.desk id c) ((s.record t p).desk id c) := by
    rintro goal i work q rfl hq hplace ha hf hb
    by_cases hi : i = id
    · subst i
      have hat : s.tasks[t]?.bind (·.at? id) = some q := by
        rw [ht, Option.bind_some, Task.at?_working hq]
      have hat' : (s.record t p).tasks[t]?.bind (·.at? id) = none := by
        rw [tasks_record_self, Option.bind_some, Task.at?_of_place?_eq_none hplace]
      have hdesk : (s.record t p).desk id c = { s.desk id c with active := none } :=
        Desk.ext ha hf rfl (active_eq_none h.inTurn h'.inTurn (tasks_record_of_ne p) hat hat')
          (congrArg Board.isOpen hb)
          (by simp only [desk, published, show (s.record t p).vault.board = _ from hb]; rfl) rfl rfl
      rw [hdesk]
      exact .fail (h.inTurn.active_eq_some_iff.2 hat)
    · exact stepped_idle_record h.inTurn h'.inTurn ht (Task.at?_working_of_ne hi)
        (Task.at?_of_place?_eq_none hplace id) ha hf (.inl hb)
  cases hp with
  | markFailed => exact hend rfl (by simp) (Task.place?_conclude ..) rfl rfl rfl
  | failed _ _ _ _ _ _ hq => exact hend rfl hq (Task.place?_conclude ..) rfl rfl rfl

/-! ### Requests that go well -/

/-- The system after a request of a task that went well. -/
def serve (s : System) (t : TaskId) (p : Progress) (r : Request) : System :=
  { s.record t p with contents := (s.contents.serve r).1, served := s.served ++ [r] }

theorem note_answer {s : System} {t : TaskId} {task : Task} {r : Request} (id : AccountId)
    (c : Chronicle) (ht : s.tasks[t]? = some task) (hr : task.request? = some r) :
    c.note id s (.answer t none) = match r with
      | .save i _ => if i = id then c.save t else c
      | .remove i => if i = id then c.remove else c
      | _ => c := by
  simp only [Chronicle.note, ht, Option.bind_some, hr]
  cases r <;> rfl

theorem isOpen_publish (b : Board) (n : Notice) : (b.publish n).isOpen = b.isOpen := by
  unfold Board.publish
  split <;> rfl

/-- A notice is seen at the desk of its account only. -/
theorem notices_publish (s s' : System) {n : Notice} (hh : s'.handed = s.handed)
    (hb : s'.vault.board = s.vault.board.publish n) (id : AccountId) (c c' : Chronicle) :
    (s'.desk id c').notices =
      if n.account = id then (s.desk id c).tell n else (s.desk id c).notices := by
  have hp : s'.published = s.published ++ if s.vault.board.isOpen then [n] else [] := by
    rw [published, published, hh, hb, Board.queue_publish]
    split <;> simp
  simp only [desk, Desk.tell, hp, List.filter_append]
  by_cases hn : n.account = id <;> by_cases ho : s.vault.board.isOpen = true <;> simp [hn, ho]

theorem writes_serve {s : System} {t : TaskId} {p : Progress} {r : Request} (id : AccountId)
    (c c' : Chronicle) : ((s.serve t p r).desk id c').writes =
      (s.desk id c).writes ++ if r.target? = some id then [r] else [] := by
  simp only [desk, serve, List.filter_append]
  by_cases hr : r.target? = some id <;> simp [hr]

theorem desk_serve {r : Request} (h : s.Orderly) (h' : (s.serve t p r).Orderly)
    (ht : s.tasks[t]? = some task) (hr : task.request? = some r) {reply : Reply}
    (hp : Task.Replied s.vault t task (.ok reply) p) (id : AccountId) (c : Chronicle) :
    Desk.Stepped id (s.desk id c) ((s.serve t p r).desk id (c.note id s (.answer t none))) := by
  rw [note_answer id c ht hr]
  have htasks : ∀ other, t ≠ other → (s.serve t p r).tasks[other]? = s.tasks[other]? :=
    tasks_record_of_ne p
  -- whoever was at work on the account, and is done with it, has left the desk
  have hleft : ∀ {q}, task.at? id = some q → p.task.place? = none →
      s.active id = some (t, q) ∧ (s.serve t p r).active id = none := by
    intro q hat hplace
    have hat' : s.tasks[t]?.bind (·.at? id) = some q := by rw [ht, Option.bind_some, hat]
    refine ⟨h.inTurn.active_eq_some_iff.2 hat', active_eq_none h.inTurn h'.inTurn htasks hat' ?_⟩
    show (s.record t p).tasks[t]?.bind (·.at? id) = none
    rw [tasks_record_self, Option.bind_some, Task.at?_of_place?_eq_none hplace]
  have hother : task.at? id = none → p.task.at? id = none →
      (s.serve t p r).active id = s.active id := by
    intro hat hat'
    refine active_congr h.inTurn h'.inTurn htasks (by rw [ht, Option.bind_some, hat]) ?_
    show (s.record t p).tasks[t]?.bind (·.at? id) = none
    rw [tasks_record_self, Option.bind_some, hat']
  cases hp with
  | marked goal i work f next _ woken =>
    cases hr
    by_cases hi : i = id
    · subst i
      have hact := h.inTurn.active_eq_some_iff.2
        (by rw [ht, Option.bind_some, Task.at?_working (by simp)])
      have hact' := h'.inTurn.active_eq_some_iff.2 (show
        (s.record t _).tasks[t]?.bind (·.at? id) = some (.saving f) by
          rw [tasks_record_self, Option.bind_some, Task.at?_working (by simp)])
      have hdesk : (s.serve t _ (.saveMark next)).desk id c =
          { s.desk id c with active := some (t, .saving f) } :=
        Desk.ext rfl rfl rfl hact' rfl rfl ((writes_serve id c c).trans (by simp [Request.target?])) rfl
      rw [hdesk]
      exact .advance hact rfl rfl
    · exact stepped_idle rfl rfl rfl
        (hother (Task.at?_working_of_ne hi) (Task.at?_working_of_ne hi)) (fun ho => ho) rfl
        ((writes_serve id c c).trans (by simp [Request.target?]))
  | saved goal i work f _ woken =>
    cases hr
    have hboard : (s.serve t ⟨(Task.release (s.vault.recordSaved i f) (.account i)).1,
        Task.conclude goal (.ok ()), woken⟩ (.save i f.record.encode)).vault.board =
          s.vault.board.publish f.notice := Vault.board_recordSaved ..
    have hnotices := notices_publish s _ (by rfl) hboard id c
    by_cases hi : i = id
    · subst i
      obtain ⟨hact, hact'⟩ := hleft (Task.at?_working (by simp)) (Task.place?_conclude ..)
      have hdesk : (s.serve t ⟨(Task.release (s.vault.recordSaved id f) (.account id)).1,
          Task.conclude goal (.ok ()), woken⟩ (.save id f.record.encode)).desk id (c.save t) =
          { s.desk id c with
            account := (s.desk id c).account.map (·.markSaved f.revision)
            found := (s.desk id c).found || f.isNew
            stored := some f.record.encode
            active := none
            notices := (s.desk id c).tell f.notice
            writes := (s.desk id c).writes ++ [.save id f.record.encode]
            chronicle := c.save t } := by
        refine Desk.ext ?_ ?_ ?_ hact' ?_ ?_ ?_ rfl
        · exact (Vault.account?_recordSaved ..).trans (if_pos rfl)
        · exact (Vault.finds_recordSaved ..).trans (by simp [desk])
        · exact (Contents.record?_serve_save ..).trans (if_pos rfl)
        · exact (congrArg Board.isOpen hboard).trans (isOpen_publish ..)
        · exact (hnotices _).trans (if_pos ((Draft.account_notice f).trans
            (h.addressed t _ ht id _ f rfl rfl)))
        · exact (writes_serve id c _).trans (by simp [Request.target?])
      simp only [if_true]
      rw [hdesk]
      exact .save hact
    · have hf : f.notice.account = i :=
        (Draft.account_notice f).trans (h.addressed t _ ht i _ f rfl rfl)
      simp only [hi, if_false]
      refine stepped_idle ?_ ?_ ?_ (hother (Task.at?_working_of_ne hi)
        (Task.at?_of_place?_eq_none (Task.place?_conclude ..) id)) ?_ ?_ ?_
      · exact (Vault.account?_recordSaved ..).trans (if_neg hi)
      · exact (Vault.finds_recordSaved ..).trans (by simp [hi])
      · exact (Contents.record?_serve_save ..).trans (if_neg hi)
      · rw [hboard, isOpen_publish]
        exact fun ho => ho
      · exact (hnotices _).trans (if_neg (hf ▸ hi))
      · exact (writes_serve id c _).trans (by simp [Request.target?, hi])
  | removed goal i work _ woken =>
    cases hr
    have hboard : (s.serve t ⟨(Task.release (s.vault.recordRemoved i) (.account i)).1,
        Task.conclude goal (.ok ()), woken⟩ (.remove i)).vault.board =
          s.vault.board.publish (.deleted i) := Vault.board_recordRemoved ..
    have hnotices := notices_publish s _ (by rfl) hboard id c
    by_cases hi : i = id
    · subst i
      obtain ⟨hact, hact'⟩ := hleft (Task.at?_working (by simp)) (Task.place?_conclude ..)
      have hdesk : (s.serve t ⟨(Task.release (s.vault.recordRemoved id) (.account id)).1,
          Task.conclude goal (.ok ()), woken⟩ (.remove id)).desk id c.remove =
          { s.desk id c with
            account := (s.desk id c).account.map fun a => { a with state := .deleted }
            found := false
            stored := none
            active := none
            notices := (s.desk id c).tell (.deleted id)
            writes := (s.desk id c).writes ++ [.remove id]
            chronicle := c.remove } := by
        refine Desk.ext ?_ ?_ ?_ hact' ?_ ?_ ?_ rfl
        · exact (Vault.account?_recordRemoved ..).trans (if_pos rfl)
        · exact (Vault.finds_recordRemoved ..).trans (by simp)
        · exact (Contents.record?_serve_remove ..).trans (if_pos rfl)
        · exact (congrArg Board.isOpen hboard).trans (isOpen_publish ..)
        · exact (hnotices _).trans (if_pos rfl)
        · exact (writes_serve id c _).trans (by simp [Request.target?])
      simp only [if_true]
      rw [hdesk]
      exact .remove hact
    · simp only [hi, if_false]
      refine stepped_idle ?_ ?_ ?_ (hother (Task.at?_working_of_ne hi)
        (Task.at?_of_place?_eq_none (Task.place?_conclude ..) id)) ?_ ?_ ?_
      · exact (Vault.account?_recordRemoved ..).trans (if_neg hi)
      · exact (Vault.finds_recordRemoved ..).trans (by simp [hi])
      · exact (Contents.record?_serve_remove ..).trans (if_neg hi)
      · rw [hboard, isOpen_publish]
        exact fun ho => ho
      · exact (hnotices _).trans (if_neg hi)
      · exact (writes_serve id c _).trans (by simp [Request.target?, hi])

/-- Whatever a system does is a step of the desk of each account. -/
theorem desk_step {s s' : System} {a : Action} (h : s.Orderly) (hs : s.step? a = some s')
    (id : AccountId) (c : Chronicle) :
    Desk.Stepped id (s.desk id c) (s'.desk id (c.note id s a)) := by
  have h' := h.step hs
  cases stepped hs with
  | @quiet a s' ha hsame =>
    have hn : c.note id s a = c := by cases a <;> first | rfl | exact absurd ha (by simp [Action.isQuiet])
    rw [hn]
    refine stepped_idle ?_ ?_ ?_ ?_ ?_ ?_ ?_
    · rw [Vault.account?, hsame.accounts, Vault.account?]
    · rw [Vault.finds, hsame.roster, Vault.finds]
    · rw [hsame.contents]
    · rw [active, hsame.turns, hsame.tasks, active]
    · rw [hsame.isOpen]
      exact fun ho => ho
    · simp only [desk, hsame.published]
    · simp only [desk, hsame.served]
  | create provider hn =>
    by_cases hi : s.vault.nextId = id
    · have ha : s.vault.account? id = none := by
        rw [← Option.not_isSome_iff_eq_none]
        exact fun hsome => absurd (h.fresh id hsome) (by rw [hi]; exact UInt64.lt_irrefl _)
      have hdesk : System.desk { s with vault := { s.vault.putAccount s.vault.nextId { provider } with
          nextId := s.vault.nextId + 1 } } id c = { s.desk id c with account := some { provider } } :=
        Desk.ext ((Vault.account?_putAccount ..).trans (if_pos hi)) rfl rfl rfl rfl rfl rfl rfl
      show Desk.Stepped id _ (System.desk _ id c)
      rw [hdesk]
      exact .create provider ha
    · exact stepped_idle ((Vault.account?_putAccount ..).trans (if_neg hi)) rfl rfl rfl
        (fun ho => ho) rfl rfl
  | @edit i e a a' ha hst he =>
    have hn : c.note id s (.edit i e) = if i = id then c.addEdit a e else c := by
      simp only [Chronicle.note, ha]
    rw [hn]
    by_cases hi : i = id
    · subst i
      rw [if_pos rfl]
      have hdesk : System.desk { s with vault := s.vault.putAccount id a' } id (c.addEdit a e) =
          { s.desk id c with account := some a', chronicle := c.addEdit a e } :=
        Desk.ext ((Vault.account?_putAccount ..).trans (if_pos rfl)) rfl rfl rfl rfl rfl rfl rfl
      rw [hdesk]
      exact .edit ha hst he
    · rw [if_neg hi]
      exact stepped_idle ((Vault.account?_putAccount ..).trans (if_neg hi)) rfl rfl rfl
        (fun ho => ho) rfl rfl
  | @spawn t op ht =>
    refine stepped_idle rfl rfl rfl ?_ (fun ho => ho) rfl rfl
    refine active_congr (t := t) h.inTurn h'.inTurn (fun other ho => ?_) (by rw [ht]; rfl) ?_
    · exact tasks_record_of_ne ⟨s.vault, .starting op, []⟩ other ho
    · rw [Std.ExtTreeMap.getElem?_insert_self]
      rfl
  | run ht hp => exact desk_run h h' ht (Task.stepped hp) id c
  | fail e ht hr => exact desk_fail h h' ht (Task.replied hr s.vault _ _) id c
  | serve ht hr => exact desk_serve h h' ht hr (Task.replied hr s.vault _ _) id c

end System

end AccountVault
