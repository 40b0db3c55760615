import AccountVault.Proofs.System.Agreement

/-!
# Runs without what was in vain

What tasks do in vain can be left out of a run: the others do the same without it, and the system is in
the end one that agrees (`Contents.exists_erased`).  The others wait for fewer turns then, and one of
them may have to raise the mark that a task had raised in vain (`System.Erased`).  This is shown by going
through both runs side by side (`System.Without`).
-/

namespace AccountVault

/-! ### Vaults with other turns and another mark -/

namespace Vault

variable {v : Vault} (turns : Turns) (mark : AccountId)

theorem create_reframe (provider : String) :
    ((v.reframe turns mark).create provider).map Prod.fst =
      ((v.create provider).map Prod.fst).map (·.reframe turns mark) := by
  rw [create, create]
  cases Name.check "provider" provider with
  | error e => rfl
  | ok u =>
    by_cases hn : v.nextId.toNat + 1 < UInt64.size
    · have hn' : (v.reframe turns mark).nextId.toNat + 1 < UInt64.size := hn
      simp only [hn, hn', if_true]
      rfl
    · have hn' : ¬ (v.reframe turns mark).nextId.toNat + 1 < UInt64.size := hn
      simp only [hn, hn', if_false]
      rfl

theorem edit_reframe (id : AccountId) (e : Edit) :
    ((v.reframe turns mark).edit id e).map Prod.fst =
      ((v.edit id e).map Prod.fst).map (·.reframe turns mark) := by
  have ha : (v.reframe turns mark).account? id = v.account? id := rfl
  have ho : (v.reframe turns mark).options = v.options := rfl
  rw [edit, edit, ha, ho]
  cases v.account? id with
  | none => rfl
  | some a =>
    cases he : a.edit v.options.keyLimit id e <;> simp only [he] <;> rfl

theorem setOverride_reframe (service key : String) (value : Value) :
    (v.reframe turns mark).setOverride service key value =
      (v.setOverride service key value).map (·.reframe turns mark) := by
  have ho : (v.reframe turns mark).options = v.options := rfl
  rw [setOverride, setOverride, ho]
  cases Name.check "service" service with
  | error e => rfl
  | ok _ => cases Key.check key v.options.keyLimit <;> rfl

theorem markDeleted_reframe (id : AccountId) :
    (v.reframe turns mark).markDeleted id = (v.markDeleted id).reframe turns mark := by
  have ha : (v.reframe turns mark).account? id = v.account? id := rfl
  rw [markDeleted, markDeleted, ha]
  cases v.account? id <;> rfl

theorem enter_reframe (id : AccountId) (w : Work) : (v.reframe turns mark).enter id w =
    ((v.enter id w).1.reframe turns mark, (v.enter id w).2) := by
  cases w with
  | commit =>
    have hd : (v.reframe turns mark).draft? id = v.draft? id := rfl
    rw [enter, enter, hd]
    cases v.draft? id with
    | error e => rfl
    | ok d => cases d <;> rfl
  | delete =>
    have hl : (v.reframe turns mark).live id = v.live id := rfl
    rw [enter, enter, hl]
    cases v.live id with
    | error e => rfl
    | ok a =>
      by_cases hs : a.state = .saved
      · simp only [if_pos hs]
      · simp only [if_neg hs, markDeleted_reframe]

theorem recordSaved_reframe (id : AccountId) (d : Draft) :
    (v.reframe turns mark).recordSaved id d = (v.recordSaved id d).reframe turns mark := by
  have ha : (v.reframe turns mark).account? id = v.account? id := rfl
  rw [recordSaved, recordSaved, ha]
  cases v.account? id <;> cases d.isNew <;> rfl

theorem recordRemoved_reframe (id : AccountId) :
    (v.reframe turns mark).recordRemoved id = (v.recordRemoved id).reframe turns mark := by
  have h := markDeleted_reframe (v := { v with roster := v.roster.erase id }) turns mark id
  exact congrArg (·.publish (.deleted id)) h

end Vault

/-! ### One vault without the tasks that are gone -/

/-- A vault at which some tasks have never been, while another one has them. -/
structure Vault.Without (gone : TaskId → Bool) (v v' : Vault) : Prop where
  agrees : v.Agrees v'
  queue : ∀ turn, v'.turns.queue turn = (v.turns.queue turn).filter (!gone ·)
  mark : v'.mark ≤ v.mark

namespace Vault.Without

variable {gone : TaskId → Bool} {v v' : Vault} {self : TaskId} {turn : Turn}

/-- The one changes and keeps its turns and its mark, and so does the other. -/
theorem reframe (h : v.Without gone v') {w : Vault} {turns : Turns} {mark : AccountId}
    (hw : w = w.reframe v.turns v.mark) (hv' : v' = v.reframe turns mark) :
    w.Without gone (w.reframe turns mark) := by
  subst hv'
  rw [hw]
  exact ⟨⟨turns, mark, rfl⟩, h.queue, h.mark⟩

/-- What does not look at the turns or the mark does the same to both. -/
theorem map (h : v.Without gone v') {f : Vault → Vault}
    (hf : ∀ v turns mark, f (v.reframe turns mark) = (f v).reframe turns mark) :
    (f v).Without gone (f v') := by
  obtain ⟨turns, mark, hv'⟩ := h.agrees
  have hf' : f v' = (f v).reframe turns mark := by rw [hv', hf]
  rw [hf']
  exact h.reframe (hf v v.turns v.mark) hv'

theorem holder? (h : v.Without gone v') (hself : gone self = false)
    (hold : v.turns.holder? turn = some self) : v'.turns.holder? turn = some self := by
  obtain ⟨rest, hq⟩ := List.head?_eq_some_iff.1 hold
  rw [Turns.holder?, h.queue, hq, List.filter_cons_of_pos (by simp [hself]), List.head?_cons]

theorem join (h : v.Without gone v') (hself : gone self = false) (turn : Turn) :
    Vault.Without gone { v with turns := v.turns.join turn self }
      { v' with turns := v'.turns.join turn self } := by
  obtain ⟨turns, mark, rfl⟩ := h.agrees
  refine ⟨⟨_, mark, rfl⟩, fun other => ?_, h.mark⟩
  rw [Turns.queue_join, Turns.queue_join]
  split
  · rw [List.filter_append, ← h.queue]
    simp [hself]
  · exact h.queue other

theorem release (h : v.Without gone v') (hself : gone self = false)
    (hold : v.turns.holder? turn = some self) :
    (Task.release v turn).1.Without gone (Task.release v' turn).1 := by
  obtain ⟨rest, hq⟩ := List.head?_eq_some_iff.1 hold
  have hqueue := h.queue turn
  obtain ⟨turns, mark, rfl⟩ := h.agrees
  refine ⟨⟨_, mark, rfl⟩, fun other => ?_, h.mark⟩
  rw [Task.queue_release, Task.queue_release]
  split
  · rw [hqueue, hq, List.filter_cons_of_pos (by simp [hself]), List.tail_cons, List.tail_cons]
  · exact h.queue other

theorem nextId (h : v.Without gone v') : v'.nextId = v.nextId := by
  obtain ⟨turns, mark, rfl⟩ := h.agrees
  rfl

theorem board (h : v.Without gone v') : v'.board = v.board := by
  obtain ⟨turns, mark, rfl⟩ := h.agrees
  rfl

theorem setMark (h : v.Without gone v') (next : AccountId) :
    Vault.Without gone { v with mark := next } { v' with mark := next } := by
  have hqueue := h.queue
  obtain ⟨turns, mark, rfl⟩ := h.agrees
  exact ⟨⟨turns, next, rfl⟩, hqueue, UInt64.le_refl next⟩

/-- The mark of the one is raised to where that of the other is at least. -/
theorem raise (h : v.Without gone v') {next : AccountId} (hle : next ≤ v.mark) :
    v.Without gone { v' with mark := next } := by
  have hqueue := h.queue
  obtain ⟨turns, mark, rfl⟩ := h.agrees
  exact ⟨⟨turns, next, rfl⟩, hqueue, hle⟩

/-- What is done in vain at the one is not done at the other. -/
theorem of_agrees (h : v.Without gone v') {w : Vault} (hw : v.Agrees w)
    (hqueue : ∀ turn, (w.turns.queue turn).filter (!gone ·) = (v.turns.queue turn).filter (!gone ·))
    (hmark : v.mark ≤ w.mark) : w.Without gone v' := by
  refine ⟨?_, fun turn => (h.queue turn).trans (hqueue turn).symm, UInt64.le_trans h.mark hmark⟩
  obtain ⟨turns, mark, rfl⟩ := h.agrees
  obtain ⟨turns', mark', rfl⟩ := hw
  exact ⟨turns, mark, rfl⟩

end Vault.Without

/-- What a task that is gone does in a queue is not seen by the others. -/
theorem QueueMove.filter_eq {gone : TaskId → Bool} {self : TaskId} {b : Bool} {q q' : List TaskId}
    (h : QueueMove self b q q') (hself : gone self = true) :
    q'.filter (!gone ·) = q.filter (!gone ·) := by
  cases h with
  | stay | keep => rfl
  | join => simp [hself]
  | leave h =>
    obtain ⟨rest, rfl⟩ := List.head?_eq_some_iff.1 h
    simp [hself]

/-! ### Steps of tasks -/

/-- The same step of a task at both vaults. -/
structure Progress.Without (gone : TaskId → Bool) (p p' : Progress) : Prop where
  task : p'.task = p.task
  vault : p.vault.Without gone p'.vault

namespace Task

variable {gone : TaskId → Bool} {cancelled : TokenId → Bool} {v v' : Vault} {self : TaskId}
  {task : Task} {p : Progress}

theorem enqueue_without (h : v.Without gone v') (hself : gone self = false) (goal : Goal)
    (id : AccountId) (work : Work) :
    (enqueue v self goal id work).Without gone (enqueue v' self goal id work) :=
  ⟨rfl, h.join hself (.account id)⟩

theorem shut_without (h : v.Without gone v') (o : Outcome) :
    (shut v o).Without gone (shut v' o) := by
  refine ⟨rfl, h.map (f := fun v => { v with board := v.board.close }) fun _ _ _ => rfl⟩

theorem start_without (h : v.Without gone v') (hself : gone self = false) (op : Operation) :
    (start v self op).Without gone (start v' self op) := by
  obtain ⟨turns, mark, hv'⟩ := h.agrees
  cases op with
  | commit id => exact enqueue_without h hself .report id .commit
  | delete id => exact enqueue_without h hself .report id .delete
  | deleteFound id =>
    have hfinds : v'.finds id = v.finds id := by rw [hv']; rfl
    rw [start, start, hfinds]
    split
    · exact enqueue_without h hself .forgive id .delete
    · exact ⟨rfl, h⟩
  | flush token =>
    have hdirty : v'.dirtyIds = v.dirtyIds := by rw [hv']; rfl
    rw [start, start, hdirty]
    exact ⟨rfl, h⟩
  | close =>
    have hdirty : v'.dirtyIds = v.dirtyIds := by rw [hv']; rfl
    have hoptions : v'.options = v.options := by rw [hv']; rfl
    rw [start, start, hdirty, hoptions]
    split
    · exact ⟨rfl, h⟩
    · exact shut_without h (.ok 0)

theorem advance_without (h : v.Without gone v') (hself : gone self = false) (sw : Sweep) :
    (advance cancelled v self sw).Without gone (advance cancelled v' self sw) := by
  rw [advance, advance]
  split
  · split
    · exact shut_without h sw.outcome
    · exact ⟨rfl, h⟩
  · split
    · exact ⟨rfl, h⟩
    · exact enqueue_without h hself _ _ .commit

theorem proceed_without (h : v.Without gone v') (hself : gone self = false) (goal : Goal)
    {id : AccountId} (work : Work) (hold : v.turns.holder? (.account id) = some self) (stage : Stage) :
    (proceed v self goal id work stage).Without gone (proceed v' self goal id work stage) := by
  cases stage with
  | paused q =>
    cases q with
    | awaitingMark d => exact ⟨rfl, h.join hself .mark⟩
    | entering | raisingMark | saving | removing => exact ⟨rfl, h⟩
  | done r => exact ⟨rfl, h.release hself hold⟩

/-- An account is entered alike at both vaults. -/
theorem enter_without (h : v.Without gone v') (id : AccountId) (work : Work) :
    (v'.enter id work).2 = (v.enter id work).2 ∧
      (v.enter id work).1.Without gone (v'.enter id work).1 := by
  refine ⟨?_, h.map (f := fun v => (v.enter id work).1) fun v turns mark => ?_⟩
  · obtain ⟨turns, mark, rfl⟩ := h.agrees
    rw [Vault.enter_reframe]
  · rw [Vault.enter_reframe]

section

variable {goal : Goal} {id : AccountId} {work : Work} {d : Draft}

theorem step_of_lt_mark (hold : v.turns.holder? .mark = some self) (hlt : v.mark < v.nextId) :
    (working goal id work (.awaitingMark d)).step cancelled v self =
      some ⟨v, working goal id work (.raisingMark d v.nextId), []⟩ := by
  rw [step, if_pos hold, Vault.atMark, if_pos hlt]

theorem step_of_not_lt_mark (hold : v.turns.holder? .mark = some self) (hlt : ¬ v.mark < v.nextId) :
    (working goal id work (.awaitingMark d)).step cancelled v self =
      some ⟨(release v .mark).1, working goal id work (.saving d), (release v .mark).2⟩ := by
  rw [step, if_pos hold, Vault.atMark, if_neg hlt]

/-- A task that finds the mark high enough at one vault, and not at the other, has to raise it there. -/
theorem raise_without (h : v.Without gone v') (hself : gone self = false)
    (hp : (working goal id work (.awaitingMark d)).step cancelled v self = some p)
    (hv : ¬ v.mark < v.nextId) (hv' : v'.mark < v'.nextId) :
    let raising := working goal id work (.raisingMark d v'.nextId)
    (working goal id work (.awaitingMark d)).step cancelled v' self = some ⟨v', raising, []⟩ ∧
      ∀ reply, p.Without gone (raising.answered v' self (.ok reply)) := by
  intro raising
  cases stepped hp with
  | pass h' | shut _ h' | enqueue _ _ _ h' => exact absurd h' (by simp [place?])
  | raise _ _ _ _ _ hlt => exact absurd hlt hv
  | skip _ _ _ _ hold =>
    refine ⟨step_of_lt_mark (h.holder? hself hold) hv', fun reply => ⟨rfl, ?_⟩⟩
    exact (h.release hself hold).raise (h.nextId ▸ UInt64.not_lt.1 hv)

end

theorem step_without (h : v.Without gone v') (hself : gone self = false)
    (hp : task.step cancelled v self = some p)
    (hskip : ∀ goal id work d, task = working goal id work (.awaitingMark d) →
      v'.mark < v'.nextId → v.mark < v.nextId) :
    ∃ p', task.step cancelled v' self = some p' ∧ p.Without gone p' := by
  cases task with
  | starting op =>
    cases hp
    exact ⟨_, rfl, start_without h hself op⟩
  | sweeping sw =>
    cases hp
    exact ⟨_, rfl, advance_without h hself sw⟩
  | working goal id work q =>
    cases q with
    | entering =>
      rw [step] at hp
      split at hp
      · rename_i hold
        cases hp
        refine ⟨_, by rw [step, if_pos (h.holder? hself hold)], ?_⟩
        obtain ⟨hstage, hv⟩ := enter_without h id work
        have hturns := turns_of_entered (v.entered id work)
        rw [hstage]
        exact proceed_without hv hself goal work (by rw [hturns]; exact hold) _
      · exact absurd hp (by simp)
    | awaitingMark d =>
      cases stepped hp with
      | pass h' | shut _ h' | enqueue _ _ _ h' => exact absurd h' (by simp [place?])
      | raise _ _ _ _ hold hlt =>
        have hlt' : v'.mark < v'.nextId := by
          rw [h.nextId]
          exact UInt64.lt_of_le_of_lt h.mark hlt
        refine ⟨_, step_of_lt_mark (h.holder? hself hold) hlt', ?_, h⟩
        rw [h.nextId]
      | skip _ _ _ _ hold hlt =>
        have hlt' : ¬ v'.mark < v'.nextId := fun hlt' => hlt (hskip goal id work d rfl hlt')
        exact ⟨_, step_of_not_lt_mark (h.holder? hself hold) hlt', rfl, h.release hself hold⟩
    | raisingMark | saving | removing => exact absurd hp (by simp [step])
  | draining o =>
    rw [step] at hp
    split at hp
    · cases hp
      exact ⟨⟨v', finished o, []⟩, by rw [step, h.board, if_pos ‹_›], rfl, h⟩
    · exact absurd hp (by simp)
  | finished => exact absurd hp (by simp [step])

theorem answered_without (h : v.Without gone v') (hself : gone self = false) {r : Request}
    (hr : task.request? = some r)
    (hold : ∀ turn, task.holds turn = true → v.turns.holder? turn = some self)
    (reply : Except Fault Reply) :
    (task.answered v self reply).Without gone (task.answered v' self reply) := by
  cases task with
  | working goal id work q =>
    cases q with
    | entering | awaitingMark => exact absurd hr (by simp [request?, Point.request?])
    | raisingMark d next =>
      have hmark := h.release hself (hold .mark (by simp [holds, place?]))
      cases reply with
      | error e =>
        have haccount : (release v .mark).1.turns.holder? (.account id) = some self := by
          rw [Turns.holder?, queue_release, if_neg (by simp)]
          exact hold (.account id) (by simp [holds, place?])
        exact ⟨rfl, (proceed_without hmark hself goal work haccount (.ofFault e)).vault⟩
      | ok reply => exact ⟨rfl, hmark.setMark next⟩
    | saving d =>
      have haccount := hold (.account id) (by simp [holds, place?])
      cases reply with
      | error e => exact proceed_without h hself goal work haccount (.ofFault e)
      | ok reply =>
        have hsaved := h.map (f := (·.recordSaved id d)) fun _ turns mark =>
          Vault.recordSaved_reframe turns mark id d
        have hturn : (v.recordSaved id d).turns.holder? (.account id) = some self := by
          rw [Vault.turns_recordSaved]
          exact haccount
        exact proceed_without hsaved hself goal work hturn (.done (.ok ()))
    | removing =>
      have haccount := hold (.account id) (by simp [holds, place?])
      cases reply with
      | error e => exact proceed_without h hself goal work haccount (.ofFault e)
      | ok reply =>
        have hremoved := h.map (f := (·.recordRemoved id)) fun _ turns mark =>
          Vault.recordRemoved_reframe turns mark id
        have hturn : (v.recordRemoved id).turns.holder? (.account id) = some self := by
          rw [Vault.turns_recordRemoved]
          exact haccount
        exact proceed_without hremoved hself goal work hturn (.done (.ok ()))
  | starting | sweeping | draining | finished => exact absurd hr (by simp [request?])

end Task

/-! ### Two systems side by side -/

theorem Contents.records_serve {c c' : Contents} (h : c'.records = c.records) (r : Request) :
    (c'.serve r).1.records = (c.serve r).1.records := by
  cases r <;> simp [serve, h]

/-- All that tasks ask of the storage is answered alike. -/
theorem Contents.serve_snd {task : Task} {r : Request} (hr : task.request? = some r) (c : Contents) :
    (c.serve r).2 = .done := by
  cases task with
  | working goal id work q =>
    cases q with
    | entering | awaitingMark => exact absurd hr (by simp [Task.request?, Point.request?])
    | raisingMark | saving | removing =>
      cases hr
      rfl
  | starting | sweeping | draining | finished => exact absurd hr (by simp [Task.request?])

namespace System

/-- A system in which some tasks have never been, while another one has them. -/
structure Without (gone : TaskId → Bool) (s s' : System) : Prop where
  vault : s.vault.Without gone s'.vault
  records : s'.contents.records = s.contents.records
  handed : s'.handed = s.handed
  cancelled : s'.cancelled = s.cancelled
  tasks : ∀ t, gone t = false → s'.tasks[t]? = s.tasks[t]?

variable {gone : TaskId → Bool} {s s' r : System} {a : Action} {t : TaskId}

theorem tasks_of_actor?_ne (hs : s.step? a = some s') (ha : a.actor? ≠ some t) :
    s'.tasks[t]? = s.tasks[t]? := by
  cases stepped hs with
  | quiet _ hsame => rw [hsame.tasks]
  | create | edit => rfl
  | @spawn u op => exact tasks_record_of_ne ⟨s.vault, .starting op, []⟩ t fun h => ha (congrArg some h)
  | run | fail | serve => exact tasks_record_of_ne _ t fun h => ha (congrArg some h)

/-- An action of a task moves it in the queues, and nobody else. -/
theorem exists_queueMove (hturn : s.InTurn) (hs : s.step? a = some s') (ha : a.actor? = some t)
    (turn : Turn) :
    ∃ b, QueueMove t b (s.vault.turns.queue turn) (s'.vault.turns.queue turn) := by
  cases stepped hs with
  | quiet hq => exact absurd ((Action.actor?_of_isQuiet hq).symm.trans ha) (by simp)
  | create | edit => exact absurd ha (by simp [Action.actor?])
  | spawn => exact ⟨false, .stay⟩
  | run ht hp =>
    cases ha
    exact ⟨_, (Task.stepped hp).queueMove (fun turn => hturn _ _ turn ht) turn⟩
  | fail e ht hr =>
    cases ha
    exact ⟨_, (Task.replied hr _ _ _).queueMove (fun turn => hturn _ _ turn ht) turn⟩
  | serve ht hr =>
    cases ha
    exact ⟨_, (Task.replied hr _ _ _).queueMove (fun turn => hturn _ _ turn ht) turn⟩

namespace Without

theorem setVault (h : s.Without gone r) {v v' : Vault} (hv : v.Without gone v') :
    Without gone { s with vault := v } { r with vault := v' } :=
  ⟨hv, h.records, h.handed, h.cancelled, h.tasks⟩

theorem record (h : s.Without gone r) {p p' : Progress} (hp : p.Without gone p') (t : TaskId) :
    (s.record t p).Without gone (r.record t p') := by
  refine ⟨hp.vault, h.records, h.handed, h.cancelled, fun u hu => ?_⟩
  rw [getElem?_record, getElem?_record, hp.task, h.tasks u hu]

/-- What a caller does to the one vault can be done to the other. -/
theorem accept (h : s.Without gone r) {f : Vault → Except Problem Vault}
    (hf : ∀ v turns mark, f (v.reframe turns mark) = (f v).map (·.reframe turns mark))
    (hs : s.accept (f s.vault) = some s') :
    ∃ r', r.accept (f r.vault) = some r' ∧ s'.Without gone r' := by
  obtain ⟨turns, mark, hr⟩ := h.vault.agrees
  have hself : f s.vault = (f s.vault).map (·.reframe s.vault.turns s.vault.mark) :=
    hf s.vault s.vault.turns s.vault.mark
  have hother : f r.vault = (f s.vault).map (·.reframe turns mark) := by rw [hr, hf]
  cases hw : f s.vault with
  | error e =>
    rw [hw] at hs
    exact absurd hs (by simp [System.accept])
  | ok w =>
    rw [hw] at hself hother hs
    cases hs
    refine ⟨{ r with vault := w.reframe turns mark }, by rw [hother]; rfl, ?_⟩
    exact h.setVault (h.vault.reframe (Except.ok.inj hself) hr)

/-- A task whose mark is still to be raised in the other system has it raised there at once. -/
theorem answer_raised (h : s.Without gone r) {p : Progress} {raising : Task} {next : AccountId}
    (hr : raising.request? = some (.saveMark next))
    (hp : p.Without gone (raising.answered r.vault t (.ok .done))) :
    (s.record t p).Without gone ((r.record t ⟨r.vault, raising, []⟩).step (.answer t none)) := by
  have hstep : (r.record t ⟨r.vault, raising, []⟩).step? (.answer t none) = some
      { (r.record t ⟨r.vault, raising, []⟩).record t (raising.answered r.vault t (.ok .done)) with
        contents := (r.contents.serve (.saveMark next)).1
        served := r.served ++ [.saveMark next] } := by
    rw [step?, answer?, tasks_record_self]
    simp only [bind, Option.bind_some, hr]
    rfl
  rw [step_of_step? hstep]
  refine ⟨hp.vault, h.records, h.handed, h.cancelled, fun u hu => ?_⟩
  refine (getElem?_record ..).trans ?_
  rw [getElem?_record, getElem?_record, hp.task, h.tasks u hu]
  split <;> rfl

/-- A step of a task that is there in both. -/
theorem run (h : s.Without gone r) (hself : gone t = false) (hs : s.step? (.run t) = some s') :
    s'.Without gone (r.step (.run t)) ∨ ∃ next, (r.step (.run t)).call? t = some (.saveMark next) ∧
      s'.Without gone ((r.step (.run t)).step (.answer t none)) := by
  cases System.stepped hs with
  | quiet hq => exact absurd hq (by simp [Action.isQuiet])
  | @run t task p ht hp =>
    have ht' : r.tasks[t]? = some task := (h.tasks t hself).trans ht
    have hcancelled : r.isCancelled = s.isCancelled := by
      funext token
      rw [isCancelled, isCancelled, h.cancelled]
    by_cases hskip : ∀ goal id work d, task = .working goal id work (.awaitingMark d) →
        r.vault.mark < r.vault.nextId → s.vault.mark < s.vault.nextId
    · obtain ⟨p', hp', hwithout⟩ := Task.step_without h.vault hself hp hskip
      rw [step_of_step? (step?_run ht' (by rw [hcancelled]; exact hp'))]
      exact .inl (h.record hwithout t)
    · simp only [not_forall] at hskip
      obtain ⟨goal, id, work, d, rfl, hlt, hnot⟩ := hskip
      obtain ⟨hp', hanswer⟩ := Task.raise_without h.vault hself hp hnot hlt
      rw [step_of_step? (step?_run ht' (by rw [hcancelled]; exact hp'))]
      refine .inr ⟨r.vault.nextId, ?_, ?_⟩
      · rw [call?_of_task (tasks_record_self _)]
        rfl
      · exact h.answer_raised rfl (hanswer .done)

/-- An answer to a task that is there in both. -/
theorem answer (h : s.Without gone r) (hself : gone t = false) (hturn : s.InTurn)
    {fault : Option Fault} (hs : s.step? (.answer t fault) = some s') :
    s'.Without gone (r.step (.answer t fault)) := by
  cases System.stepped hs with
  | quiet hq => exact absurd hq (by simp [Action.isQuiet])
  | @fail t task req e ht hr =>
    have ht' : r.tasks[t]? = some task := (h.tasks t hself).trans ht
    have hstep : r.step? (.answer t (some e)) =
        some (r.record t (task.answered r.vault t (.error e))) := by
      simp only [step?, answer?, ht', hr, bind, Option.bind_some]
      rfl
    rw [step_of_step? hstep]
    exact h.record (Task.answered_without h.vault hself hr (fun turn => hturn t task turn ht) _) t
  | @serve t task req ht hr =>
    have ht' : r.tasks[t]? = some task := (h.tasks t hself).trans ht
    have hstep : r.step? (.answer t none) =
        some { r.record t (task.answered r.vault t (.ok (r.contents.serve req).2)) with
          contents := (r.contents.serve req).1, served := r.served ++ [req] } := by
      simp only [step?, answer?, ht', hr, bind, Option.bind_some]
      rfl
    rw [step_of_step? hstep, Contents.serve_snd hr, Contents.serve_snd hr]
    have hp := Task.answered_without h.vault hself hr (fun turn => hturn t task turn ht) (.ok .done)
    have hrecord := h.record hp t
    exact ⟨hrecord.vault, Contents.records_serve h.records req, hrecord.handed, hrecord.cancelled,
      hrecord.tasks⟩

/-- What is done by a caller, by the one who hands out notices, or by a task that is there in both, can be
done in both; but a mark may have to be raised in the other system alone. -/
theorem step (h : s.Without gone r) (hturn : s.InTurn) (hs : s.step? a = some s')
    (ha : ∀ t, a.actor? = some t → gone t = false) :
    s'.Without gone (r.step a) ∨ ∃ t next, a = .run t ∧
      (r.step (.run t)).call? t = some (.saveMark next) ∧
      s'.Without gone ((r.step (.run t)).step (.answer t none)) := by
  cases a with
  | run t =>
    refine (h.run (ha t rfl) hs).imp_right ?_
    rintro ⟨next, hcall, hwithout⟩
    exact ⟨t, next, rfl, hcall, hwithout⟩
  | answer t fault => exact .inl (h.answer (ha t rfl) hturn hs)
  | create provider =>
    obtain ⟨r', hr, hwithout⟩ := h.accept (f := fun v => (v.create provider).map Prod.fst)
      (fun v turns mark => Vault.create_reframe turns mark provider) hs
    rw [step_of_step? (a := .create provider) hr]
    exact .inl hwithout
  | edit id e =>
    obtain ⟨r', hr, hwithout⟩ := h.accept (f := fun v => (v.edit id e).map Prod.fst)
      (fun v turns mark => Vault.edit_reframe turns mark id e) hs
    rw [step_of_step? (a := .edit id e) hr]
    exact .inl hwithout
  | setOverride service key value =>
    obtain ⟨r', hr, hwithout⟩ := h.accept (f := (·.setOverride service key value))
      (fun v turns mark => Vault.setOverride_reframe turns mark service key value) hs
    rw [step_of_step? (a := .setOverride service key value) hr]
    exact .inl hwithout
  | clearOverride service key =>
    cases hs
    exact .inl (h.setVault (h.vault.map (f := fun v => (v.clearOverride service key).1)
      fun _ _ _ => rfl))
  | subscribe f =>
    cases hs
    exact .inl (h.setVault (h.vault.map (f := fun v => (v.subscribe f).1) fun _ _ _ => rfl))
  | unsubscribe id =>
    cases hs
    exact .inl (h.setVault (h.vault.map (f := (·.unsubscribe id)) fun _ _ _ => rfl))
  | dispatch =>
    cases hs
    have hboard := h.vault.map (f := fun v => { v with board := v.board.dispatch.1 }) fun _ _ _ => rfl
    refine .inl ⟨hboard, h.records, ?_, h.cancelled, h.tasks⟩
    show r.handed ++ r.vault.board.queue.take 1 = s.handed ++ s.vault.board.queue.take 1
    rw [h.handed, h.vault.board]
  | spawn t op =>
    have hself := ha t rfl
    cases System.stepped hs with
    | quiet hq => exact absurd hq (by simp [Action.isQuiet])
    | spawn _ ht =>
      rw [step_of_step? (step?_spawn ((h.tasks t hself).trans ht) op)]
      have hp : Progress.Without gone ⟨s.vault, .starting op, []⟩ ⟨r.vault, .starting op, []⟩ :=
        ⟨rfl, h.vault⟩
      exact .inl (h.record hp t)
  | cancel token =>
    cases hs
    exact .inl ⟨h.vault, h.records, h.handed, congrArg (token :: ·) h.cancelled, h.tasks⟩

/-- What is done in vain can be left out. -/
theorem step_gone (h : s.Without gone r) (hturn : s.InTurn) (hs : s.step? a = some s')
    (ha : a.actor? = some t) (hgone : gone t = true) (hagrees : s.Agrees s')
    (hmark : s.vault.mark ≤ s'.vault.mark) : s'.Without gone r := by
  refine ⟨h.vault.of_agrees hagrees.vault (fun turn => ?_) hmark, h.records.trans hagrees.records.symm,
    h.handed.trans hagrees.handed.symm, h.cancelled.trans hagrees.cancelled.symm, fun u hu => ?_⟩
  · obtain ⟨b, hmove⟩ := exists_queueMove hturn hs ha turn
    exact hmove.filter_eq hgone
  · have hne : a.actor? ≠ some u := by
      rw [ha]
      rintro ⟨⟩
      exact absurd (hgone.symm.trans hu) (by simp)
    rw [h.tasks u hu, tasks_of_actor?_ne hs hne]

end Without

/-- A run without what some tasks have done in it, and without what could not be done anyway.  Here and
there the storage is let raise the mark, where this had been done for a task that is gone. -/
inductive Erased (gone : TaskId → Bool) (s : System) : List Action → List Action → Prop
  | nil : Erased gone s [] []
  | skip {as bs : List Action} {a : Action} (h : Erased gone s as bs)
    (ha : (s.run as).step? a = none) : Erased gone s (as ++ [a]) bs
  | drop {as bs : List Action} {a : Action} {t : TaskId} (h : Erased gone s as bs)
    (ha : a.actor? = some t) (hgone : gone t = true) : Erased gone s (as ++ [a]) bs
  | keep {as bs : List Action} {a : Action} (h : Erased gone s as bs)
    (hstep : ((s.run as).step? a).isSome) (ha : ∀ t, a.actor? = some t → gone t = false) :
    Erased gone s (as ++ [a]) (bs ++ [a])
  | raise {as bs : List Action} {t : TaskId} {next : AccountId} (h : Erased gone s as bs)
    (hstep : ((s.run as).step? (.run t)).isSome) (hself : gone t = false)
    (hcall : (s.run (bs ++ [.run t])).call? t = some (.saveMark next)) :
    Erased gone s (as ++ [.run t]) (bs ++ [.run t, .answer t none])

end System

/-- What tasks do in vain can be left out of a run. -/
theorem Contents.exists_erased {c : Contents} {options : Options} {catalog : Catalog} {v : Vault}
    (hv : c.opened options catalog = .ok v) (gone : TaskId → Bool) (as : List Action)
    (hgone : ∀ t, gone t = true → (System.start v c).InVain as t) :
    ∃ bs, (System.start v c).Erased gone as bs ∧
      ((System.start v c).run as).Without gone ((System.start v c).run bs) := by
  have hopens := opens_of_opened hv
  induction as using List.reverseRecOn with
  | nil =>
    refine ⟨[], .nil, ⟨.refl v, fun turn => ?_, UInt64.le_refl _⟩, rfl, rfl, rfl, fun _ _ => rfl⟩
    have hqueue : v.turns.queue turn = [] := by
      rw [hopens.turns]
      cases turn <;> rfl
    show v.turns.queue turn = (v.turns.queue turn).filter _
    rw [hqueue]
    rfl
  | append_singleton as a ih =>
    obtain ⟨bs, herased, hwithout⟩ := ih fun t ht => (hgone t ht).of_append
    have hsound := hopens.sound_start_run as
    have hturn := hsound.orderly.inTurn
    cases hs : ((System.start v c).run as).step? a with
    | none =>
      refine ⟨bs, .skip herased hs, ?_⟩
      rw [System.run_concat, System.step_of_step?_eq_none hs]
      exact hwithout
    | some s' =>
      have hsome : (((System.start v c).run as).step? a).isSome := by rw [hs]; rfl
      rw [System.run_concat, System.step_of_step? hs]
      by_cases hdrop : ∃ t, a.actor? = some t ∧ gone t = true
      · obtain ⟨t, ha, ht⟩ := hdrop
        obtain ⟨hagrees, -⟩ := agrees_of_inVain hv (hgone t ht) ha
        rw [System.step_of_step? hs] at hagrees
        have hmark := (marked_run hv as).le_step hs
        exact ⟨bs, .drop herased ha ht, hwithout.step_gone hturn hs ha ht hagrees hmark⟩
      · have ha : ∀ t, a.actor? = some t → gone t = false := by
          intro t ht
          exact Bool.eq_false_iff.2 fun hg => hdrop ⟨t, ht, hg⟩
        rcases hwithout.step hturn hs ha with hkept | ⟨t, next, rfl, hcall, hraised⟩
        · refine ⟨bs ++ [a], .keep herased hsome ha, ?_⟩
          rw [System.run_concat]
          exact hkept
        · rw [← System.run_concat] at hcall
          refine ⟨bs ++ [.run t, .answer t none], .raise herased hsome (ha t rfl) hcall, ?_⟩
          rw [System.run_append]
          exact hraised

end AccountVault
