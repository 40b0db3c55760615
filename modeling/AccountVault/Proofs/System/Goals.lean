import AccountVault.Proofs.System.Following

/-!
# What tasks work for

A sweep commits accounts that have been written, a deletion that forgives deletes, and only what has
never been written waits for the mark (`System.Fitting`).  So it is for a caller's own commit that the
mark is raised, and a sweep never raises it.
-/

namespace AccountVault

/-- Whether work on an account can be done for a goal. -/
def Goal.Fits (s : System) (id : AccountId) (work : Work) : Goal → Prop
  | report => True
  | forgive => work = .delete
  | sweep sw => work = .commit ∧ s.Reached id .saved ∧ ∀ i ∈ sw.rest, s.Reached i .saved

/-- Whether work can have got to a point. -/
def Point.Fits (work : Work) : Point → Prop
  | entering => True
  | awaitingMark d => work = .commit ∧ d.isNew = true
  | raisingMark d _ => work = .commit ∧ d.isNew = true
  | saving _ => work = .commit
  | removing => work = .delete

namespace Task

/-- A task does what it does for a goal that calls for it. -/
def Fits (s : System) : Task → Prop
  | working goal id work p => goal.Fits s id work ∧ p.Fits work
  | sweeping sw => ∀ i ∈ sw.rest, s.Reached i .saved
  | _ => True

variable {s s' : System} {t : TaskId} {task : Task} {a : Action} {p : Progress} {goal : Goal}
  {id : AccountId} {work : Work}

end Task

theorem Goal.Fits.step {s s' : System} {a : Action} {goal : Goal} {id : AccountId} {work : Work}
    (h : goal.Fits s id work) (hsound : s.Sound) (hs : s.step? a = some s') :
    goal.Fits s' id work := by
  cases goal with
  | report => exact trivial
  | forgive => exact h
  | sweep sw =>
    obtain ⟨hw, hid, hrest⟩ := h
    exact ⟨hw, hid.step hsound hs, fun i hi => (hrest i hi).step hsound hs⟩

namespace Task

variable {s s' : System} {t : TaskId} {task : Task} {a : Action} {p : Progress} {goal : Goal}
  {id : AccountId} {work : Work}

theorem Fits.step (h : task.Fits s) (hsound : s.Sound) (hs : s.step? a = some s') :
    task.Fits s' := by
  cases task with
  | working goal id work p => exact ⟨h.1.step hsound hs, h.2⟩
  | sweeping sw => exact fun i hi => (h i hi).step hsound hs
  | starting | draining | finished => exact trivial

/-- A task that is done with an account goes back to its goal. -/
theorem fits_conclude (h : goal.Fits s id work) (r : Except Problem Unit) :
    (conclude goal r).Fits s := by
  cases goal with
  | report => exact trivial
  | forgive =>
    cases r with
    | ok => exact trivial
    | error e => cases e <;> exact trivial
  | sweep sw =>
    have hrest : (sw.note r).rest = sw.rest := by
      cases r with
      | ok => rfl
      | error e => cases e <;> rfl
    intro i hi
    rw [hrest] at hi
    exact h.2.2 i hi

/-- All that a sweep is to go over has been written. -/
theorem reached_of_mem_dirtyIds (hsound : s.Sound) (hid : id ∈ s.vault.dirtyIds) :
    s.Reached id .saved :=
  hsound.reached_of_finds (Vault.mem_rosterWhere_iff.1 hid).1

theorem fits_start (hsound : s.Sound) (op : Operation) :
    (start s.vault t op).task.Fits s := by
  cases op with
  | commit | delete => exact ⟨trivial, trivial⟩
  | deleteFound id =>
    rw [start]
    split
    · exact ⟨rfl, trivial⟩
    · exact trivial
  | flush token => exact fun i hi => reached_of_mem_dirtyIds hsound hi
  | close =>
    rw [start]
    split
    · exact fun i hi => reached_of_mem_dirtyIds hsound hi
    · exact trivial

theorem fits_advance {sw : Sweep} (h : (sweeping sw).Fits s) (cancelled : TokenId → Bool) :
    (advance cancelled s.vault t sw).task.Fits s := by
  rw [advance]
  split
  · split <;> exact trivial
  · rename_i id rest hrest
    split
    · exact trivial
    · have hall : ∀ i ∈ id :: rest, s.Reached i .saved := by
        rw [← hrest]
        exact h
      obtain ⟨hid, hrest⟩ := List.forall_mem_cons.1 hall
      exact ⟨⟨rfl, hid, hrest⟩, trivial⟩

theorem fits_proceed {v' : Vault} {stage : Stage} (hg : goal.Fits s id work)
    (h : s.vault.Entered id work v' stage) : (proceed v' t goal id work stage).task.Fits s := by
  cases h with
  | refused | clean | discard => exact fits_conclude hg _
  | firstDraft _ hs => exact ⟨hg, rfl, by simp [Draft.ofAccount, hs]⟩
  | draft => exact ⟨hg, rfl⟩
  | removal => exact ⟨hg, rfl⟩

theorem Fits.moved (h : task.Fits s) (hsound : s.Sound) (hm : task.Moved s t p) :
    p.task.Fits s := by
  cases hm with
  | step hp =>
    cases task with
    | starting op =>
      cases hp
      exact fits_start hsound op
    | sweeping sw =>
      cases hp
      exact fits_advance h _
    | working goal id work q =>
      cases stepped hp with
      | pass h' | shut _ h' | enqueue _ _ _ h' => exact absurd h' (by simp [place?])
      | enter _ _ hv => exact fits_proceed h.1 hv
      | raise => exact h
      | skip => exact ⟨h.1, h.2.1⟩
    | draining o =>
      obtain ⟨-, rfl⟩ := step_draining hp
      exact trivial
    | finished => exact absurd hp (by simp [Task.step])
  | reply _ hrep =>
    cases hrep with
    | markFailed | failed | saved | removed => exact fits_conclude h.1 _
    | marked => exact ⟨h.1, h.2.1⟩

end Task

namespace System

/-- Every task does what it does for a goal that calls for it. -/
def Fitting (s : System) : Prop := ∀ (t : TaskId) task, s.tasks[t]? = some task → task.Fits s

theorem Fitting.run {s : System} (h : s.Fitting) (hs : s.Sound) (as : List Action) :
    (s.run as).Fitting :=
  follow_all (fun _ _ => trivial) (fun _ _ _ _ hs hstep h => h.step hs hstep)
    (fun _ _ _ _ _ _ hs hstep _ hm _ h => (h.moved hs hm).step hs hstep) hs h as

theorem Fitting.step {s s' : System} {a : Action} (h : s.Fitting) (hs : s.Sound)
    (hstep : s.step? a = some s') : s'.Fitting := by
  have hrun := h.run hs [a]
  rwa [run_cons, run_nil, step_of_step? hstep] at hrun

/-- Only a caller's own commit waits for the mark, or raises it, and the account is still unsaved. -/
theorem Fitting.of_mark {s : System} (h : s.Fitting) (hs : s.Sound) {t : TaskId} {goal : Goal}
    {id : AccountId} {work : Work} {p : Point} {d : Draft}
    (ht : s.tasks[t]? = some (.working goal id work p))
    (hp : p = .awaitingMark d ∨ ∃ next, p = .raisingMark d next) :
    goal = .report ∧ work = .commit ∧
      ∃ a, s.vault.account? id = some a ∧ a.state = .unsaved := by
  obtain ⟨hg, hfits⟩ := h t _ ht
  have hd : p.draft? = some d ∧ p ≠ .entering ∧ work = .commit ∧ d.isNew = true := by
    rcases hp with rfl | ⟨next, rfl⟩
    · exact ⟨rfl, by simp, hfits⟩
    · exact ⟨rfl, by simp, hfits⟩
  obtain ⟨hdraft, hne, hw, hnew⟩ := hd
  obtain ⟨c, hc⟩ := hs.desks id
  obtain ⟨S, -, hS⟩ := hc.drafted t p d (hs.active_eq_some ht hne) hdraft
  obtain ⟨a, ha, hstate, -⟩ := hS.account
  have hunsaved : a.state = .unsaved := by
    rw [hstate]
    rw [hS.draft] at hnew
    exact of_decide_eq_true hnew
  refine ⟨?_, hw, a, ha, hunsaved⟩
  cases goal with
  | report => rfl
  | forgive => exact absurd (hw.symm.trans hg) (by simp)
  | sweep sw =>
    obtain ⟨b, hb, hrank⟩ := hg.2.1
    obtain rfl := Option.some.inj ((show s.vault.account? id = some a from ha).symm.trans hb)
    rw [hunsaved] at hrank
    exact absurd hrank (by decide)

end System

theorem Contents.Opens.fitting_run {c : Contents} {v : Vault} (h : c.Opens v) (as : List Action) :
    ((System.start v c).run as).Fitting := by
  have hempty : (System.start v c).Fitting := fun t task ht => absurd ht (by simp [System.start])
  exact hempty.run (h.sound_start_run []) as

end AccountVault
