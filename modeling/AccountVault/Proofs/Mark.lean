import AccountVault.Proofs.System.Goals

/-!
# The mark goes ahead

The stored mark is above the id of every account whose record is written for the first time, before
that record is (`mark_goes_ahead`).  It is only ever raised, by one task at a time, and a commit that
could not raise it writes nothing.  The invariant is `System.Marked`.
-/

namespace AccountVault

namespace Vault

@[simp] theorem mark_recordSaved (v : Vault) (id : AccountId) (d : Draft) :
    (v.recordSaved id d).mark = v.mark := by
  rw [recordSaved, publish]
  cases v.account? id <;> split <;> rfl

@[simp] theorem mark_recordRemoved (v : Vault) (id : AccountId) :
    (v.recordRemoved id).mark = v.mark := by
  rw [recordRemoved, markDeleted]
  split <;> rfl

variable {v : Vault} {id i : AccountId} {a b : Account}

theorem of_account?_putAccount (h : (v.putAccount id a).account? i = some b) :
    (id = i ∧ b = a) ∨ v.account? i = some b := by
  rw [account?_putAccount] at h
  split at h
  · exact .inl ⟨‹_›, (Option.some.inj h).symm⟩
  · exact .inr h

theorem of_account?_recordSaved {d : Draft} (h : (v.recordSaved id d).account? i = some b) :
    id = i ∨ v.account? i = some b := by
  rw [account?_recordSaved] at h
  split at h
  · exact .inl ‹_›
  · exact .inr h

theorem of_account?_recordRemoved (h : (v.recordRemoved id).account? i = some b) :
    b.state = .deleted ∨ v.account? i = some b := by
  rw [account?_recordRemoved] at h
  split at h
  · obtain ⟨a, -, rfl⟩ := Option.map_eq_some_iff.1 h
    exact .inl rfl
  · exact .inr h

end Vault

/-- What the mark promises at a point of the work on an account: while it is being raised, that it will
be above the account's id, and while a record is being written, that it is, unless the account was
known before. -/
def Point.Ahead (v : Vault) (known : AccountId → Bool) (id : AccountId) : Point → Prop
  | raisingMark _ next => v.mark < next ∧ next ≤ v.nextId ∧ id < next
  | saving _ => known id = false → id < v.mark
  | _ => True

theorem Point.Ahead.mono {v v' : Vault} {known : AccountId → Bool} {id : AccountId} {p : Point}
    (h : p.Ahead v known id) (hm : v'.mark = v.mark) (hn : v.nextId ≤ v'.nextId) :
    p.Ahead v' known id := by
  cases p with
  | raisingMark d next =>
    obtain ⟨hlt, hle, hid⟩ := h
    exact ⟨hm ▸ hlt, UInt64.le_trans hle hn, hid⟩
  | saving d => exact fun hk => hm ▸ h hk
  | entering | awaitingMark | removing => exact trivial

namespace System

/-- The marks that have been written, in order. -/
def marks (s : System) : List AccountId := s.served.filterMap fun r =>
  match r with
  | .saveMark next => some next
  | _ => none

/-- The mark is where it was when the vault was opened or where it was last raised to, and above the ids
of all accounts that have been written since. -/
structure Marked (loaded : Option AccountId) (known : AccountId → Bool) (s : System) : Prop where
  stored : s.contents.mark = s.marks.getLast?.or loaded
  mark : s.vault.mark = s.contents.mark.getD 0
  le_nextId : s.vault.mark ≤ s.vault.nextId
  raised : (loaded.getD 0 :: s.marks).Pairwise (· < ·)
  top : ∀ m ∈ loaded.getD 0 :: s.marks, m ≤ s.vault.mark
  points : ∀ (t : TaskId) task id p, s.tasks[t]? = some task → task.place? = some (id, p) →
    p.Ahead s.vault known id
  saved : ∀ id a, s.vault.account? id = some a → a.state = .saved → known id = false →
    id < s.vault.mark

variable {loaded : Option AccountId} {known : AccountId → Bool} {s s' : System} {t : TaskId}
  {task : Task} {a : Action}

/-- Ids are given out in order. -/
theorem nextId_le_step (hs : s.step? a = some s') : s.vault.nextId ≤ s'.vault.nextId := by
  cases stepped hs with
  | quiet _ hsame => exact UInt64.le_of_eq hsame.nextId.symm
  | create provider hn => exact UInt64.le_of_lt (AccountId.lt_add_one hn)
  | edit | spawn => exact UInt64.le_refl _
  | run _ hp => exact UInt64.le_of_eq (Task.stepped hp).ids.1.symm
  | fail e _ hr => exact UInt64.le_of_eq (Task.replied hr s.vault _ _).ids.1.symm
  | serve _ hr => exact UInt64.le_of_eq (Task.replied hr s.vault _ _).ids.1.symm

theorem nextId_le_run (s : System) (as : List Action) :
    s.vault.nextId ≤ (s.run as).vault.nextId :=
  run_induction (P := fun s' => s.vault.nextId ≤ s'.vault.nextId)
    (fun _ _ _ h hs => UInt64.le_trans h (nextId_le_step hs)) (UInt64.le_refl _) as

/-- An account whose commit waits for the mark has an id that was given out. -/
theorem Fitting.lt_nextId (hfit : s.Fitting) (hsound : s.Sound) {goal : Goal} {id : AccountId} {work : Work}
    {d : Draft} (ht : s.tasks[t]? = some (.working goal id work (.awaitingMark d))) :
    id < s.vault.nextId := by
  obtain ⟨-, -, a, ha, -⟩ := hfit.of_mark hsound ht (.inl rfl)
  exact hsound.orderly.fresh id (by rw [ha]; rfl)

namespace Marked

/-- A step that leaves the mark alone. -/
theorem congr (h : s.Marked loaded known) (hm : s'.vault.mark = s.vault.mark)
    (hn : s.vault.nextId ≤ s'.vault.nextId) (hc : s'.contents.mark = s.contents.mark)
    (hs : s'.marks = s.marks)
    (hpoints : ∀ (t : TaskId) task id p, s'.tasks[t]? = some task → task.place? = some (id, p) →
      p.Ahead s'.vault known id)
    (hsaved : ∀ id a, s'.vault.account? id = some a → a.state = .saved → known id = false →
      id < s.vault.mark) : s'.Marked loaded known := by
  refine ⟨?_, ?_, ?_, ?_, ?_, hpoints, ?_⟩
  · rw [hc, hs]
    exact h.stored
  · rw [hm, hc]
    exact h.mark
  · rw [hm]
    exact UInt64.le_trans h.le_nextId hn
  · rw [hs]
    exact h.raised
  · rw [hs, hm]
    exact h.top
  · rw [hm]
    exact hsaved

/-- Tasks keep their promises if one of them moves and the mark stays. -/
theorem points_record (h : s.Marked loaded known) {p : Progress}
    (hm : p.vault.mark = s.vault.mark) (hn : p.vault.nextId = s.vault.nextId)
    (hp : ∀ id q, p.task.place? = some (id, q) → q.Ahead p.vault known id) (u : TaskId) (task : Task)
    (id : AccountId) (q : Point) (hu : (s.record t p).tasks[u]? = some task)
    (hq : task.place? = some (id, q)) : q.Ahead p.vault known id := by
  rw [getElem?_record] at hu
  split at hu
  · cases hu
    exact hp id q hq
  · exact (h.points u task id q hu hq).mono hm (UInt64.le_of_eq hn.symm)

/-- The step of a task that asks nothing of the storage, or whose request failed. -/
theorem record (h : s.Marked loaded known) {p : Progress} (hm : p.vault.mark = s.vault.mark)
    (hn : p.vault.nextId = s.vault.nextId)
    (hp : ∀ id q, p.task.place? = some (id, q) → q.Ahead p.vault known id)
    (hsaved : ∀ id a, p.vault.account? id = some a → a.state = .saved → known id = false →
      id < s.vault.mark) : (s.record t p).Marked loaded known :=
  h.congr hm (UInt64.le_of_eq hn.symm) rfl rfl (h.points_record hm hn hp) hsaved

/-- The same, of a task that is at work on no account afterwards. -/
theorem record_done (h : s.Marked loaded known) {p : Progress} (hm : p.vault.mark = s.vault.mark)
    (hn : p.vault.nextId = s.vault.nextId) (hp : p.task.place? = none)
    (hsaved : ∀ id a, p.vault.account? id = some a → a.state = .saved → known id = false →
      id < s.vault.mark) : (s.record t p).Marked loaded known :=
  h.record hm hn (fun _ _ hq => absurd (hp.symm.trans hq) (by simp)) hsaved

theorem stepped {p : Progress} (h : s.Marked loaded known) (hsound : s.Sound) (hfit : s.Fitting)
    (ht : s.tasks[t]? = some task) (hp : Task.Stepped s.vault t task p) :
    (s.record t p).Marked loaded known := by
  cases hp with
  | pass _ h' => exact h.record_done rfl rfl h' h.saved
  | shut => exact h.record_done rfl rfl rfl h.saved
  | enqueue =>
    refine h.record rfl rfl (fun id q hq => ?_) h.saved
    cases hq
    exact trivial
  | enter goal hold hv =>
    cases hv with
    | refused | clean => exact h.record_done rfl rfl (Task.place?_conclude ..) h.saved
    | firstDraft | removal =>
      refine h.record rfl rfl (fun id q hq => ?_) h.saved
      cases hq
      exact trivial
    | @draft a ha hs =>
      refine h.record rfl rfl (fun id q hq => ?_) h.saved
      cases hq
      exact h.saved _ a ha hs
    | @discard a ha hs =>
      refine h.record_done rfl rfl (Task.place?_conclude ..) fun id b hb hsaved => ?_
      rcases Vault.of_account?_putAccount hb with ⟨-, rfl⟩ | hb
      · exact absurd hsaved (by simp)
      · exact h.saved id b hb hsaved
  | raise goal id work d hold hlt =>
    refine h.record rfl rfl (fun i q hq => ?_) h.saved
    cases hq
    exact ⟨hlt, UInt64.le_refl _, hfit.lt_nextId hsound ht⟩
  | skip goal id work d hold hlt =>
    refine h.record rfl rfl (fun i q hq => ?_) h.saved
    cases hq
    -- no id has been given out that is not below the mark
    exact fun _ => UInt64.lt_of_lt_of_le (hfit.lt_nextId hsound ht) (UInt64.not_lt.1 hlt)

theorem failed {p : Progress} {e : Fault} (h : s.Marked loaded known)
    (hp : Task.Replied s.vault t task (.error e) p) : (s.record t p).Marked loaded known := by
  cases hp with
  | markFailed | failed => exact h.record_done rfl rfl (Task.place?_conclude ..) h.saved

/-- The mark has been raised.  Nobody else was raising it. -/
theorem raised_to {goal : Goal} {id : AccountId} {work : Work} {d : Draft} {next : AccountId}
    (h : s.Marked loaded known) (hturn : s.InTurn)
    (ht : s.tasks[t]? = some (.working goal id work (.raisingMark d next)))
    (hm : s'.vault.mark = next) (hn : s'.vault.nextId = s.vault.nextId)
    (haccounts : s'.vault.accounts = s.vault.accounts) (hc : s'.contents.mark = some next)
    (hserved : s'.served = s.served ++ [.saveMark next])
    (htasks : ∀ u : TaskId, s'.tasks[u]? =
      if t = u then some (.working goal id work (.saving d)) else s.tasks[u]?) :
    s'.Marked loaded known := by
  obtain ⟨hlt, hle, hid⟩ := h.points t _ id _ ht rfl
  have hmarks : s'.marks = s.marks ++ [next] := by
    rw [marks, hserved, List.filterMap_append, marks]
    rfl
  have hbelow : ∀ m ∈ loaded.getD 0 :: s.marks, m < next := fun m hm =>
    UInt64.lt_of_le_of_lt (h.top m hm) hlt
  refine ⟨?_, ?_, ?_, ?_, ?_, ?_, ?_⟩
  · rw [hmarks, hc]
    simp
  · rw [hm, hc]
    rfl
  · rw [hm, hn]
    exact hle
  · rw [hmarks, ← List.cons_append]
    refine List.pairwise_append.2 ⟨h.raised, by simp, fun m hmem n hnext => ?_⟩
    obtain rfl := List.mem_singleton.1 hnext
    exact hbelow m hmem
  · rw [hmarks, hm, ← List.cons_append]
    intro m hmem
    rcases List.mem_append.1 hmem with hold | hnext
    · exact UInt64.le_of_lt (hbelow m hold)
    · exact UInt64.le_of_eq (List.mem_singleton.1 hnext)
  · intro u task i p hu hp
    rw [htasks] at hu
    split at hu
    · cases hu
      cases hp
      intro _
      rw [hm]
      exact hid
    · rename_i hne
      have hpoint := h.points u task i p hu hp
      cases p with
      | raisingMark f n =>
        have hholds : task.holds .mark = true := by simp [Task.holds, hp]
        exact absurd (hturn.eq_of_holds ht hu (by simp [Task.holds, Task.place?]) hholds) hne
      | saving f =>
        intro hk
        rw [hm]
        exact UInt64.lt_trans (hpoint hk) hlt
      | entering | awaitingMark | removing => exact trivial
  · intro i b hb hsaved hk
    rw [Vault.account?, haccounts] at hb
    rw [hm]
    exact UInt64.lt_trans (h.saved i b hb hsaved hk) hlt

/-- What the storage has served other than a mark. -/
theorem serve {p : Progress} {r : Request} (h : s.Marked loaded known)
    (hc : (s.contents.serve r).1.mark = s.contents.mark) (hr : ∀ next, r ≠ .saveMark next)
    (hm : p.vault.mark = s.vault.mark) (hn : p.vault.nextId = s.vault.nextId)
    (hp : p.task.place? = none)
    (hsaved : ∀ id a, p.vault.account? id = some a → a.state = .saved → known id = false →
      id < s.vault.mark) :
    Marked loaded known { s.record t p with
      contents := (s.contents.serve r).1, served := s.served ++ [r] } := by
  refine h.congr hm (UInt64.le_of_eq hn.symm) hc ?_
    (h.points_record hm hn fun _ _ hq => absurd (hp.symm.trans hq) (by simp)) hsaved
  cases r with
  | saveMark next => exact absurd rfl (hr next)
  | _ => simp [marks]

theorem step (h : s.Marked loaded known) (hsound : s.Sound) (hfit : s.Fitting)
    (hs : s.step? a = some s') : s'.Marked loaded known := by
  cases System.stepped hs with
  | quiet _ hsame =>
    refine h.congr hsame.mark (UInt64.le_of_eq hsame.nextId.symm) (by rw [hsame.contents])
      (by rw [marks, hsame.served, marks]) (fun u task id p hu hp => ?_) fun id b hb => ?_
    · rw [hsame.tasks] at hu
      exact (h.points u task id p hu hp).mono hsame.mark (UInt64.le_of_eq hsame.nextId.symm)
    · rw [Vault.account?, hsame.accounts] at hb
      exact h.saved id b hb
  | create provider hn =>
    have hlt : s.vault.nextId ≤ s.vault.nextId + 1 := nextId_le_step hs
    refine h.congr rfl hlt rfl rfl (fun u task id p hu hp => ?_) fun id b hb hsaved => ?_
    · exact (h.points u task id p hu hp).mono rfl hlt
    · rcases Vault.of_account?_putAccount hb with ⟨-, rfl⟩ | hb
      · exact absurd hsaved (by simp)
      · exact h.saved id b hb hsaved
  | @edit id e a a' ha _ he =>
    refine h.congr rfl (UInt64.le_refl _) rfl rfl (fun u task i p hu hp => ?_) fun i b hb hsaved => ?_
    · exact (h.points u task i p hu hp).mono rfl (UInt64.le_refl _)
    · rcases Vault.of_account?_putAccount hb with ⟨rfl, rfl⟩ | hb
      · exact h.saved id a ha (he.state_eq ▸ hsaved)
      · exact h.saved i b hb hsaved
  | @spawn u op hu =>
    refine h.congr rfl (UInt64.le_refl _) rfl rfl ?_ h.saved
    exact h.points_record (t := u) (p := ⟨s.vault, .starting op, []⟩) rfl rfl
      fun _ _ hq => absurd hq (by simp [Task.place?])
  | run ht hp => exact h.stepped hsound hfit ht (Task.stepped hp)
  | fail e ht hr => exact h.failed (Task.replied hr s.vault _ _)
  | @serve u task r ht hr =>
    have hrep := Task.replied hr s.vault u (.ok (s.contents.serve r).2)
    generalize task.answered s.vault u (.ok (s.contents.serve r).2) = p at hrep ⊢
    cases hrep with
    | marked =>
      cases hr
      exact h.raised_to hsound.orderly.inTurn ht rfl rfl rfl rfl rfl fun v => getElem?_record ..
    | saved goal id work d =>
      cases hr
      refine h.serve rfl (by simp) (by exact Vault.mark_recordSaved ..)
        (by exact Vault.nextId_recordSaved ..) (Task.place?_conclude ..) fun i b hb hsaved hk => ?_
      rcases Vault.of_account?_recordSaved hb with rfl | hb
      · exact h.points u _ id _ ht rfl hk
      · exact h.saved i b hb hsaved hk
    | removed goal id work =>
      cases hr
      refine h.serve rfl (by simp) (by exact Vault.mark_recordRemoved ..)
        (by exact Vault.nextId_recordRemoved ..) (Task.place?_conclude ..) fun i b hb hsaved hk => ?_
      rcases Vault.of_account?_recordRemoved hb with hdel | hb
      · exact absurd (hdel.symm.trans hsaved) (by simp)
      · exact h.saved i b hb hsaved hk

/-- The mark is never lowered. -/
theorem le_step (h : s.Marked loaded known) (hs : s.step? a = some s') :
    s.vault.mark ≤ s'.vault.mark := by
  cases System.stepped hs with
  | quiet _ hsame => exact UInt64.le_of_eq hsame.mark.symm
  | create | edit | spawn => exact UInt64.le_refl _
  | run _ hp =>
    cases Task.stepped hp with
    | pass | shut | enqueue | raise | skip => exact UInt64.le_refl _
    | enter _ _ hv => cases hv <;> exact UInt64.le_refl _
  | @fail u task r e _ hr =>
    have hrep := Task.replied hr s.vault u (.error e)
    generalize task.answered s.vault u (.error e) = p at hrep ⊢
    cases hrep <;> exact UInt64.le_refl _
  | @serve u task r ht hr =>
    have hrep := Task.replied hr s.vault u (.ok (s.contents.serve r).2)
    generalize task.answered s.vault u (.ok (s.contents.serve r).2) = p at hrep ⊢
    cases hrep with
    | marked => exact UInt64.le_of_lt (h.points u _ _ _ ht rfl).1
    | saved => exact UInt64.le_of_eq (Vault.mark_recordSaved ..).symm
    | removed => exact UInt64.le_of_eq (Vault.mark_recordRemoved ..).symm

theorem run (h : s.Marked loaded known) (hsound : s.Sound) (hfit : s.Fitting) (as : List Action) :
    (s.run as).Marked loaded known ∧ s.vault.mark ≤ (s.run as).vault.mark := by
  have hrun := run_induction (P := fun s' => s'.Sound ∧ s'.Fitting ∧ s'.Marked loaded known ∧
      s.vault.mark ≤ s'.vault.mark) ?_ ⟨hsound, hfit, h, UInt64.le_refl _⟩ as
  · exact hrun.2.2
  · intro s' s'' a ⟨hsound, hfit, hmarked, hle⟩ hs
    exact ⟨hsound.step hs, hfit.step hsound hs, hmarked.step hsound hfit hs,
      UInt64.le_trans hle (hmarked.le_step hs)⟩

end Marked

/-- A save of a record belongs to a task that has drafted it. -/
theorem exists_saving_of_call? {id : AccountId} {bytes : Bytes}
    (h : s.call? t = some (.save id bytes)) :
    ∃ goal work d, s.tasks[t]? = some (.working goal id work (.saving d)) := by
  obtain ⟨task, ht, hr⟩ := exists_of_call? h
  cases task with
  | working goal i work p =>
    cases p with
    | saving d =>
      cases hr
      exact ⟨goal, work, d, ht⟩
    | _ => exact absurd hr (by simp [Task.request?, Point.request?])
  | _ => exact absurd hr (by simp [Task.request?])

theorem exists_raising_of_call? {next : AccountId} (h : s.call? t = some (.saveMark next)) :
    ∃ goal id work d, s.tasks[t]? = some (.working goal id work (.raisingMark d next)) := by
  obtain ⟨task, ht, hr⟩ := exists_of_call? h
  cases task with
  | working goal id work p =>
    cases p with
    | raisingMark d n =>
      cases hr
      exact ⟨goal, id, work, d, ht⟩
    | _ => exact absurd hr (by simp [Task.request?, Point.request?])
  | _ => exact absurd hr (by simp [Task.request?])

/-- The mark is raised by one task at a time. -/
theorem InTurn.eq_of_call? (h : s.InTurn) {t' : TaskId} {next next' : AccountId}
    (ht : s.call? t = some (.saveMark next)) (ht' : s.call? t' = some (.saveMark next')) :
    t = t' := by
  have hholds : ∀ (goal : Goal) (id : AccountId) (work : Work) (d : Draft) (n : AccountId),
      (Task.working goal id work (.raisingMark d n)).holds .mark = true := by
    intros
    simp [Task.holds, Task.place?]
  obtain ⟨goal, id, work, d, ht⟩ := exists_raising_of_call? ht
  obtain ⟨goal', id', work', d', ht'⟩ := exists_raising_of_call? ht'
  exact h.eq_of_holds ht ht' (hholds ..) (hholds ..)

/-- A commit whose mark could not be raised is over, and nothing else has happened. -/
theorem step_of_markFailed {id : AccountId} {work : Work} {d : Draft} {next : AccountId}
    (ht : s.tasks[t]? = some (.working .report id work (.raisingMark d next))) (e : Fault) :
    let s' := s.step (.answer t (some e))
    s'.tasks[t]? = some (.finished (.error (.persistence (.fault e)))) ∧
      s'.contents = s.contents ∧ s'.vault.accounts = s.vault.accounts := by
  have hstep : s.step? (.answer t (some e)) = some (s.record t
      ((Task.working .report id work (.raisingMark d next)).answered s.vault t (.error e))) := by
    simp only [step?, answer?, ht, bind, Option.bind_some, Task.request?, Point.request?]
    rfl
  rw [step_of_step? hstep]
  exact ⟨tasks_record_self _, rfl, rfl⟩

end System

namespace Contents

variable {c : Contents} {options : Options} {catalog : Catalog} {v : Vault}

theorem mark_of_opened (hv : c.opened options catalog = .ok v) :
    v.mark = c.mark.getD 0 ∧ v.mark ≤ v.nextId := by
  rw [opened_eq] at hv
  cases hk : catalog.checkKeys options.keyLimit with
  | error e => rw [hk] at hv; cases hv
  | ok u =>
    cases hl : c.loadFrom (c.ids.mergeSort (· ≤ ·)) ∅ with
    | error e => rw [hk, hl] at hv; cases hv
    | ok accounts =>
      cases hf : Vault.idAfter (c.ids.mergeSort (· ≤ ·)) with
      | error e => rw [hk, hl, hf] at hv; cases hv
      | ok free =>
        rw [hk, hl, hf] at hv
        cases hv
        exact ⟨rfl, (le_nextId_ofAccounts ..).2⟩

/-- A run keeps the mark in step, if the vault went on from the stored one. -/
theorem Opens.marked_run (h : c.Opens v) (hmark : v.mark = c.mark.getD 0) (hle : v.mark ≤ v.nextId)
    (as : List Action) :
    ((System.start v c).run as).Marked c.mark fun id => (v.account? id).isSome := by
  have hstart : (System.start v c).Marked c.mark fun id => (v.account? id).isSome := by
    refine ⟨rfl, hmark, hle, List.pairwise_singleton .., fun m hm => ?_, fun t task _ _ ht => ?_,
      fun id a ha _ hk => ?_⟩
    · rw [List.mem_singleton.1 hm]
      exact UInt64.le_of_eq hmark.symm
    · exact absurd ht (by simp [System.start])
    · rw [show v.account? id = some a from ha] at hk
      exact absurd hk (by simp)
  exact (hstart.run (h.sound_start_run []) (h.fitting_run []) as).1

theorem marked_run (hv : c.opened options catalog = .ok v) (as : List Action) :
    ((System.start v c).run as).Marked c.mark fun id => (v.account? id).isSome :=
  (opens_of_opened hv).marked_run (mark_of_opened hv).1 (mark_of_opened hv).2 as

theorem mark_le_run (hv : c.opened options catalog = .ok v) (as bs : List Action) :
    ((System.start v c).run as).vault.mark ≤ ((System.start v c).run (as ++ bs)).vault.mark := by
  have h := opens_of_opened hv
  rw [System.run_append]
  exact ((marked_run hv as).run (h.sound_start_run as) (h.fitting_run as) bs).2

end Contents

/-- The marks that are written grow, from above the one that was loaded.  While an account that was not
loaded is being saved, the storage holds a mark above its id.  The mark is raised by one task at a time,
for a caller's commit of an unsaved account; if that fails, the commit is over without a save and the
account is still unsaved. -/
theorem mark_goes_ahead {c : Contents} {options : Options} {catalog : Catalog} {v : Vault}
    (hv : c.opened options catalog = .ok v) (as : List Action) :
    let s := (System.start v c).run as
    (c.mark.getD 0 :: s.marks).Pairwise (· < ·) ∧
    (∀ t id bytes, s.call? t = some (.save id bytes) → v.account? id = none →
      ∃ m, s.contents.mark = some m ∧ (m ∈ s.marks ∨ c.mark = some m) ∧ id < m) ∧
    ∀ t next, s.call? t = some (.saveMark next) →
      (∀ t' next', s.call? t' = some (.saveMark next') → t = t') ∧
      ∃ id d, s.tasks[t]? = some (.working .report id .commit (.raisingMark d next)) ∧
        ∀ e, let s' := s.step (.answer t (some e))
          s'.outcome? t = some (.error (.persistence (.fault e))) ∧
          (∀ later, s'.begunBy t later = []) ∧ s'.contents = s.contents ∧
          ∃ a, s'.vault.account? id = some a ∧ a.state = .unsaved := by
  intro s
  have hs : s.Sound := (Contents.opens_of_opened hv).sound_start_run as
  have hmarked : s.Marked c.mark fun id => (v.account? id).isSome := Contents.marked_run hv as
  refine ⟨hmarked.raised, fun t id bytes hcall hnew => ?_, fun t next hcall => ⟨fun t' next' hcall' =>
    hs.orderly.inTurn.eq_of_call? hcall hcall', ?_⟩⟩
  · obtain ⟨goal, work, d, ht⟩ := System.exists_saving_of_call? hcall
    have hlt : id < s.vault.mark := hmarked.points t _ id _ ht rfl (by simp [hnew])
    rw [hmarked.mark] at hlt
    have hstored := hmarked.stored
    cases hm : s.contents.mark with
    | none =>
      rw [hm] at hlt
      exact absurd hlt (by simp)
    | some m =>
      rw [hm] at hlt hstored
      refine ⟨m, rfl, ?_, hlt⟩
      cases hlast : s.marks.getLast? with
      | none =>
        rw [hlast] at hstored
        exact .inr hstored.symm
      | some m' =>
        rw [hlast] at hstored
        cases hstored
        exact .inl (List.mem_of_getLast? hlast)
  · obtain ⟨goal, id, work, d, ht⟩ := System.exists_raising_of_call? hcall
    have hfit : s.Fitting := (Contents.opens_of_opened hv).fitting_run as
    obtain ⟨rfl, rfl, a, ha, hunsaved⟩ := hfit.of_mark hs ht (.inr ⟨next, rfl⟩)
    refine ⟨id, d, ht, fun e => ?_⟩
    obtain ⟨htask, hcontents, haccounts⟩ := System.step_of_markFailed ht e
    refine ⟨System.outcome?_of_task htask, System.begunBy_of_finished htask, hcontents, a, ?_,
      hunsaved⟩
    rw [Vault.account?, haccounts]
    exact ha

/-- Two first commits race.  The first one fails to raise the mark and is over; the second one, which was
waiting, raises it above both ids before it saves its own account. -/
theorem mark_goes_ahead_of_race :
    let as : List Action := [.create "acme", .create "acme", .spawn 0 (.commit 1), .spawn 1 (.commit 2),
      .run 0, .run 0, .run 0, .run 1, .run 1]
    let failed : List Action := as ++ [.answer 0 (some (.refused .saveMark))]
    let raised : List Action := failed ++ [.run 1, .answer 1 none]
    let record := (Record.ofAccount 2 { provider := "acme" }).encode
    ((System.start {} ∅).run as).call? 0 = some (.saveMark 3) ∧
      ((System.start {} ∅).run failed).outcome? 0 =
        some (.error (.persistence (.fault (.refused .saveMark)))) ∧
      ((System.start {} ∅).run raised).marks = [3] ∧
      ((System.start {} ∅).run raised).call? 1 = some (.save 2 record) ∧
      ∃ m, ((System.start {} ∅).run raised).contents.mark = some m ∧ 2 < m := by
  intro as failed raised record
  have hv : (∅ : Contents).opened {} {} = .ok {} := Contents.opened_empty {} {} rfl
  have hcall : ((System.start {} ∅).run as).call? 0 = some (.saveMark 3) := by decide +kernel
  have hsave : ((System.start {} ∅).run raised).call? 1 = some (.save 2 record) := by decide +kernel
  obtain ⟨-, id, d, -, hfail⟩ := (mark_goes_ahead hv as).2.2 0 3 hcall
  have houtcome := (hfail (.refused .saveMark)).1
  rw [← System.run_concat] at houtcome
  obtain ⟨m, hm, -, hlt⟩ := (mark_goes_ahead hv raised).2.1 1 2 record hsave rfl
  exact ⟨hcall, houtcome, by decide +kernel, hsave, m, hm, hlt⟩

end AccountVault
