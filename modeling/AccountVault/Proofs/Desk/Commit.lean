import AccountVault.Proofs.Desk.Run

/-!
# Commits that go well

A task that was asked to commit an account is followed from the call to its result (`System.Commits`):
a commit that goes well either finds nothing to write, or has saved what it drew after the call
(`System.kept_of_committed`).
-/

namespace AccountVault

namespace System

/-! ### Chronicles only grow -/

theorem edits_note (id : AccountId) (s : System) (c : Chronicle) (a : Action) :
    c.edits <+: (c.note id s a).edits := by
  unfold Chronicle.note
  repeat' split
  all_goals first
    | exact List.prefix_rfl
    | exact List.prefix_append ..

theorem edits_chronicle (id : AccountId) (s : System) (c : Chronicle) (as : List Action) :
    c.edits <+: (s.chronicle id c as).edits := by
  induction as generalizing s c with
  | nil => exact List.prefix_rfl
  | cons a as ih =>
    refine List.IsPrefix.trans ?_ (ih _ _)
    split
    · exact edits_note id s c a
    · exact List.prefix_rfl

/-- What one task drew is not touched by others. -/
theorem drawn_note {id : AccountId} {s : System} {c : Chronicle} {a : Action} {t : TaskId}
    (h : a ≠ .run t) : (c.note id s a).drawn[t]? = c.drawn[t]? := by
  cases a with
  | run t' =>
    have ht : t' ≠ t := fun ht => h (by rw [ht])
    simp only [Chronicle.note]
    split
    · split
      · split
        · simp [Chronicle.draw, Std.ExtTreeMap.getElem?_insert, ht]
        · rfl
      · rfl
    · rfl
  | edit =>
    simp only [Chronicle.note]
    repeat' split
    all_goals rfl
  | answer t' fault =>
    cases fault with
    | some e => rfl
    | none =>
      simp only [Chronicle.note]
      repeat' split
      all_goals rfl
  | _ => rfl

/-! ### From the call to the result -/

/-- How far a task has got that was asked to commit an account after `n` edits. -/
inductive Commits (s : System) (c : Chronicle) (id : AccountId) (n : Nat) (t : TaskId) : Prop
  | starting (ht : s.tasks[t]? = some (.starting (.commit id)))
  | working (p : Point) (ht : s.tasks[t]? = some (.working .report id .commit p))
    (hp : p ≠ .removing)
    (hd : p.draft?.isSome → ∃ S, c.drawn[t]? = some S ∧ n ≤ S.edits)
  | finished (o : Outcome) (ht : s.tasks[t]? = some (.finished o))

variable {s s' : System} {c : Chronicle} {id : AccountId} {n : Nat} {t : TaskId}

theorem Commits.congr {c' : Chronicle} (h : s.Commits c id n t)
    (ht : s'.tasks[t]? = s.tasks[t]?) (hd : c'.drawn[t]? = c.drawn[t]?) :
    s'.Commits c' id n t := by
  cases h with
  | starting h => exact .starting (ht.trans h)
  | working p h hp hdr => exact .working p (ht.trans h) hp (by rw [hd]; exact hdr)
  | finished o h => exact .finished o (ht.trans h)

/-- The next step of a commit that takes no answer. -/
theorem Commits.run {p : Progress} {task : Task} (h : s.Commits c id n t) (hn : n ≤ c.edits.length)
    (ht : s.tasks[t]? = some task) (hp : task.step s.isCancelled s.vault t = some p) :
    (s.record t p).Commits (c.note id s (.run t)) id n t := by
  cases h with
  | starting h =>
    obtain rfl := Option.some.inj (ht.symm.trans h)
    cases hp
    exact .working .entering (tasks_record_self _) (by simp) (by simp [Point.draft?])
  | finished o h =>
    obtain rfl := Option.some.inj (ht.symm.trans h)
    exact absurd hp (by simp [Task.step])
  | working q h hq hd =>
    obtain rfl := Option.some.inj (ht.symm.trans h)
    cases Task.stepped hp with
    | pass h' | shut _ h' | enqueue _ _ _ h' => exact absurd h' (by simp [Task.place?])
    | enter _ hold hv =>
      have hdrawn : ∀ a, s.vault.account? id = some a →
          ∃ S, (c.note id s (.run t)).drawn[t]? = some S ∧ n ≤ S.edits := by
        intro a ha
        rw [note_run_commit c ht ha]
        exact ⟨_, Std.ExtTreeMap.getElem?_insert_self, hn⟩
      cases hv with
      | refused | clean => exact .finished _ (tasks_record_self _)
      | firstDraft ha | draft ha =>
        exact .working _ (tasks_record_self _) (by simp) fun _ => hdrawn _ ha
    | raise | skip =>
      refine .working _ (tasks_record_self _) (by simp) fun _ => ?_
      rw [note_run_eq_self id c ht (by simp)]
      exact hd rfl

/-- The next step of a commit after an answer. -/
theorem Commits.reply {p : Progress} {task : Task} {r : Request} {reply : Except Fault Reply}
    {c' : Chronicle} (h : s.Commits c id n t) (ht : s.tasks[t]? = some task)
    (hr : task.request? = some r) (hp : Task.Replied s.vault t task reply p)
    (hd : c'.drawn[t]? = c.drawn[t]?) : (s.record t p).Commits c' id n t := by
  cases h with
  | starting h | finished _ h =>
    obtain rfl := Option.some.inj (ht.symm.trans h)
    exact absurd hr (by simp [Task.request?])
  | working q h hq hdr =>
    obtain rfl := Option.some.inj (ht.symm.trans h)
    cases hp with
    | markFailed | failed | saved => exact .finished _ (tasks_record_self _)
    | removed => exact absurd rfl hq
    | marked =>
      refine .working _ (tasks_record_self _) (by simp) fun _ => ?_
      rw [hd]
      exact hdr rfl

theorem Commits.step {a : Action} (h : s.Commits c id n t) (hn : n ≤ c.edits.length)
    (hs : s.step? a = some s') : s'.Commits (c.note id s a) id n t := by
  have hsome : s.tasks[t]? ≠ none := by
    cases h with
    | starting h | working _ h | finished _ h => rw [h]; simp
  cases stepped hs with
  | quiet ha hsame =>
    refine h.congr (by rw [hsame.tasks]) (drawn_note ?_)
    rintro rfl
    exact absurd ha (by simp [Action.isQuiet])
  | create | edit => exact h.congr rfl (drawn_note (by simp))
  | @spawn t' op ht =>
    refine h.congr ?_ (drawn_note (by simp))
    refine tasks_record_of_ne ⟨s.vault, .starting op, []⟩ t ?_
    rintro rfl
    exact hsome ht
  | @run t' task p ht hp =>
    by_cases hi : t' = t
    · subst hi
      exact h.run hn ht hp
    · exact h.congr (tasks_record_of_ne _ _ hi) (drawn_note (by simpa using hi))
  | @fail t' task r e ht hr =>
    by_cases hi : t' = t
    · subst hi
      exact h.reply ht hr (Task.replied hr ..) rfl
    · exact h.congr (tasks_record_of_ne _ _ hi) rfl
  | @serve t' task r ht hr =>
    have hd : (c.note id s (.answer t' none)).drawn[t]? = c.drawn[t]? := drawn_note (by simp)
    by_cases hi : t' = t
    · subst hi
      exact (h.reply ht hr (Task.replied hr ..) hd).congr rfl rfl
    · exact h.congr (tasks_record_of_ne _ _ hi) hd

/-- A commit whose request failed has failed. -/
theorem outcome?_of_fault {v : Vault} {work : Work} {q : Point} {e : Fault} {p : Progress}
    (h : Task.Replied v t (.working .report id work q) (.error e) p) :
    p.task.outcome? = some (.error (.persistence (.fault e))) := by
  cases h <;> rfl

/-- A commit goes on after an answer, unless its record was saved. -/
theorem outcome?_of_answer {v : Vault} {q : Point} {reply : Reply} {p : Progress}
    (h : Task.Replied v t (.working .report id .commit q) (.ok reply) p) (hq : q ≠ .removing) :
    p.task.outcome? = none ∨ ∃ f, q = .saving f := by
  cases h with
  | marked => exact .inl rfl
  | saved => exact .inr ⟨_, rfl⟩
  | removed => exact absurd rfl hq

theorem outcome?_of_tasks (ht : s'.tasks[t]? = s.tasks[t]?) : s'.outcome? t = s.outcome? t := by
  rw [outcome?, ht, outcome?]

theorem outcome?_of_task {task : Task} (ht : s.tasks[t]? = some task) :
    s.outcome? t = task.outcome? := by
  rw [outcome?, ht, Option.bind_some]

/-- A commit that goes well leaves an account that is kept, as it was after the call or as it still is. -/
theorem kept_of_committed {a : Action} {m : Nat} (h : s.Commits c id n t)
    (hd : (s.desk id c).Sound id) (hs : s.step? a = some s') (hnone : s.outcome? t = none)
    (hok : s'.outcome? t = some (.ok m)) : ∃ S, (c.note id s a).kept = some S ∧
      (n ≤ S.edits ∨ ∃ b, s'.vault.account? id = some b ∧ S.account.Matches b) := by
  -- a step of somebody else brings no result
  have hother : s'.tasks[t]? ≠ s.tasks[t]? := by
    intro ht
    rw [outcome?_of_tasks ht, hnone] at hok
    exact absurd hok (by simp)
  -- and neither does one that leaves the task at work, or ends it with an error
  have hbusy : ∀ task : Task, s'.tasks[t]? = some task → task.outcome? ≠ some (.ok m) → False := by
    intro task ht hne
    rw [outcome?_of_task ht] at hok
    exact hne hok
  cases stepped hs with
  | quiet _ hsame => exact absurd (by rw [hsame.tasks]) hother
  | create | edit => exact absurd rfl hother
  | @spawn t' op ht =>
    by_cases hi : t' = t
    · subst hi
      cases h with
      | starting h | working _ h | finished _ h => exact absurd (ht.symm.trans h) (by simp)
    · exact absurd (tasks_record_of_ne ⟨s.vault, .starting op, []⟩ t hi) hother
  | @run t' task p ht hp =>
    by_cases hi : t' = t
    · subst hi
      cases h with
      | starting h =>
        obtain rfl := Option.some.inj (ht.symm.trans h)
        cases hp
        exact (hbusy _ (tasks_record_self _) (by simp [Task.start, Task.enqueue, Task.outcome?])).elim
      | finished o h =>
        obtain rfl := Option.some.inj (ht.symm.trans h)
        exact absurd hp (by simp [Task.step])
      | working q h _ _ =>
        obtain rfl := Option.some.inj (ht.symm.trans h)
        cases Task.stepped hp with
        | pass h' | shut _ h' | enqueue _ _ _ h' => exact absurd h' (by simp [Task.place?])
        | raise | skip => exact (hbusy _ (tasks_record_self _) (by simp [Task.outcome?])).elim
        | enter _ _ hv =>
          cases hv with
          | refused =>
            exact (hbusy _ (tasks_record_self _) (by simp [Task.proceed, Task.conclude, Task.outcome?,
              Except.map])).elim
          | firstDraft | draft =>
            exact (hbusy _ (tasks_record_self _) (by simp [Task.proceed, Task.outcome?])).elim
          | @clean b hb hst hclean =>
            obtain ⟨S, hS, hm⟩ := hd.kept_of_clean hb hst hclean
            refine ⟨S, ?_, .inr ⟨b, hb, hm⟩⟩
            rw [note_run_commit c ht hb]
            exact hS
    · exact absurd (tasks_record_of_ne _ t hi) hother
  | @fail t' task r e ht hr =>
    by_cases hi : t' = t
    · subst hi
      cases h with
      | starting h | finished _ h =>
        obtain rfl := Option.some.inj (ht.symm.trans h)
        exact absurd hr (by simp [Task.request?])
      | working q h _ _ =>
        obtain rfl := Option.some.inj (ht.symm.trans h)
        refine (hbusy _ (tasks_record_self _) ?_).elim
        rw [outcome?_of_fault (Task.replied hr ..)]
        simp
    · exact absurd (tasks_record_of_ne _ t hi) hother
  | @serve t' task r ht hr =>
    by_cases hi : t' = t
    · subst hi
      cases h with
      | starting h | finished _ h =>
        obtain rfl := Option.some.inj (ht.symm.trans h)
        exact absurd hr (by simp [Task.request?])
      | working q h hq hdr =>
        obtain rfl := Option.some.inj (ht.symm.trans h)
        rcases outcome?_of_answer (Task.replied hr s.vault t' _) hq with hgo | ⟨f, rfl⟩
        · exact (hbusy _ (tasks_record_self _) (by rw [hgo]; simp)).elim
        · cases hr
          obtain ⟨S, hS, hle⟩ := hdr rfl
          refine ⟨S, ?_, .inl hle⟩
          simp only [Chronicle.note, ht, Option.bind_some, Task.request?, Point.request?, if_true]
          exact hS
    · exact absurd (tasks_record_of_ne _ t hi) hother

end System

namespace Vault

variable {v : Vault} {c : Contents} {id : AccountId} {t : TaskId}

theorem history_append (v : Vault) (c : Contents) (id : AccountId) (as bs : List Action) :
    v.history c id (as ++ bs) =
      ((System.start v c).run as).chronicle id (v.history c id as) bs :=
  System.chronicle_append ..

theorem edits_history (v : Vault) (c : Contents) (id : AccountId) (as bs : List Action) :
    (v.history c id as).edits <+: (v.history c id (as ++ bs)).edits := by
  rw [history_append]
  exact System.edits_chronicle ..

/-- A task that was asked to commit an account is followed for as long as the run goes. -/
theorem commits_run {before : List Action}
    (ht : ((System.start v c).run before).tasks[t]? = none) (after : List Action) :
    ((System.start v c).run (before ++ .spawn t (.commit id) :: after)).Commits
      (v.history c id (before ++ .spawn t (.commit id) :: after)) id
      (v.history c id before).edits.length t := by
  induction after using List.reverseRecOn with
  | nil =>
    refine .starting ?_
    rw [System.run_concat, System.step, System.step?, ht]
    exact Std.ExtTreeMap.getElem?_insert_self
  | append_singleton after a ih =>
    have hsplit : before ++ .spawn t (.commit id) :: (after ++ [a]) =
        (before ++ .spawn t (.commit id) :: after) ++ [a] := by simp
    rw [hsplit, history_append, System.run_concat, System.chronicle, System.chronicle, System.step]
    cases hs : ((System.start v c).run (before ++ .spawn t (.commit id) :: after)).step? a with
    | none => exact ih
    | some s' => exact ih.step (edits_history ..).length_le hs

end Vault

end AccountVault
