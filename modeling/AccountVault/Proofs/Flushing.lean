import Mathlib.Data.List.Nodup
import AccountVault.Proofs.System.Sweeping
import AccountVault.Proofs.Waiting

/-!
# What a flush comes to

A flush goes over the accounts that are dirty when it begins, in the order of their ids, up to one before
which it finds its token used.  Each of these accounts is saved, keeps what it had, or is skipped because
another task has deleted it, and whatever else there is stays as it was (`flush_saves_what_was_dirty`).  So a
flush can count fewer accounts than were dirty (`flush_counts_fewer_than_were_dirty`).
-/

namespace AccountVault

/-! ### Deleted accounts -/

namespace Sweep

variable {sw : Sweep}

theorem failure_note_ne_stale (h : ∀ i, sw.failure ≠ some (.stale i)) (r : Except Problem Unit) :
    ∀ i, (sw.note r).failure ≠ some (.stale i) := by
  intro i
  cases r with
  | ok => exact h i
  | error e =>
    cases hf : sw.failure with
    | some e' =>
      rw [hf] at h
      cases e <;> simpa [note, hf] using h i
    | none => cases e <;> simp [note, hf]

theorem outcome_ne_stale (h : ∀ i, sw.failure ≠ some (.stale i)) :
    ∀ i, sw.outcome ≠ .error (.stale i) := by
  intro i
  rw [outcome]
  split
  · rename_i e hf
    rw [hf] at h
    simpa using h i
  · simp

end Sweep

namespace Task

variable {s : System} {t : TaskId} {task : Task} {p : Progress}

/-- A flush that does not end by complaining that an account has been deleted. -/
inductive Excuses : Task → Prop
  | starting (token : Option TokenId) : Excuses (starting (.flush token))
  | sweeping (sw : Sweep) (h : ∀ i, sw.failure ≠ some (.stale i)) : Excuses (sweeping sw)
  | working (sw : Sweep) (id : AccountId) (work : Work) (p : Point)
    (h : ∀ i, sw.failure ≠ some (.stale i)) : Excuses (working (.sweep sw) id work p)
  | draining (o : Outcome) (h : ∀ i, o ≠ .error (.stale i)) : Excuses (draining o)
  | finished (o : Outcome) (h : ∀ i, o ≠ .error (.stale i)) : Excuses (finished o)

theorem excuses_advance {sw : Sweep} (h : ∀ i, sw.failure ≠ some (.stale i))
    (cancelled : TokenId → Bool) (v : Vault) : (advance cancelled v t sw).task.Excuses := by
  have hover := Sweep.outcome_ne_stale h
  rw [advance]
  split
  · split
    · refine .draining _ fun i => ?_
      cases ho : sw.outcome with
      | ok n => simp [Except.map]
      | error e =>
        rw [ho] at hover
        simpa [Except.map] using hover i
    · exact .finished _ hover
  · split
    · exact .finished _ (by simp)
    · exact .working _ _ _ _ h

theorem Excuses.moved (h : task.Excuses) (hm : task.Moved s t p) : p.task.Excuses := by
  cases h with
  | working sw id work q h =>
    rcases hm.of_sweep with ⟨q', hp⟩ | ⟨r, hp⟩
    · rw [hp]
      exact .working _ _ _ _ h
    · rw [hp]
      exact .sweeping _ (Sweep.failure_note_ne_stale h r)
  | starting =>
    cases hm with
    | step hp =>
      cases hp
      exact .sweeping _ (by simp)
    | reply hr => exact absurd hr (by simp [request?])
  | sweeping sw h =>
    cases hm with
    | step hp =>
      cases hp
      exact excuses_advance h _ _
    | reply hr => exact absurd hr (by simp [request?])
  | draining o h =>
    cases hm with
    | step hp =>
      obtain ⟨-, rfl⟩ := step_draining hp
      exact .finished _ h
    | reply hr => exact absurd hr (by simp [request?])
  | finished o h =>
    cases hm with
    | step hp => exact absurd hp (by simp [Task.step])
    | reply hr => exact absurd hr (by simp [request?])

end Task

namespace System

variable {s u : System} {t : TaskId} {token : Option TokenId} {ws : List Visit} {j : List FlushEvent}
  {n : Nat} {o : Outcome} {exposed : AccountId → Bool} {w : Visit}

/-- Whatever happens meanwhile, a flush does not complain about deleted accounts. -/
theorem outcome?_flush_ne_stale (hs : s.Sound) (ht : s.tasks[t]? = some (.starting (.flush token)))
    (as : List Action) (id : AccountId) : (s.run as).outcome? t ≠ some (.error (.stale id)) := by
  obtain ⟨task, htask, h⟩ := follow (t := t) (P := fun _ task => task.Excuses)
    (fun _ _ _ _ _ _ h => h) (fun _ _ _ _ _ _ _ _ hm _ h => h.moved hm) hs ht (.starting token) as
  rw [outcome?_of_task htask]
  cases h with
  | finished o h => simpa [Task.outcome?] using h id
  | _ => simp [Task.outcome?]

/-! ### The end of a flush -/

namespace Sweeping

/-- What a flush ends with is told by what it has gone over and whether it has been called off. -/
theorem ends (h : s.Sweeping exposed t token u ws j n) (ho : u.outcome? t = some o) :
    ∃ left, s.vault.dirtyIds = ws.map Visit.id ++ left ∧
      j = ws.flatMap Visit.events ++ left.head?.toList.map (.look · true) ∧
      (left ≠ [] → o = .error .cancelled ∧ token.any u.isCancelled = true) ∧
      (left = [] → o = Visit.outcome ws) := by
  obtain ⟨task, ht, hplace⟩ := h.task
  rw [outcome?_of_task ht] at ho
  cases hplace with
  | cut id rest hrest hoff =>
    cases ho
    exact ⟨id :: rest, hrest, rfl, fun _ => ⟨rfl, hoff⟩, by simp⟩
  | done hall =>
    cases ho
    exact ⟨[], by simpa using hall, by simp, by simp, fun _ => rfl⟩
  | _ => exact absurd ho (by simp [Task.outcome?])

/-- For each account a flush acts three times at most. -/
theorem le_moves (h : s.Sweeping exposed t token u ws j n) : n ≤ 3 * s.vault.dirtyIds.length + 2 := by
  obtain ⟨task, -, hplace⟩ := h.task
  have hmoves := Visit.movesOver_le ws
  cases hplace with
  | sweeping rest hrest | entering id rest hrest | saving id rest a hrest | cut id rest hrest
  | done hrest =>
    have hlength := congrArg List.length hrest
    simp only [List.length_append, List.length_map, List.length_cons] at hlength
    omega

/-- Unless it has ended, a flush can go on, or another task holds the turn that it waits for. -/
theorem goes_on (h : s.Sweeping exposed t token u ws j n) (hline : u.InLine)
    (ho : u.outcome? t = none) : (∃ u', u.step? (.run t) = some u') ∨
      (∃ r, u.call? t = some r ∧ ∀ fault, ∃ u', u.step? (.answer t fault) = some u') ∨
      ∃ id ∈ s.vault.dirtyIds, ∃ t', t' ≠ t ∧ u.vault.turns.holder? (.account id) = some t' := by
  obtain ⟨task, ht, hplace⟩ := h.task
  rw [outcome?_of_task ht] at ho
  cases hplace with
  | sweeping => exact .inl ⟨_, step?_run ht rfl⟩
  | saving => exact .inr (.inl ⟨_, call?_of_task ht, exists_step?_answer (call?_of_task ht)⟩)
  | entering id rest hrest =>
    by_cases hhold : u.vault.turns.holder? (.account id) = some t
    · exact .inl ⟨_, step?_run ht (if_pos hhold)⟩
    · obtain ⟨t', -, hne, hholder, -⟩ := Waits.exists_holder ⟨_, ht, rfl, hhold⟩ hline
      refine .inr (.inr ⟨id, ?_, t', hne, hholder⟩)
      rw [hrest]
      exact List.mem_append_right _ List.mem_cons_self
  | cut | done => exact absurd ho (by simp [Task.outcome?])

end Sweeping

/-- The accounts that a flush has gone over are different ones. -/
theorem visit_eq_of_id_eq (h : ∃ left, s.vault.dirtyIds = ws.map Visit.id ++ left) {w' : Visit} (hw : w ∈ ws)
    (hw' : w' ∈ ws) (hid : w.id = w'.id) : w = w' := by
  obtain ⟨left, hleft⟩ := h
  have hsorted : s.vault.dirtyIds.Pairwise (· < ·) := pairwise_rosterWhere ..
  rw [hleft] at hsorted
  have hnodup : (ws.map Visit.id).Nodup :=
    (List.pairwise_append.1 hsorted).1.imp fun hlt => UInt64.ne_of_lt hlt
  exact List.inj_on_of_nodup_map hnodup hw hw' hid

namespace Swept

/-- An account that a flush has gone over is clean and stored as it is now, or else as it was, unless it has
been deleted. -/
theorem account_of_visit (h : s.Swept exposed u ws)
    (hrest : ∃ left, s.vault.dirtyIds = ws.map Visit.id ++ left) (hw : w ∈ ws) :
    u.Lost exposed w.id ∨ w.ending ≠ .skipped ∧ ∃ a, u.vault.account? w.id = some a ∧
      if w.isSaved then
        a.isDirty = false ∧ u.contents.record? w.id = some (Record.ofAccount w.id a).encode
      else a = w.account ∧ u.contents.record? w.id = s.contents.record? w.id := by
  by_cases hlost : u.Lost exposed w.id
  · exact .inl hlost
  · refine .inr ⟨fun hskipped => hlost (h.skipped w hw hskipped), w.after, ?_, ?_⟩
    · by_contra hne
      exact hlost ((h.visited w hw).lost hne)
    · split
      · rename_i hsaved
        rw [Visit.ofAccount_after]
        exact ⟨Visit.isDirty_after hsaved, (h.stored w hw hsaved).resolve_right hlost⟩
      · rename_i hnot
        refine ⟨if_neg hnot, (h.unstored w.id fun w' hw' hid => ?_).resolve_right hlost⟩
        rw [visit_eq_of_id_eq hrest hw' hw hid]
        exact Bool.eq_false_iff.2 hnot

/-- A flush that has gone well counts the accounts that it has gone over, if none of them was exposed. -/
theorem eq_length_of_outcome (h : s.Swept exposed u ws) (hsafe : ∀ w ∈ ws, exposed w.id = false)
    (ho : Visit.outcome ws = .ok n) : n = ws.length := by
  rw [Visit.outcome] at ho
  split at ho
  · exact absurd ho (by simp)
  · rename_i hfault
    have hall : ∀ w ∈ ws, w.isSaved = true := by
      intro w hw
      have hnone := List.findSome?_eq_none_iff.1 hfault w hw
      cases hend : w.ending with
      | saved => simp [Visit.isSaved, hend]
      | failed e => exact absurd hnone (by simp [Visit.fault?, hend])
      | skipped => exact absurd (h.skipped w hw hend).1 (by simp [hsafe w hw])
    rw [List.filter_eq_self.2 hall] at ho
    exact (Except.ok.inj ho).symm

end Swept

end System

/-- In every state that a vault can come to, a flush goes over the accounts that have been written and have
changes to be saved, in the order of their ids, each once, up to one before which it finds its token used.
Beside it nobody edits an account, and no task takes a step but those that delete exposed accounts; its saves
end in any way.  An account that it finds deleted is skipped without a request; every other one is saved.
One that is saved is clean then, stored as it is, and told of in one notice; one whose save failed stays as
it was, and so does whatever else there is, but for exposed accounts that others have deleted.  The flush
ends as cancelled if it has left an account out, and otherwise with the first failure, or how many accounts
it has saved, which are all that were dirty if none of them was exposed.  It acts a number of times that is
bounded by the number of dirty accounts, and until it has ended it can take a step, waits for a request that
can be answered, or waits for a turn that another task holds.  Whatever else happens meanwhile, it never
complains about a deleted account. -/
theorem flush_saves_what_was_dirty {c : Contents} {options : Options} {catalog : Catalog} {v : Vault}
    (hv : c.opened options catalog = .ok v) (before during : List Action) (t : TaskId)
    (token : Option TokenId) (exposed : AccountId → Bool)
    (ht : ((System.start v c).run before).tasks[t]? = some (.starting (.flush token)))
    (hduring : ((System.start v c).run before).sparesAll exposed t (.run t :: during) = true) :
    let s := (System.start v c).run before
    let s' := s.run (.run t :: during)
    let dirty := s.vault.dirtyIds
    (dirty.Pairwise (· < ·) ∧ ∀ id, id ∈ dirty ↔ s.vault.Unsettled id) ∧
    (∀ o, s'.outcome? t = some o → ∃ (walked : List Visit) (left : List AccountId),
      dirty = walked.map Visit.id ++ left ∧
      s.journal t (.run t :: during) =
        walked.flatMap Visit.events ++ left.head?.toList.map (.look · true) ∧
      s.Swept exposed s' walked ∧
      (∀ w ∈ walked, s'.Lost exposed w.id ∨ w.ending ≠ .skipped ∧
        ∃ a, s'.vault.account? w.id = some a ∧
          if w.isSaved then
            a.isDirty = false ∧ s'.contents.record? w.id = some (Record.ofAccount w.id a).encode
          else a = w.account ∧ s'.contents.record? w.id = s.contents.record? w.id) ∧
      (left ≠ [] → o = .error .cancelled ∧ token.any s'.isCancelled = true) ∧
      (left = [] → o = Visit.outcome walked ∧
        ((∀ id ∈ dirty, exposed id = false) → ∀ n, o = .ok n → n = dirty.length))) ∧
    s.moves t (.run t :: during) ≤ 3 * dirty.length + 2 ∧
    (s'.outcome? t = none → (∃ s'', s'.step? (.run t) = some s'') ∨
      (∃ r, s'.call? t = some r ∧ ∀ fault, ∃ s'', s'.step? (.answer t fault) = some s'') ∨
      ∃ id ∈ dirty, ∃ t', t' ≠ t ∧ s'.vault.turns.holder? (.account id) = some t') ∧
    ∀ as id, (s.run as).outcome? t ≠ some (.error (.stale id)) := by
  intro s s' dirty
  have hopens := Contents.opens_of_opened hv
  have hsound : s.Sound := hopens.sound_start_run before
  obtain ⟨ws, h⟩ := System.exists_sweeping hsound (hopens.fitting_run before) ht hduring
  refine ⟨⟨System.pairwise_rosterWhere .., fun id => ⟨System.unsettled_of_mem_dirtyIds hsound,
    Vault.mem_dirtyIds hsound⟩⟩, fun o ho => ?_, h.le_moves, h.goes_on (hsound.run _).inLine,
    System.outcome?_flush_ne_stale hsound ht⟩
  obtain ⟨left, hleft, hjournal, hcut, hdone⟩ := h.ends ho
  refine ⟨ws, left, hleft, hjournal, h.swept, fun w hw => h.swept.account_of_visit ⟨left, hleft⟩ hw,
    hcut, fun hnil => ⟨hdone hnil, fun hsafe n hn => ?_⟩⟩
  have hall : dirty = ws.map Visit.id := by
    rw [hnil, List.append_nil] at hleft
    exact hleft
  have hws : ∀ w ∈ ws, exposed w.id = false := by
    intro w hw
    refine hsafe w.id ?_
    rw [hall]
    exact List.mem_map_of_mem hw
  rw [h.swept.eq_length_of_outcome hws ((hdone hnil).symm.trans hn), hall, List.length_map]

/-- Three accounts are to be flushed.  The save of the first one fails, so that it stays as it was; the second
one is deleted by another task meanwhile, and skipped; the third one is saved all the same. -/
theorem flush_saves_what_was_dirty_of_deletion :
    let edits : List Action := [.create "acme", .create "acme", .create "acme", .spawn 0 (.commit 1),
      .run 0, .run 0, .run 0, .answer 0 none, .answer 0 none, .spawn 1 (.commit 2), .run 1, .run 1,
      .run 1, .answer 1 none, .spawn 2 (.commit 3), .run 2, .run 2, .run 2, .answer 2 none,
      .edit 1 (.rename "Ada"), .edit 2 (.rename "Bob"), .edit 3 (.rename "Cleo")]
    let before := edits ++ [.spawn 3 (.flush (some 7))]
    let during : List Action := [.run 3, .run 3, .spawn 4 (.delete 2), .run 4, .run 4, .answer 4 none,
      .answer 3 (some (.refused .save)), .run 3, .run 3, .run 3, .run 3, .answer 3 none, .run 3]
    let s := (System.start {} ∅).run before
    let s' := s.run (.run 3 :: during)
    s.vault.dirtyIds = [1, 2, 3] ∧ s.sparesAll (· = 2) 3 (.run 3 :: during) = true ∧
      s'.outcome? 3 = some (.error (.persistence (.fault (.refused .save)))) ∧
      s'.vault.account? 1 = s.vault.account? 1 ∧ s'.Reached 2 .deleted ∧
      (∃ a, s'.vault.account? 3 = some a ∧ a.isDirty = false ∧
        s'.contents.record? 3 = some (Record.ofAccount 3 a).encode) ∧
      ∀ as id, (s.run as).outcome? 3 ≠ some (.error (.stale id)) := by
  intro edits before during s s'
  have hv : (∅ : Contents).opened {} {} = .ok {} := Contents.opened_empty {} {} rfl
  have ht : s.tasks[3]? = some (.starting (.flush (some 7))) := by
    have hnone : ((System.start {} ∅).run edits).tasks[3]? = none :=
      Option.isNone_iff_eq_none.1 (by decide +kernel)
    show ((System.start {} ∅).run (edits ++ [_])).tasks[3]? = _
    rw [System.run_append, System.run_cons, System.run_nil,
      System.step_of_step? (System.step?_spawn hnone _)]
    exact Std.ExtTreeMap.getElem?_insert_self
  have hdirty : s.vault.dirtyIds = [1, 2, 3] := by decide +kernel
  have hduring : s.sparesAll (· = 2) 3 (.run 3 :: during) = true := by decide +kernel
  have houtcome : s'.outcome? 3 = some (.error (.persistence (.fault (.refused .save)))) := by
    decide +kernel
  have hjournal : s.journal 3 (.run 3 :: during) =
      [.look 1 false,
        .call (.save 1 (Record.ofAccount 1 { provider := "acme", displayName := some "Ada" }).encode),
        .ended (some (.refused .save)), .look 2 false, .look 3 false,
        .call (.save 3 (Record.ofAccount 3 { provider := "acme", displayName := some "Cleo" }).encode),
        .ended none] := by decide +kernel
  obtain ⟨-, hends, -, -, hstale⟩ := flush_saves_what_was_dirty hv before during 3 (some 7) (· = 2) ht
    hduring
  obtain ⟨walked, left, hwalked, htold, hswept, hafter, hcut, -⟩ := hends _ houtcome
  have hleft : left = [] := by
    by_contra hne
    exact absurd (hcut hne).1 (by simp)
  subst hleft
  obtain ⟨w₁, w₂, w₃, rfl⟩ : ∃ w₁ w₂ w₃, walked = [w₁, w₂, w₃] := by
    have hlength := congrArg List.length (hdirty.symm.trans hwalked)
    rw [List.append_nil, List.length_map] at hlength
    exact List.length_eq_three.1 hlength.symm
  have hids := hdirty.symm.trans hwalked
  simp only [List.map_cons, List.map_nil, List.append_nil, List.cons.injEq, and_true] at hids
  obtain ⟨h₁, h₂, h₃⟩ := hids
  rw [hjournal] at htold
  -- the journal tells how each account was left
  have hending : w₁.ending = .failed (.refused .save) ∧ w₂.ending = .skipped ∧ w₃.ending = .saved := by
    cases e₁ : w₁.ending <;> cases e₂ : w₂.ending <;> cases e₃ : w₃.ending <;>
      simp [Visit.events, e₁, e₂, e₃] at htold
    obtain ⟨-, -, hfault, -⟩ := htold
    exact ⟨by rw [hfault], rfl, rfl⟩
  obtain ⟨e₁, e₂, e₃⟩ := hending
  obtain ⟨-, a, ha, hfailed⟩ := (hafter w₁ (by simp)).resolve_left (by simp [System.Lost, ← h₁])
  obtain ⟨-, a', ha', hsaved⟩ := (hafter w₃ (by simp)).resolve_left (by simp [System.Lost, ← h₃])
  have hold := hswept.found w₁ (by simp)
  have hlost := (hswept.skipped w₂ (by simp) e₂).2
  rw [if_neg (by simp [Visit.isSaved, e₁])] at hfailed
  rw [if_pos (by simp [Visit.isSaved, e₃])] at hsaved
  rw [← h₁] at ha hold
  rw [← h₂] at hlost
  rw [← h₃] at ha' hsaved
  exact ⟨hdirty, hduring, houtcome, ha.trans (hfailed.1 ▸ hold.symm), hlost, ⟨a', ha', hsaved⟩, hstale⟩

/-- A flush goes well that has found one of two dirty accounts deleted, and counts one. -/
theorem flush_counts_fewer_than_were_dirty :
    let before : List Action := [.create "acme", .create "acme", .spawn 0 (.commit 1), .run 0, .run 0,
      .run 0, .answer 0 none, .answer 0 none, .spawn 1 (.commit 2), .run 1, .run 1, .run 1,
      .answer 1 none, .edit 1 (.rename "Ada"), .edit 2 (.rename "Bob"), .spawn 2 (.flush none)]
    let during : List Action := [.run 2, .run 2, .spawn 3 (.deleteFound 2), .run 3, .run 3,
      .answer 3 none, .answer 2 none, .run 2, .run 2, .run 2]
    let s := (System.start {} ∅).run before
    s.vault.dirtyIds = [1, 2] ∧ s.sparesAll (· = 2) 2 (.run 2 :: during) = true ∧
      (s.run (.run 2 :: during)).outcome? 2 = some (.ok 1) := by
  intro before during s
  exact ⟨by decide +kernel, by decide +kernel, by decide +kernel⟩

end AccountVault
