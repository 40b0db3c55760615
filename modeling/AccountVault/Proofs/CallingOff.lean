import AccountVault.Proofs.System.Goals

/-!
# Calling off a flush

A flush whose token has been used begins no further save, but for one: if it stands in the queue for an
account's turn at that moment, it may still save this account (`flush_stops_when_called_off`).  So a
save can begin after the token was used (`save_begins_after_cancel`).
-/

namespace AccountVault

namespace Task

/-- How far a flush with a token can have got. -/
inductive Flushes (token : TokenId) : Task → Prop
  | starting : Flushes token (starting (.flush (some token)))
  | sweeping (sw : Sweep) (h : sw.token = some token) : Flushes token (sweeping sw)
  | working (sw : Sweep) (id : AccountId) (work : Work) (p : Point) (h : sw.token = some token) :
    Flushes token (working (.sweep sw) id work p)
  | draining (o : Outcome) : Flushes token (draining o)
  | finished (o : Outcome) : Flushes token (finished o)

/-- A flush that begins no save any more, once its token has been used. -/
inductive Stops (token : TokenId) : Task → Prop
  | starting : Stops token (starting (.flush (some token)))
  | sweeping (sw : Sweep) (h : sw.token = some token) : Stops token (sweeping sw)
  | saving (sw : Sweep) (id : AccountId) (work : Work) (d : Draft) (h : sw.token = some token) :
    Stops token (working (.sweep sw) id work (.saving d))
  | draining (o : Outcome) : Stops token (draining o)
  | finished (o : Outcome) : Stops token (finished o)

variable {s : System} {t : TaskId} {token : TokenId} {task : Task} {p : Progress}

theorem token_note (sw : Sweep) (r : Except Problem Unit) : (sw.note r).token = sw.token := by
  cases r with
  | ok => rfl
  | error e => cases e <;> rfl

/-- A step of a sweep keeps its token. -/
theorem flushes_advance {sw : Sweep} (h : sw.token = some token) (cancelled : TokenId → Bool)
    (v : Vault) : (advance cancelled v t sw).task.Flushes token := by
  rw [advance]
  split
  · split
    · exact .draining _
    · exact .finished _
  · split
    · exact .finished _
    · exact .working _ _ _ _ h

theorem Flushes.moved (h : task.Flushes token) (hm : task.Moved s t p) : p.task.Flushes token := by
  cases h with
  | working sw id work q hsw =>
    rcases hm.of_sweep with ⟨q', hp⟩ | ⟨r, hp⟩
    · rw [hp]
      exact .working _ _ _ _ hsw
    · rw [hp]
      exact .sweeping _ ((token_note ..).trans hsw)
  | starting =>
    cases hm with
    | step hp =>
      cases hp
      exact .sweeping _ rfl
    | reply hr => exact absurd hr (by simp [request?])
  | sweeping sw hsw =>
    cases hm with
    | step hp =>
      cases hp
      exact flushes_advance hsw _ _
    | reply hr => exact absurd hr (by simp [request?])
  | draining o =>
    cases hm with
    | step hp =>
      obtain ⟨-, rfl⟩ := step_draining hp
      exact .finished _
    | reply hr => exact absurd hr (by simp [request?])
  | finished o =>
    cases hm with
    | step hp => exact absurd hp (by simp [Task.step])
    | reply hr => exact absurd hr (by simp [request?])

/-- Between two accounts a used token stops a sweep. -/
theorem stops_advance {sw : Sweep} (h : sw.token = some token) {cancelled : TokenId → Bool}
    (hc : cancelled token = true) (v : Vault) :
    (advance cancelled v t sw).task.Stops token ∧ (advance cancelled v t sw).task.request? = none := by
  have hoff : isCalledOff cancelled sw = true := by
    rw [isCalledOff, h, Option.any_some, hc]
  rw [advance]
  split
  · split
    · exact ⟨.draining _, rfl⟩
    · exact ⟨.finished _, rfl⟩
  · rw [if_pos hoff]
    exact ⟨.finished _, rfl⟩

/-- A flush that stops comes to no request by what it does. -/
theorem Stops.moved (h : task.Stops token) (hc : s.isCancelled token = true) (hm : task.Moved s t p) :
    p.task.Stops token ∧ p.task.request? = none := by
  cases hm with
  | step hp =>
    cases h with
    | starting =>
      cases hp
      exact ⟨.sweeping _ rfl, rfl⟩
    | sweeping sw hsw =>
      cases hp
      exact stops_advance hsw hc _
    | saving => exact absurd hp (by simp [Task.step])
    | draining o =>
      obtain ⟨-, rfl⟩ := step_draining hp
      exact ⟨.finished _, rfl⟩
    | finished => exact absurd hp (by simp [Task.step])
  | reply hr hrep =>
    cases h with
    | starting | sweeping | draining | finished => exact absurd hr (by simp [request?])
    | saving sw id work d hsw =>
      cases hrep with
      | failed | saved => exact ⟨.sweeping _ ((token_note ..).trans hsw), rfl⟩

/-- A flush in the queue for an account comes to its turn: it is done with the account, or saves it. -/
theorem stops_entered {sw : Sweep} {id : AccountId} (hsw : sw.token = some token)
    (hr : s.Reached id .saved)
    (hp : (working (.sweep sw) id .commit .entering).step s.isCancelled s.vault t = some p) :
    p.task.Stops token ∧
      (p.task.request? = none ∨ ∃ bytes, p.task.request? = some (.save id bytes)) := by
  cases stepped hp with
  | pass h' | shut _ h' | enqueue _ _ _ h' => exact absurd h' (by simp [place?])
  | enter _ _ hv =>
    cases hv with
    | refused | clean => exact ⟨.sweeping _ ((token_note ..).trans hsw), .inl rfl⟩
    | draft => exact ⟨.saving sw id .commit _ hsw, .inr ⟨_, rfl⟩⟩
    | firstDraft ha hs =>
      -- all that a sweep goes over has been written
      obtain ⟨b, hb, hrank⟩ := hr
      obtain rfl := Option.some.inj (ha.symm.trans hb)
      rw [hs] at hrank
      exact absurd hrank (by decide)

end Task

namespace System

variable {s s' : System} {t : TaskId} {token : TokenId} {task : Task} {a : Action}

theorem flushes_run (hs : s.Sound) (ht : s.tasks[t]? = some task) (h : task.Flushes token)
    (as : List Action) : ∃ task', (s.run as).tasks[t]? = some task' ∧ task'.Flushes token :=
  follow (t := t) (P := fun _ task => task.Flushes token) (fun _ _ _ _ _ _ h => h)
    (fun _ _ _ _ _ _ _ _ hm _ h => h.moved hm) hs ht h as

theorem cancelled_of_accept {r : Except Problem Vault} (h : s.accept r = some s') :
    s'.cancelled = s.cancelled := by
  cases r with
  | ok => cases h; rfl
  | error => cases h

/-- A token that has been used stays so. -/
theorem isCancelled_step (h : s.isCancelled token = true) (hs : s.step? a = some s') :
    s'.isCancelled token = true := by
  suffices hsame : s'.cancelled = s.cancelled ∨ ∃ other, s'.cancelled = other :: s.cancelled by
    have hmem : token ∈ s.cancelled := List.contains_iff_mem.1 h
    refine List.contains_iff_mem.2 ?_
    rcases hsame with heq | ⟨other, heq⟩
    · rw [heq]
      exact hmem
    · rw [heq]
      exact List.mem_cons_of_mem _ hmem
  cases stepped hs with
  | create | edit | spawn | run | fail | serve => exact .inl rfl
  | quiet ha =>
    cases a with
    | cancel other =>
      cases hs
      exact .inr ⟨other, rfl⟩
    | setOverride => exact .inl (cancelled_of_accept hs)
    | clearOverride | subscribe | unsubscribe | dispatch =>
      cases hs
      exact .inl rfl
    | _ => exact absurd ha (by simp [Action.isQuiet])

/-- A flush that stops begins nothing. -/
theorem begunBy_of_stops (hc : s.isCancelled token = true) (ht : s.tasks[t]? = some task)
    (h : task.Stops token) (as : List Action) : s.begunBy t as = [] := by
  refine begunBy_eq_nil (P := fun s task => s.isCancelled token = true ∧ task.Stops token)
    (fun _ _ _ _ hs h => ⟨isCancelled_step h.1 hs, h.2⟩) ?_ ht ⟨hc, h⟩ as
  intro s s' a task p hs hm ⟨hc, h⟩
  obtain ⟨h', hnone⟩ := h.moved hc hm
  exact ⟨⟨isCancelled_step hc hs, h'⟩, hnone⟩

/-- A flush in the queue for an account begins at most a save of this account. -/
theorem begunBy_of_entering (hsound : s.Sound) (hc : s.isCancelled token = true) {sw : Sweep}
    {id : AccountId} (hsw : sw.token = some token) (hr : s.Reached id .saved)
    (ht : s.tasks[t]? = some (.working (.sweep sw) id .commit .entering)) (as : List Action) :
    s.begunBy t as = [] ∨ ∃ bytes, s.begunBy t as = [.save id bytes] := by
  induction as generalizing s with
  | nil => exact .inl rfl
  | cons a as ih =>
    rw [begunBy]
    cases hs : s.step? a with
    | none =>
      rw [begun_of_step?_eq_none hs, step_of_step?_eq_none hs]
      exact ih hsound hc hr ht
    | some s' =>
      have hc' := isCancelled_step hc hs
      rw [step_of_step? hs]
      rcases moved ht hs with ⟨ha, ht'⟩ | ⟨ha, p, hm, ht', -⟩
      · rw [begun_of_ne ha]
        exact ih (hsound.step hs) hc' (hr.step hsound hs) ht'
      · cases hm with
        | step hp =>
          obtain ⟨hstops, hreq⟩ := Task.stops_entered hsw hr hp
          rw [begun_of_step? hs ht' ha, begunBy_of_stops hc' ht' hstops]
          rcases hreq with hnone | ⟨bytes, hsave⟩
          · exact .inl (by rw [hnone]; rfl)
          · exact .inr ⟨bytes, by rw [hsave]; rfl⟩
        | reply hreq => exact absurd hreq (by simp [Task.request?, Point.request?])

/-- A flush stops between two accounts and after a save; otherwise it stands in the queue for an account
that has been written. -/
theorem stops_or_entering (hs : s.Sound) (hfit : s.Fitting) (ht : s.tasks[t]? = some task)
    (h : task.Flushes token) : task.Stops token ∨ ∃ sw id, sw.token = some token ∧
      s.Reached id .saved ∧ task = .working (.sweep sw) id .commit .entering := by
  cases h with
  | starting => exact .inl .starting
  | sweeping sw hsw => exact .inl (.sweeping sw hsw)
  | draining o => exact .inl (.draining o)
  | finished o => exact .inl (.finished o)
  | working sw id work p hsw =>
    obtain ⟨⟨rfl, hr, -⟩, hp⟩ := hfit t _ ht
    cases p with
    | entering => exact .inr ⟨sw, id, hsw, hr, rfl⟩
    | saving d => exact .inl (.saving sw id .commit d hsw)
    | removing => exact absurd hp (by simp [Point.Fits])
    | awaitingMark d => exact absurd (hfit.of_mark hs ht (.inl rfl)).1 (by simp)
    | raisingMark d next => exact absurd (hfit.of_mark hs ht (.inr ⟨next, rfl⟩)).1 (by simp)

end System

/-- Once the token of a flush has been used, the flush begins no save, unless it stands in the queue for
an account's turn: then it may still save this account, and nothing more.  A call that has begun, of a
flush or of any other task, goes on until it is answered, and can be answered well or not. -/
theorem flush_stops_when_called_off {c : Contents} {options : Options} {catalog : Catalog} {v : Vault}
    (hv : c.opened options catalog = .ok v) (before during : List Action) (t : TaskId)
    (token : TokenId) (ht : ((System.start v c).run before).tasks[t]? = none)
    (hc : ((System.start v c).run (before ++ .spawn t (.flush (some token)) :: during)).isCancelled
      token = true) :
    let s := (System.start v c).run (before ++ .spawn t (.flush (some token)) :: during)
    (∀ later, s.begunBy t later = [] ∨ ∃ sw id bytes,
      s.tasks[t]? = some (.working (.sweep sw) id .commit .entering) ∧
        s.begunBy t later = [.save id bytes]) ∧
    ∀ u r, s.call? u = some r →
      (∀ later, (∀ fault, .answer u fault ∉ later) → (s.run later).call? u = some r) ∧
      ∀ fault, ∃ s', s.step? (.answer u fault) = some s' := by
  intro s
  have h := Contents.opens_of_opened hv
  have hsound : s.Sound := h.sound_start_run _
  have hfit : s.Fitting := h.fitting_run _
  obtain ⟨task, htask, hflush⟩ : ∃ task, s.tasks[t]? = some task ∧ task.Flushes token := by
    have hstep := System.step?_spawn ht (.flush (some token))
    have hs₀ := (h.sound_start_run before).step hstep
    have hrun := System.flushes_run hs₀ Std.ExtTreeMap.getElem?_insert_self .starting during
    rw [← System.step_of_step? hstep, ← System.run_cons, ← System.run_append] at hrun
    exact hrun
  refine ⟨fun later => ?_, fun u r hcall => ⟨fun later hlater => System.call?_run hcall later hlater,
    System.exists_step?_answer hcall⟩⟩
  rcases System.stops_or_entering hsound hfit htask hflush with hstops | ⟨sw, id, hsw, hr, rfl⟩
  · exact .inl (System.begunBy_of_stops hc htask hstops later)
  · rcases System.begunBy_of_entering hsound hc hsw hr htask later with hnone | ⟨bytes, hsave⟩
    · exact .inl hnone
    · exact .inr ⟨sw, id, bytes, htask, hsave⟩

/-- Two accounts are to be flushed.  The token is used while the first is being saved: its save goes on,
and none is begun for the second. -/
theorem flush_stops_when_called_off_midway :
    let before : List Action := [.create "acme", .create "acme", .spawn 0 (.commit 1), .run 0, .run 0,
      .run 0, .answer 0 none, .answer 0 none, .spawn 1 (.commit 2), .run 1, .run 1, .run 1,
      .answer 1 none, .edit 1 (.rename "Ada"), .edit 2 (.rename "Bob")]
    let during : List Action := [.run 2, .run 2, .run 2, .cancel 7]
    let s := (System.start {} ∅).run (before ++ .spawn 2 (.flush (some 7)) :: during)
    let record := (Record.ofAccount 1 { provider := "acme", displayName := some "Ada" }).encode
    s.vault.dirtyIds = [1, 2] ∧ s.call? 2 = some (.save 1 record) ∧
      (∀ later, s.begunBy 2 later = []) ∧
      (s.run [.run 2, .cancel 7]).call? 2 = some (.save 1 record) ∧
      (s.run [.answer 2 none, .run 2]).outcome? 2 = some (.error .cancelled) := by
  intro before during s record
  have hv : (∅ : Contents).opened {} {} = .ok {} := Contents.opened_empty {} {} rfl
  have hcall : s.call? 2 = some (.save 1 record) := by decide +kernel
  have h := flush_stops_when_called_off hv before during 2 7 (by rfl) (by decide +kernel)
  refine ⟨by decide +kernel, hcall, fun later => ?_, ?_, by decide +kernel⟩
  · rcases h.1 later with hnone | ⟨sw, id, bytes, htask, -⟩
    · exact hnone
    · have hnone : s.call? 2 = none := System.call?_of_task htask
      exact absurd (hnone.symm.trans hcall) (by simp)
  · exact (h.2 2 _ hcall).1 [.run 2, .cancel 7] (by simp)

/-- A flush waits for the turn of an account that is being committed and edited meanwhile.  Its token is
used, the commit ends, and the flush begins a save. -/
theorem save_begins_after_cancel :
    let before : List Action := [.create "acme", .spawn 0 (.commit 1), .run 0, .run 0, .run 0,
      .answer 0 none, .answer 0 none, .edit 1 (.rename "Ada"), .spawn 1 (.commit 1), .run 1, .run 1,
      .edit 1 (.rename "Bob"), .spawn 2 (.flush (some 7)), .run 2, .run 2, .cancel 7]
    let s := (System.start {} ∅).run before
    s.isCancelled 7 = true ∧ s.call? 2 = none ∧
      s.begunBy 2 [.answer 1 none, .run 2] =
        [.save 1 (Record.ofAccount 1 { provider := "acme", displayName := some "Bob" }).encode] := by
  intro before s
  exact ⟨by decide +kernel, by decide +kernel, by decide +kernel⟩

end AccountVault
