import AccountVault.Proofs.CallingOff
import AccountVault.Proofs.System.Visits

/-!
# Following a flush

What can be told of a flush is a list of events: that it looks at its token before an account, the
requests that it begins, and how they end (`System.journal`).  As long as others at most delete exposed
accounts, the place that the flush has got to is told by the visits so far (`Task.Sweeps`), and each step
adds to them (`System.Sweeping.run`).
-/

namespace AccountVault

/-- What can be told of a flush. -/
inductive FlushEvent
  /-- It looks before an account whether its token has been used. -/
  | look (id : AccountId) (calledOff : Bool)
  | call (r : Request)
  | ended (fault : Option Fault)
  deriving DecidableEq

namespace Visit

/-- What is told of a flush while it goes over an account. -/
def events (w : Visit) : List FlushEvent :=
  match w.ending with
  | .saved => [.look w.id false, .call w.request, .ended none]
  | .failed e => [.look w.id false, .call w.request, .ended (some e)]
  | .skipped => [.look w.id false]

/-- How often a flush acts while it goes over an account. -/
def moves (w : Visit) : Nat := if w.ending = .skipped then 2 else 3

/-- How often a flush acts while it goes over accounts. -/
def movesOver : List Visit → Nat
  | [] => 0
  | w :: ws => w.moves + movesOver ws

theorem movesOver_concat (ws : List Visit) (w : Visit) : movesOver (ws ++ [w]) = movesOver ws + w.moves := by
  induction ws with
  | nil => simp [movesOver]
  | cons v ws ih => rw [List.cons_append, movesOver, movesOver, ih, Nat.add_assoc]

theorem movesOver_le (ws : List Visit) : movesOver ws ≤ 3 * ws.length := by
  induction ws with
  | nil => simp [movesOver]
  | cons w ws ih =>
    have hw : w.moves ≤ 3 := by
      unfold moves
      split <;> omega
    rw [movesOver, List.length_cons]
    omega

end Visit

namespace Task

/-- What is told of a task when it acts. -/
def tells (cancelled : TokenId → Bool) : Task → Action → List FlushEvent
  | _, .answer _ fault => [.ended fault]
  | sweeping sw, _ => (sw.rest.head?.map (.look · (isCalledOff cancelled sw))).toList
  | _, _ => []

/-- How far a flush has got that goes over the accounts that it found dirty, what has been told of it and
how often it has acted. -/
inductive Sweeps (s : System) (token : Option TokenId) (u : System) (ws : List Visit) :
    Task → List FlushEvent → Nat → Prop
  | sweeping (rest : List AccountId) (h : s.vault.dirtyIds = ws.map Visit.id ++ rest) :
    Sweeps s token u ws (sweeping (.past token ws rest)) (ws.flatMap Visit.events)
      (Visit.movesOver ws + 1)
  | entering (id : AccountId) (rest : List AccountId)
    (h : s.vault.dirtyIds = ws.map Visit.id ++ id :: rest) :
    Sweeps s token u ws (working (.sweep (.past token ws rest)) id .commit .entering)
      (ws.flatMap Visit.events ++ [.look id false]) (Visit.movesOver ws + 2)
  | saving (id : AccountId) (rest : List AccountId) (a : Account)
    (h : s.vault.dirtyIds = ws.map Visit.id ++ id :: rest) (ha : s.vault.account? id = some a) :
    Sweeps s token u ws (working (.sweep (.past token ws rest)) id .commit (.saving (.ofAccount id a)))
      (ws.flatMap Visit.events ++ [.look id false, .call (.save id (Record.ofAccount id a).encode)])
      (Visit.movesOver ws + 3)
  | cut (id : AccountId) (rest : List AccountId)
    (h : s.vault.dirtyIds = ws.map Visit.id ++ id :: rest) (hoff : token.any u.isCancelled = true) :
    Sweeps s token u ws (finished (.error .cancelled)) (ws.flatMap Visit.events ++ [.look id true])
      (Visit.movesOver ws + 2)
  | done (h : s.vault.dirtyIds = ws.map Visit.id) :
    Sweeps s token u ws (finished (Visit.outcome ws)) (ws.flatMap Visit.events)
      (Visit.movesOver ws + 2)

end Task

namespace System

variable {s s' u : System} {t : TaskId} {a : Action} {ws : List Visit} {task : Task}
  {exposed : AccountId → Bool} {id : AccountId} {rest : List AccountId} {b : Account}

/-! ### The journal -/

/-- What is told of a task by an action: what it tells, and the request that it begins. -/
def entry (s : System) (t : TaskId) (a : Action) : List FlushEvent :=
  (if a.task? = some t ∧ (s.step? a).isSome then
    (s.tasks[t]?.map fun task => task.tells s.isCancelled a).getD [] else []) ++
    (s.begun t a).map .call

/-- All that is told of a task along a run. -/
def journal (t : TaskId) : System → List Action → List FlushEvent
  | _, [] => []
  | s, a :: as => s.entry t a ++ journal t (s.step a) as

/-- Whether a task acts by an action, as a number. -/
def acts (s : System) (t : TaskId) (a : Action) : Nat :=
  if a.task? = some t ∧ (s.step? a).isSome then 1 else 0

/-- How often a task acts along a run. -/
def moves (t : TaskId) : System → List Action → Nat
  | _, [] => 0
  | s, a :: as => s.acts t a + moves t (s.step a) as

theorem entry_of_ne (ha : a.task? ≠ some t) : s.entry t a = [] := by
  rw [entry, if_neg fun h => ha h.1, begun_of_ne ha]
  rfl

theorem entry_of_step?_eq_none (hs : s.step? a = none) : s.entry t a = [] := by
  rw [entry, if_neg fun h => absurd h.2 (by simp [hs]), begun_of_step?_eq_none hs]
  rfl

theorem entry_of_step? {task' : Task} (hs : s.step? a = some s') (ha : a.task? = some t)
    (ht : s.tasks[t]? = some task) (ht' : s'.tasks[t]? = some task') :
    s.entry t a = task.tells s.isCancelled a ++ task'.request?.toList.map .call := by
  rw [entry, if_pos ⟨ha, by rw [hs]; rfl⟩, begun_of_step? hs ht' ha, ht]
  rfl

theorem acts_of_ne (ha : a.task? ≠ some t) : s.acts t a = 0 := if_neg fun h => ha h.1

theorem acts_of_step? (hs : s.step? a = some s') (ha : a.task? = some t) : s.acts t a = 1 :=
  if_pos ⟨ha, by rw [hs]; rfl⟩

theorem acts_of_step?_eq_none (hs : s.step? a = none) : s.acts t a = 0 :=
  if_neg fun h => absurd h.2 (by simp [hs])

/-! ### The walk -/

theorem unsettled_of_mem_dirtyIds (hs : s.Sound) (h : id ∈ s.vault.dirtyIds) : s.vault.Unsettled id := by
  obtain ⟨hfinds, a, ha, hdirty⟩ := Vault.mem_rosterWhere_iff.1 h
  obtain ⟨b, hb, hsaved⟩ := hs.finds_iff.1 hfinds
  obtain rfl := Option.some.inj (ha.symm.trans hb)
  exact ⟨a, ha, hsaved, hdirty⟩

/-- The accounts that are listed are listed in the order of their ids, each once. -/
theorem pairwise_rosterWhere (v : Vault) (p : Account → Bool) :
    (v.rosterWhere p).Pairwise (· < ·) := by
  have hsorted : v.roster.toList.Pairwise fun i j => compare i j = .lt := Std.ExtTreeSet.ordered_toList
  exact (hsorted.imp fun h => compareOfLessAndEq_eq_lt.1 h).filter _

/-- An account that a flush has still to go over is none of those that it has gone over. -/
theorem id_ne_of_rest (h : s.vault.dirtyIds = ws.map Visit.id ++ id :: rest) {w : Visit} (hw : w ∈ ws) :
    w.id ≠ id := by
  have hsorted := pairwise_rosterWhere s.vault Account.isDirty
  rw [show s.vault.rosterWhere Account.isDirty = _ from h] at hsorted
  have hlt := (List.pairwise_append.1 hsorted).2.2 w.id (List.mem_map_of_mem hw) id List.mem_cons_self
  exact UInt64.ne_of_lt hlt

/-- Until a flush comes to an account, the account is as it was, or deleted. -/
theorem Swept.has_of_rest (hswept : s.Swept exposed u ws)
    (h : s.vault.dirtyIds = ws.map Visit.id ++ id :: rest) (hb : s.vault.account? id = some b) :
    u.Has exposed id b :=
  hswept.others id b hb fun _ hw => id_ne_of_rest h hw

/-- Where an account is still saved, it is as given. -/
theorem Has.eq_of_saved {a : Account} (h : u.Has exposed id a) (hb : u.vault.account? id = some b)
    (hs : b.state = .saved) : u.vault.account? id = some a := by
  rcases h with h | ⟨-, h⟩
  · exact h
  · obtain rfl := Option.some.inj (hb.symm.trans h)
    exact absurd hs (by simp)

/-- The holder of the turn of an account that is still to be saved finds what to save. -/
theorem enter_of_unsettled {v : Vault} (hb : v.account? id = some b) (hs : b.state = .saved)
    (hdirty : b.isDirty = true) :
    v.enter id .commit = (v, .paused (.saving (.ofAccount id b))) := by
  have hlive : v.live id = .ok b := Vault.live_eq_ok_iff.2 ⟨hb, by simp [hs]⟩
  simp [Vault.enter, Vault.draft?, hlive, hs, hdirty, bind, Except.bind, pure, Except.pure,
    Draft.ofAccount]

end System

namespace Task

variable {s u u' : System} {t : TaskId} {token : Option TokenId} {task : Task} {ws : List Visit}
  {j : List FlushEvent} {n : Nat} {p : Progress} {exposed : AccountId → Bool} {a : Action}

/-- What others do does not move a flush. -/
theorem Sweeps.still (h : task.Sweeps s token u ws j n) (hs : u.step? a = some u') :
    task.Sweeps s token u' ws j n := by
  cases h with
  | sweeping rest h => exact .sweeping rest h
  | entering id rest h => exact .entering id rest h
  | saving id rest a h ha => exact .saving id rest a h ha
  | cut id rest h hoff =>
    cases token with
    | none => exact absurd hoff (by simp)
    | some i => exact .cut id rest h (System.isCancelled_step hoff hs)
  | done h => exact .done h

/-- A flush that is done with an account goes on to the rest. -/
theorem sweeps_conclude {w : Visit} {rest : List AccountId} (token : Option TokenId) (u : System)
    (h : s.vault.dirtyIds = ws.map Visit.id ++ w.id :: rest) :
    (conclude (.sweep (.past token ws rest)) w.result).Sweeps s token u (ws ++ [w])
      (ws.flatMap Visit.events ++ w.events) (Visit.movesOver ws + w.moves + 1) := by
  have hrest : s.vault.dirtyIds = (ws ++ [w]).map Visit.id ++ rest := by
    rw [h, List.map_append, List.append_assoc]
    rfl
  have hnext : (Task.sweeping (.past token (ws ++ [w]) rest)).Sweeps s token u _ _ _ :=
    .sweeping rest hrest
  rw [conclude, Sweep.note_past, ← Visit.movesOver_concat]
  simpa using hnext

/-- At the turn of an account a flush saves it, or skips it if it has been deleted. -/
theorem sweeps_enter {id : AccountId} {rest : List AccountId} (hsound : s.Sound)
    (hswept : s.Swept exposed u ws) (h : s.vault.dirtyIds = ws.map Visit.id ++ id :: rest)
    (hp : (working (.sweep (.past token ws rest)) id .commit .entering).step u.isCancelled u.vault t =
      some p) :
    ∃ ws', s.Swept exposed (u.record t p) ws' ∧
      p.task.Sweeps s token (u.record t p) ws'
        (ws.flatMap Visit.events ++ [.look id false] ++ p.task.request?.toList.map .call)
        (Visit.movesOver ws + 2 + 1) := by
  obtain ⟨-, rfl⟩ := step_entering hp
  obtain ⟨b, hb, hsaved, hdirty⟩ :=
    System.unsettled_of_mem_dirtyIds hsound (h ▸ List.mem_append_right _ List.mem_cons_self)
  have hhas := hswept.has_of_rest h hb
  by_cases hsame : u.vault.account? id = some b
  · rw [System.enter_of_unsettled hsame hsaved hdirty]
    refine ⟨ws, hswept.still (.record rfl rfl), ?_⟩
    rw [List.append_assoc]
    exact .saving id rest b h hb
  · have hlost := hhas.lost hsame
    rw [Vault.enter_of_dead fun _ => hlost.2.state_eq]
    have hskip := hswept.pass (w := ⟨id, b, .skipped⟩) hb rfl hhas fun _ => hlost
    refine ⟨_, hskip.still (.record rfl rfl), ?_⟩
    rw [List.append_assoc]
    exact sweeps_conclude (w := ⟨id, b, .skipped⟩) token _ h

/-- A step of its own leads a flush to the next place. -/
theorem Sweeps.step (h : task.Sweeps s token u ws j n) (hsound : s.Sound) (hswept : s.Swept exposed u ws)
    (hp : task.step u.isCancelled u.vault t = some p) :
    ∃ ws', s.Swept exposed (u.record t p) ws' ∧ p.task.Sweeps s token (u.record t p) ws'
      (j ++ (task.tells u.isCancelled (.run t) ++ p.task.request?.toList.map .call)) (n + 1) := by
  cases h with
  | sweeping rest h =>
    cases hp
    cases rest with
    | nil =>
      rw [List.append_nil] at h
      have hdone : advance u.isCancelled u.vault t (.past token ws []) =
          ⟨u.vault, finished (Visit.outcome ws), []⟩ := by
        rw [← Sweep.outcome_past token ws []]
        rfl
      rw [hdone]
      refine ⟨ws, hswept.still (.record rfl rfl), ?_⟩
      simpa [tells, Sweep.past, request?] using Sweeps.done h
    | cons id rest =>
      by_cases hoff : isCalledOff u.isCancelled (.past token ws (id :: rest)) = true
      · have hcut : advance u.isCancelled u.vault t (.past token ws (id :: rest)) =
            ⟨u.vault, finished (.error .cancelled), []⟩ := if_pos hoff
        rw [hcut]
        refine ⟨ws, hswept.still (.record rfl rfl), ?_⟩
        simp only [tells, hoff]
        exact .cut id rest h hoff
      · have henter : advance u.isCancelled u.vault t (.past token ws (id :: rest)) =
            enqueue u.vault t (.sweep (.past token ws rest)) id .commit := if_neg hoff
        rw [henter]
        refine ⟨ws, hswept.still (.record rfl rfl), ?_⟩
        simp only [tells, hoff]
        exact .entering id rest h
  | entering id rest h => exact sweeps_enter hsound hswept h hp
  | saving | cut | done => exact absurd hp (by simp [Task.step])

end Task

namespace System

variable {s u u' : System} {t : TaskId} {a : Action} {ws : List Visit} {token : Option TokenId}
  {j : List FlushEvent} {n : Nat} {exposed : AccountId → Bool}

/-- Whether there is nothing along a run but steps of a flush and what may happen beside it. -/
def sparesAll (exposed : AccountId → Bool) (t : TaskId) : System → List Action → Bool
  | _, [] => true
  | s, a :: as => (decide (a.task? = some t) || s.spares exposed a) && sparesAll exposed t (s.step a) as

/-- A flush and what it has done so far. -/
structure Sweeping (exposed : AccountId → Bool) (s : System) (t : TaskId) (token : Option TokenId)
    (u : System) (ws : List Visit) (j : List FlushEvent) (n : Nat) : Prop where
  swept : s.Swept exposed u ws
  task : ∃ task, u.tasks[t]? = some task ∧ task.Sweeps s token u ws j n

namespace Sweeping

/-- What others do meanwhile. -/
theorem aside (h : s.Sweeping exposed t token u ws j n) (hs : u.step? a = some u')
    (hu : u.Still exposed u') (hne : a.task? ≠ some t) : s.Sweeping exposed t token u' ws j n := by
  obtain ⟨task, ht, hplace⟩ := h.task
  refine ⟨h.swept.still hu, task, ?_, hplace.still hs⟩
  exact (tasks_of_task?_ne (by simp [ht]) hs hne).trans ht

/-- What the flush itself does. -/
theorem own (h : s.Sweeping exposed t token u ws j n) (hsound : s.Sound) (husound : u.Sound)
    (hfit : u.Fitting) (hs : u.step? a = some u') (ha : a.task? = some t) :
    ∃ ws', s.Sweeping exposed t token u' ws' (j ++ u.entry t a) (n + 1) := by
  obtain ⟨task, ht, hplace⟩ := h.task
  cases stepped hs with
  | quiet hq => exact absurd ((Action.task?_of_isQuiet hq).symm.trans ha) (by simp)
  | create | edit | spawn => exact absurd ha (by simp [Action.task?])
  | run ht' hp =>
    cases ha
    obtain rfl := Option.some.inj (ht.symm.trans ht')
    obtain ⟨ws', hswept, hnext⟩ := hplace.step hsound h.swept hp
    rw [entry_of_step? hs rfl ht (tasks_record_self _)]
    exact ⟨ws', hswept, _, tasks_record_self _, hnext⟩
  | fail e ht' hr =>
    cases ha
    obtain rfl := Option.some.inj (ht.symm.trans ht')
    rw [entry_of_step? hs rfl ht (tasks_record_self _)]
    cases hplace with
    | sweeping | entering | cut | done => exact absurd hr (by simp [Task.request?, Point.request?])
    | saving id rest b hrest hb =>
      have hpass := h.swept.pass (w := ⟨id, b, .failed e⟩) hb rfl (h.swept.has_of_rest hrest hb) (by simp)
      refine ⟨_, hpass.still (.record rfl rfl), _, tasks_record_self _, ?_⟩
      rw [List.append_assoc]
      exact Task.sweeps_conclude (w := ⟨id, b, .failed e⟩) token _ hrest
  | serve ht' hr =>
    cases ha
    obtain rfl := Option.some.inj (ht.symm.trans ht')
    rw [entry_of_step? hs rfl ht (tasks_record_self _)]
    cases hplace with
    | sweeping | entering | cut | done => exact absurd hr (by simp [Task.request?, Point.request?])
    | saving id rest b hrest hb =>
      cases hr
      -- nobody deletes the account while the flush holds its turn
      obtain ⟨b', hb', hsaved⟩ := Task.exists_of_saving husound ht (hfit t _ ht).1.2.1
      have hsame := (h.swept.has_of_rest hrest hb).eq_of_saved hb' hsaved
      obtain rfl := Option.some.inj (hb'.symm.trans hsame)
      refine ⟨ws ++ [⟨id, b', .saved⟩], h.swept.save hb (fun v hv => (id_ne_of_rest hrest hv).symm) rfl
        (.of_recordSaved rfl hsame hsaved rfl rfl rfl rfl), _, tasks_record_self _, ?_⟩
      rw [List.append_assoc]
      exact Task.sweeps_conclude (w := ⟨id, b', .saved⟩) token _ hrest

theorem step (h : s.Sweeping exposed t token u ws j n) (hsound : s.Sound) (husound : u.Sound)
    (hfit : u.Fitting) (hs : u.step? a = some u')
    (ha : a.task? = some t ∨ u.spares exposed a = true) :
    ∃ ws', s.Sweeping exposed t token u' ws' (j ++ u.entry t a) (n + u.acts t a) := by
  by_cases htask : a.task? = some t
  · rw [acts_of_step? hs htask]
    exact h.own hsound husound hfit hs htask
  · rw [acts_of_ne htask, entry_of_ne htask, List.append_nil]
    exact ⟨ws, h.aside hs (.of_spares husound hfit (ha.resolve_left htask) hs) htask⟩

theorem run (h : s.Sweeping exposed t token u ws j n) (hsound : s.Sound) (husound : u.Sound)
    (hfit : u.Fitting) {as : List Action} (has : u.sparesAll exposed t as = true) :
    ∃ ws', s.Sweeping exposed t token (u.run as) ws' (j ++ u.journal t as) (n + u.moves t as) := by
  induction as generalizing u ws j n with
  | nil =>
    refine ⟨ws, ?_⟩
    rw [journal, List.append_nil]
    exact h
  | cons a as ih =>
    rw [sparesAll, Bool.and_eq_true, Bool.or_eq_true, decide_eq_true_iff] at has
    obtain ⟨ha, has⟩ := has
    rw [run_cons, journal, moves]
    cases hs : u.step? a with
    | none =>
      rw [step_of_step?_eq_none hs] at has
      rw [entry_of_step?_eq_none hs, acts_of_step?_eq_none hs, step_of_step?_eq_none hs, Nat.zero_add]
      exact ih h husound hfit has
    | some u' =>
      obtain ⟨ws', h'⟩ := h.step hsound husound hfit hs ha
      rw [step_of_step? hs] at has
      rw [step_of_step? hs, ← List.append_assoc, ← Nat.add_assoc]
      exact ih h' (husound.step hs) (hfit.step husound hs) has

end Sweeping

/-- A flush that begins has the dirty accounts to go over. -/
theorem sweeping_begin (ht : s.tasks[t]? = some (.starting (.flush token))) :
    s.Sweeping exposed t token (s.step (.run t)) [] (s.entry t (.run t)) (s.acts t (.run t)) := by
  have hs := step?_run ht rfl
  rw [entry_of_step? hs rfl ht (tasks_record_self _), acts_of_step? hs rfl, step_of_step? hs]
  exact ⟨(Swept.refl s).still (.record rfl rfl), _, tasks_record_self _, .sweeping s.vault.dirtyIds rfl⟩

/-- A flush from its first step on, as long as others at most delete exposed accounts. -/
theorem exists_sweeping (hsound : s.Sound) (hfit : s.Fitting)
    (ht : s.tasks[t]? = some (.starting (.flush token))) {during : List Action}
    (hduring : s.sparesAll exposed t (.run t :: during) = true) :
    ∃ ws, s.Sweeping exposed t token (s.run (.run t :: during)) ws (s.journal t (.run t :: during))
      (s.moves t (.run t :: during)) := by
  have hs := step?_run ht rfl
  have hsound' := hsound.step hs
  have hfit' := hfit.step hsound hs
  rw [← step_of_step? hs] at hsound' hfit'
  rw [sparesAll, Bool.and_eq_true] at hduring
  exact (sweeping_begin ht).run hsound hsound' hfit' hduring.2

end System

end AccountVault
