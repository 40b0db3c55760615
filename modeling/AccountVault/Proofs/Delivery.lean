import AccountVault.Proofs.Notice.Events
import AccountVault.Proofs.System.Following
import AccountVault.Proofs.System.Frames

/-!
# Delivery of notices

Along a run the notice board is what its events make of it (`System.board_run`): callers subscribe and
drop subscriptions, a write that goes well publishes, and the task that closes the vault closes the
board.  A task that closes the vault has an outcome only once the board is closed and empty, whatever
became of its flush (`Task.Closing`).  So everything that was published before the close has been handed
out by then, and nothing after it is.  Main statement: `notices_are_delivered`.
-/

namespace AccountVault

open Board (announced beforeClose calls)

namespace Task

/-- The notice that a task publishes when its request has gone well. -/
def notice? : Task → Option Notice
  | working _ _ _ (.saving d) => some d.notice
  | working _ id _ .removing => some (.deleted id)
  | _ => none

/-- Whether the next step of a task closes the notice board. -/
def shuts (v : Vault) : Task → Bool
  | starting .close => !v.options.flushOnClose
  | sweeping s => s.rest.isEmpty && s.closing
  | _ => false

variable {cancelled : TokenId → Bool} {v : Vault} {self : TaskId} {task : Task} {p : Progress}

/-- What a task does without the storage leaves the board alone, or closes it. -/
theorem board_of_step (h : task.step cancelled v self = some p) :
    p.vault.board = if task.shuts v then v.board.close else v.board := by
  have hstepped := stepped h
  cases task with
  | starting op =>
    cases h
    cases op with
    | close =>
      rw [start, shuts]
      cases v.options.flushOnClose <;> rfl
    | deleteFound id =>
      rw [start]
      split <;> rfl
    | _ => rfl
  | sweeping s =>
    cases h
    rw [advance, shuts]
    cases hrest : s.rest with
    | nil => cases s.closing <;> rfl
    | cons id rest =>
      simp only [List.isEmpty_cons, Bool.false_and, Bool.false_eq_true, if_false]
      split <;> rfl
  | working goal id work point =>
    show p.vault.board = v.board
    cases hstepped with
    | pass | enqueue | raise | skip => rfl
    | shut o hplace => exact absurd hplace (by simp [place?])
    | enter goal hold hent => cases hent <;> rfl
  | draining o =>
    rw [step] at h
    split at h
    · cases h
      rfl
    · exact absurd h (by simp)
  | finished o => exact absurd h (by simp [step])

/-- A request that goes well publishes the notice of the task, if it has one. -/
theorem board_of_answered {r : Request} (hr : task.request? = some r) (reply : Reply) :
    (task.answered v self (.ok reply)).vault.board =
      match task.notice? with
      | some n => v.board.publish n
      | none => v.board := by
  have hreplied := replied hr v self (.ok reply)
  generalize task.answered v self (.ok reply) = p at hreplied ⊢
  cases hreplied with
  | marked => rfl
  | saved => exact Vault.board_recordSaved ..
  | removed => exact Vault.board_recordRemoved ..

theorem request?_of_notice? {n : Notice} (h : task.notice? = some n) :
    ∃ r, task.request? = some r := by
  cases task with
  | working goal id work point =>
    cases point with
    | saving | removing => exact ⟨_, rfl⟩
    | _ => exact absurd h (by simp [notice?])
  | _ => exact absurd h (by simp [notice?])

theorem exists_step_of_shuts (h : task.shuts v = true) (cancelled : TokenId → Bool) (self : TaskId) :
    ∃ p, task.step cancelled v self = some p := by
  cases task with
  | starting | sweeping => exact ⟨_, rfl⟩
  | _ => exact absurd h (by simp [shuts])

end Task

namespace System

variable {s s' : System} {a : Action} {t : TaskId} {task : Task}

/-! ### What happens to the board -/

/-- What happens to the notice board in an action. -/
def boardEvents (s : System) : Action → List Board.Event
  | .subscribe f => [.subscribe f]
  | .unsubscribe id => [.unsubscribe id]
  | .dispatch => [.dispatch]
  | .run t => if s.tasks[t]?.any (Task.shuts s.vault) then [.close] else []
  | .answer t none => ((s.tasks[t]?.bind Task.notice?).map Board.Event.publish).toList
  | _ => []

/-- What happens to the notice board along some actions. -/
def eventsBy : System → List Action → List Board.Event
  | _, [] => []
  | s, a :: as => s.boardEvents a ++ eventsBy (s.step a) as

/-- Who is called in an action, and with what. -/
def calledIn (s : System) : Action → List Delivery
  | .dispatch => s.vault.board.dispatch.2
  | _ => []

/-- Who is called along some actions, and with what. -/
def calledBy : System → List Action → List Delivery
  | _, [] => []
  | s, a :: as => s.calledIn a ++ calledBy (s.step a) as

/-- An action that is not possible does nothing to the board. -/
theorem boardEvents_of_step?_eq_none (hs : s.step? a = none) : s.boardEvents a = [] := by
  cases a with
  | run t =>
    cases ht : s.tasks[t]? with
    | none => simp [boardEvents, ht]
    | some task =>
      have hshuts : task.shuts s.vault ≠ true := by
        intro h
        obtain ⟨p, hp⟩ := Task.exists_step_of_shuts h s.isCancelled t
        simp [step?_run ht hp] at hs
      simp [boardEvents, ht, hshuts]
  | answer t fault =>
    cases fault with
    | some e => rfl
    | none =>
      cases ht : s.tasks[t]? with
      | none => simp [boardEvents, ht]
      | some task =>
        have hnotice : task.notice? = none := by
          rw [Option.eq_none_iff_forall_ne_some]
          intro n hn
          obtain ⟨r, hr⟩ := Task.request?_of_notice? hn
          obtain ⟨s', hs'⟩ := exists_step?_answer ((call?_of_task ht).trans hr) none
          simp [hs'] at hs
        simp [boardEvents, ht, hnotice]
  | subscribe | unsubscribe | dispatch => exact absurd hs (by simp [step?])
  | _ => rfl

theorem board_step (s : System) (a : Action) :
    (s.step a).vault.board = s.vault.board.play (s.boardEvents a) := by
  cases hs : s.step? a with
  | none => rw [step_of_step?_eq_none hs, boardEvents_of_step?_eq_none hs, Board.play_nil]
  | some s' =>
    rw [step_of_step? hs]
    cases a with
    | create | edit | spawn =>
      cases stepped hs with
      | quiet hq => exact absurd hq (by simp [Action.isQuiet])
      | _ => rfl
    | setOverride service key value =>
      obtain ⟨-, rfl⟩ := eq_of_setOverride hs
      rfl
    | clearOverride | cancel | subscribe | unsubscribe | dispatch =>
      cases hs
      rfl
    | run t =>
      cases stepped hs with
      | quiet hq => exact absurd hq (by simp [Action.isQuiet])
      | @run _ task p ht hp =>
        refine (Task.board_of_step hp).trans ?_
        simp only [boardEvents, ht, Option.any_some]
        split <;> rfl
    | answer t fault =>
      cases stepped hs with
      | quiet hq => exact absurd hq (by simp [Action.isQuiet])
      | fail e ht hr => exact (Task.replied hr s.vault t _).board_eq_of_fault
      | @serve _ task r ht hr =>
        refine (Task.board_of_answered hr _).trans ?_
        simp only [boardEvents, ht, Option.bind_some]
        cases task.notice? <;> rfl

/-- The board is what its events have made of it. -/
theorem board_run (s : System) (as : List Action) :
    (s.run as).vault.board = s.vault.board.play (s.eventsBy as) := by
  induction as generalizing s with
  | nil => rfl
  | cons a as ih => rw [run_cons, eventsBy, Board.play_append, ih, board_step]

theorem dispatch_not_mem_boardEvents (ha : a ≠ .dispatch) : .dispatch ∉ s.boardEvents a := by
  cases a with
  | dispatch => exact absurd rfl ha
  | run t =>
    rw [boardEvents]
    split <;> simp
  | answer t fault =>
    cases fault with
    | some e => simp [boardEvents]
    | none =>
      rw [boardEvents]
      cases s.tasks[t]?.bind Task.notice? <;> simp
  | _ => simp [boardEvents]

theorem handed_step_of_ne (ha : a ≠ .dispatch) : (s.step a).handed = s.handed := by
  cases hs : s.step? a with
  | none => rw [step_of_step?_eq_none hs]
  | some s' =>
    rw [step_of_step? hs]
    cases a with
    | dispatch => exact absurd rfl ha
    | setOverride service key value =>
      obtain ⟨-, rfl⟩ := eq_of_setOverride hs
      rfl
    | clearOverride | cancel | subscribe | unsubscribe =>
      cases hs
      rfl
    | create | edit | spawn | run | answer =>
      cases stepped hs with
      | quiet hq => exact absurd hq (by simp [Action.isQuiet])
      | _ => rfl

/-- What has left the board is what its events have taken. -/
theorem handed_run (s : System) (as : List Action) :
    (s.run as).handed = s.handed ++ s.vault.board.taken (s.eventsBy as) := by
  induction as generalizing s with
  | nil => simp [eventsBy, Board.taken]
  | cons a as ih =>
    have hstep : (s.step a).handed = s.handed ++ s.vault.board.taken (s.boardEvents a) := by
      by_cases ha : a = .dispatch
      · subst ha
        simp only [boardEvents, Board.taken, Board.takenIn, List.append_nil]
        rfl
      · rw [handed_step_of_ne ha, Board.taken_eq_nil (dispatch_not_mem_boardEvents ha),
          List.append_nil]
    rw [run_cons, eventsBy, Board.taken_append, ih, hstep, board_step, List.append_assoc]

/-- Who has been called is whom the events of the board have called. -/
theorem calledBy_eq (s : System) (as : List Action) :
    s.calledBy as = s.vault.board.handed (s.eventsBy as) := by
  induction as generalizing s with
  | nil => rfl
  | cons a as ih =>
    have hstep : s.calledIn a = s.vault.board.handed (s.boardEvents a) := by
      by_cases ha : a = .dispatch
      · subst ha
        simp [calledIn, boardEvents, Board.handed, Board.handedIn]
      · rw [Board.handed_eq_nil (dispatch_not_mem_boardEvents ha)]
        cases a with
        | dispatch => exact absurd rfl ha
        | _ => rfl
    rw [calledBy, eventsBy, Board.handed_append, ih, hstep, board_step]

end System

/-! ### Closing -/

namespace Task

/-- A task that closes the vault: it has an outcome only once the board is closed and empty, and waits
for that once the board is closed. -/
inductive Closing (b : Board) : Task → Prop
  | starting : Closing b (starting .close)
  | sweeping {s : Sweep} (hc : s.closing = true) (ht : s.token = none) : Closing b (sweeping s)
  | working {s : Sweep} (hc : s.closing = true) (ht : s.token = none) (id : AccountId) (work : Work)
    (p : Point) : Closing b (working (.sweep s) id work p)
  | draining (o : Outcome) (ho : b.isOpen = false) : Closing b (draining o)
  | finished (o : Outcome) (ho : b.isOpen = false) (hq : b.queue = []) : Closing b (finished o)

variable {b b' : Board} {task : Task} {s : System} {t : TaskId} {p : Progress}

theorem Closing.play (h : task.Closing b) (es : List Board.Event) : task.Closing (b.play es) := by
  have hclosed : b.isOpen = false → (b.play es).isOpen = false := fun ho =>
    Board.isOpen_play_of_closed ho es
  cases h with
  | starting => exact .starting
  | sweeping hc ht => exact .sweeping hc ht
  | working hc ht id work p => exact .working hc ht id work p
  | draining o ho => exact .draining o (hclosed ho)
  | finished o ho hq =>
    refine .finished o (hclosed ho) ?_
    have hnone := Board.taken_append_queue_of_closed ho es
    rw [hq] at hnone
    exact (List.append_eq_nil_iff.1 hnone).2

theorem closing_conclude {sw : Sweep} (hc : sw.closing = true) (ht : sw.token = none)
    (r : Except Problem Unit) : (conclude (.sweep sw) r).Closing b := by
  refine .sweeping ?_ ?_
  · cases r with
    | ok => exact hc
    | error e => cases e <;> exact hc
  · cases r with
    | ok => exact ht
    | error e => cases e <;> exact ht

theorem closing_proceed {sw : Sweep} (hc : sw.closing = true) (ht : sw.token = none) (v : Vault)
    (id : AccountId) (work : Work) (stage : Stage) :
    (proceed v t (.sweep sw) id work stage).task.Closing b := by
  cases stage with
  | paused point => cases point <;> exact .working hc ht _ _ _
  | done r => exact closing_conclude hc ht r

theorem Closing.moved (h : task.Closing s.vault.board) (hm : task.Moved s t p) :
    p.task.Closing p.vault.board := by
  cases hm with
  | step hp =>
    cases h with
    | starting =>
      cases hp
      rw [start]
      split
      · exact .sweeping rfl rfl
      · exact .draining _ rfl
    | @sweeping sw hc ht =>
      cases hp
      have hcalled : isCalledOff s.isCancelled sw = false := by
        rw [isCalledOff, ht]
        rfl
      rw [advance]
      split
      · rw [if_pos hc]
        exact .draining _ rfl
      · rename_i id rest hrest
        rw [if_neg (by simp [hcalled])]
        exact .working (s := { sw with rest }) hc ht id .commit .entering
    | working hc ht id work point =>
      cases Task.stepped hp with
      | pass hplace | shut _ hplace | enqueue _ _ _ hplace => exact absurd hplace (by simp [place?])
      | enter => exact closing_proceed hc ht _ _ _ _
      | raise | skip => exact .working hc ht _ _ _
    | draining o ho =>
      obtain ⟨hq, rfl⟩ := step_draining hp
      exact .finished o ho hq
    | finished => exact absurd hp (by simp [Task.step])
  | reply hr hrep =>
    cases h with
    | starting | sweeping | draining | finished => exact absurd hr (by simp [request?])
    | working hc ht id work point =>
      cases hrep with
      | markFailed | failed | saved | removed => exact closing_conclude hc ht _
      | marked => exact .working hc ht _ _ _

end Task

namespace System

variable {s s' : System} {t : TaskId} {o : Outcome}

theorem closing_run (hsound : s.Sound) (ht : s.tasks[t]? = none) (rest : List Action) :
    ∃ task, (s.run (.spawn t .close :: rest)).tasks[t]? = some task ∧
      task.Closing (s.run (.spawn t .close :: rest)).vault.board := by
  have hstep := step?_spawn ht .close
  rw [run_cons, step_of_step? hstep]
  refine follow (P := fun s task => task.Closing s.vault.board) (fun s s' a task _ hs h => ?_)
    (fun s s' a task p _ _ _ hm hv h => ?_) (hsound.step hstep)
    Std.ExtTreeMap.getElem?_insert_self .starting rest
  · have hboard := board_step s a
    rw [step_of_step? hs] at hboard
    rw [hboard]
    exact h.play _
  · rw [hv]
    exact h.moved hm

/-- When the task that closes the vault has an outcome, the board is closed and empty. -/
theorem board_of_closed (hsound : s.Sound) (ht : s.tasks[t]? = none) {rest : List Action}
    (ho : (s.run (.spawn t .close :: rest)).outcome? t = some o) :
    (s.run (.spawn t .close :: rest)).vault.board.isOpen = false ∧
      (s.run (.spawn t .close :: rest)).vault.board.queue = [] := by
  obtain ⟨task, ht', h⟩ := closing_run hsound ht rest
  rw [outcome?_of_task ht'] at ho
  cases h with
  | finished o hopen hq => exact ⟨hopen, hq⟩
  | _ => exact absurd ho (by simp [Task.outcome?])

/-- A task that waits for the board to be empty ends once the waiting notices have been handed out. -/
theorem outcome?_of_draining (ht : s.tasks[t]? = some (.draining o)) :
    (s.run (List.replicate s.vault.board.queue.length .dispatch ++ [.run t])).outcome? t =
      some o := by
  generalize hn : s.vault.board.queue.length = n
  induction n generalizing s with
  | zero =>
    have hq : s.vault.board.queue = [] := List.length_eq_zero_iff.1 hn
    have hp : (Task.draining o).step s.isCancelled s.vault t = some ⟨s.vault, .finished o, []⟩ := by
      rw [Task.step, if_pos hq]
    rw [List.replicate_zero, List.nil_append, run_cons, step_of_step? (step?_run ht hp), run_nil,
      outcome?_of_task (tasks_record_self _)]
    rfl
  | succ n ih =>
    have hq : (s.step .dispatch).vault.board.queue.length = n := by
      show s.vault.board.dispatch.1.queue.length = n
      rw [Board.dispatch]
      cases hqueue : s.vault.board.queue with
      | nil => simp [hqueue] at hn
      | cons m rest => simpa [hqueue] using hn
    rw [List.replicate_succ, List.cons_append, run_cons]
    exact ih ht hq

end System

/-- Along every run of a vault, the calls are those that the events of its notice board make: each
subscriber is called once, in the order of publication, with each notice that is taken while its
subscription is there and that its filter accepts, and nobody else is.  What is taken comes from what was
published before the close, in that order; when the task that closes the vault has its outcome, be it a
failure, all of that has been handed out, and the task comes to an outcome once it waits for no more than
that. -/
theorem notices_are_delivered {c : Contents} {options : Options} {catalog : Catalog} {v : Vault}
    (hv : c.opened options catalog = .ok v) (as : List Action) :
    let s := System.start v c
    let b : Board := {}
    let es := s.eventsBy as
    ((s.run as).vault.board = b.play es ∧ s.calledBy as = b.handed es ∧
      (s.run as).handed = b.taken es) ∧
    (∀ before f rest, es = before ++ .subscribe f :: rest →
      calls (b.play before).next (s.calledBy as) =
        ((b.play (before ++ [.subscribe f])).taken
          (rest.takeWhile (· ≠ .unsubscribe (b.play before).next))).filter f.accepts) ∧
    (∀ d ∈ s.calledBy as, ∃ before f rest, es = before ++ .subscribe f :: rest ∧
      d.subscription = (b.play before).next) ∧
    (s.run as).handed ++ (s.run as).vault.board.queue = announced (beforeClose es) ∧
    (∀ before t rest o, as = before ++ .spawn t .close :: rest → (s.run before).tasks[t]? = none →
      (s.run as).outcome? t = some o →
        .close ∈ es ∧ (s.run as).handed = announced (beforeClose es)) ∧
    (∀ t o, (s.run as).tasks[t]? = some (.draining o) →
      (s.run (as ++ (List.replicate (s.run as).vault.board.queue.length .dispatch ++
        [.run t]))).outcome? t = some o) ∧
    ∀ (f : NoticeFilter) n, f.accepts n = true ↔
      (∀ id, f.account = some id → n.account = id) ∧
        ∀ p, f.keyLead = some p →
          n.kind = .deleted ∨ ∃ key ∈ n.keys, p.toList <+: key.toList := by
  intro s b es
  have h := Contents.opens_of_opened hv
  have hb : s.vault.board = b := h.board
  have hnumbered : b.Numbered := ⟨List.nodup_nil, fun _ hs => absurd hs List.not_mem_nil⟩
  have hboard : (s.run as).vault.board = b.play es := hb ▸ s.board_run as
  have hcalled : s.calledBy as = b.handed es := hb ▸ s.calledBy_eq as
  have hhanded : (s.run as).handed = b.taken es := hb ▸ s.handed_run as
  have hqueue : (s.run as).handed ++ (s.run as).vault.board.queue = announced (beforeClose es) := by
    rw [hhanded, hboard, Board.taken_append_queue rfl es]
    rfl
  refine ⟨⟨hboard, hcalled, hhanded⟩, fun before f rest hes => ?_, fun d hd => ?_, hqueue,
    fun before t rest o has ht ho => ?_, fun t o ht => ?_, fun f n => NoticeFilter.accepts_iff⟩
  · rw [hcalled, hes]
    exact Board.calls_of_subscribe hnumbered before f rest
  · rw [hcalled] at hd
    exact Board.exists_subscribe_of_handed rfl hd
  · have hsplit : s.run as = (s.run before).run (.spawn t .close :: rest) := by
      rw [has, System.run_append]
    rw [hsplit] at ho
    obtain ⟨hopen, hempty⟩ := System.board_of_closed (h.sound_start_run before) ht ho
    rw [← hsplit] at hopen hempty
    refine ⟨?_, ?_⟩
    · by_contra hclose
      rw [hboard, (Board.isOpen_play rfl es).2 hclose] at hopen
      simp at hopen
    · rw [hempty, List.append_nil] at hqueue
      exact hqueue
  · rw [System.run_append]
    exact System.outcome?_of_draining ht

/-- The vault is closed while a change waits to be saved, the save fails, and the task that closes the
vault still waits for what had been published. -/
theorem notices_are_delivered_of_failed_flush :
    let refused : Fault := .refused .save
    let as : List Action := [.subscribe {}, .subscribe { keyLead := some "col" }, .create "acme",
      .spawn 0 (.commit 1), .run 0, .run 0, .run 0, .answer 0 none, .answer 0 none,
      .edit 1 (.write .account "color" (.text "red") (some .account)), .spawn 1 (.commit 1), .run 1,
      .run 1, .answer 1 none, .unsubscribe 1,
      .edit 1 (.write .account "size" (.integer 3) (some .account)), .spawn 2 .close, .run 2, .run 2,
      .run 2, .answer 2 (some refused), .run 2, .run 2, .dispatch, .dispatch, .run 2]
    let s := System.start {} ∅
    (s.run as).outcome? 2 = some (.error (.persistence (.fault refused))) ∧
      (s.run as).handed = [.created 1 [] [], .updated 1 ["color"] []] ∧
      calls 2 (s.calledBy as) = [.updated 1 ["color"] []] ∧ calls 1 (s.calledBy as) = [] := by
  intro refused as s
  have hv := Contents.opened_empty {} {} rfl
  obtain ⟨-, hcalls, -, -, hclosed, -⟩ := notices_are_delivered hv as
  have hoi : (s.run as).outcome? 2 = some (.error (.persistence (.fault refused))) := by
    decide +kernel
  have hevents : s.eventsBy as = [.subscribe {}, .subscribe { keyLead := some "col" },
      .publish (.created 1 [] []), .publish (.updated 1 ["color"] []), .unsubscribe 1, .close,
      .dispatch, .dispatch] := by decide +kernel
  refine ⟨hoi, ?_, ?_, ?_⟩
  · have hall := (hclosed (as.take 16) 2 (as.drop 17) _ rfl (by decide +kernel) hoi).2
    rw [hall, hevents]
    rfl
  · exact (hcalls [.subscribe {}] { keyLead := some "col" } _ hevents).trans (by decide +kernel)
  · exact (hcalls [] {} _ hevents).trans (by decide +kernel)

end AccountVault
