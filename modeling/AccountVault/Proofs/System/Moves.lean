import AccountVault.Proofs.Account.Edits
import AccountVault.Proofs.System.Basic

/-!
# What a step can do

Everything that one step of a task, or one action on a system, can do, guards included: `Vault.Entered`
for the holder of an account's turn, `Task.Stepped` and `Task.Replied` for a task, `System.Stepped` for
an action.  The invariants are proved over these, and not over the definitions.
-/

namespace AccountVault

namespace Vault

/-! ### What is recorded -/

theorem account?_recordSaved (v : Vault) (id other : AccountId) (d : Draft) :
    (v.recordSaved id d).account? other =
      if id = other then (v.account? id).map (·.markSaved d.revision) else v.account? other := by
  have hroster : ∀ w : Vault, (if d.isNew then { w with roster := w.roster.insert id }
      else w).account? other = w.account? other := by
    intro w
    split <;> rfl
  rw [recordSaved]
  cases ha : v.account? id with
  | none =>
    refine (hroster v).trans ?_
    by_cases hi : id = other <;> simp_all
  | some a => exact (hroster _).trans (account?_putAccount ..)

theorem finds_recordSaved (v : Vault) (id other : AccountId) (d : Draft) :
    (v.recordSaved id d).finds other = (v.finds other || (d.isNew && decide (id = other))) := by
  have hroster : ∀ w : Vault, w.roster = v.roster →
      (if d.isNew then { w with roster := w.roster.insert id } else w).finds other =
        (v.finds other || (d.isNew && decide (id = other))) := by
    intro w hw
    split
    · rw [finds, hw, Std.ExtTreeSet.contains_insert, finds, Bool.or_comm]
      simp [*, Bool.beq_eq_decide_eq]
    · simp [finds, *]
  rw [recordSaved]
  cases v.account? id with
  | none => exact hroster v rfl
  | some a => exact hroster _ rfl

theorem board_recordSaved (v : Vault) (id : AccountId) (d : Draft) :
    (v.recordSaved id d).board = v.board.publish d.notice := by
  rw [recordSaved, publish]
  cases v.account? id <;> split <;> rfl

@[simp] theorem turns_recordSaved (v : Vault) (id : AccountId) (d : Draft) :
    (v.recordSaved id d).turns = v.turns := by
  rw [recordSaved, publish]
  cases v.account? id <;> split <;> rfl

@[simp] theorem nextId_recordSaved (v : Vault) (id : AccountId) (d : Draft) :
    (v.recordSaved id d).nextId = v.nextId := by
  rw [recordSaved, publish]
  cases v.account? id <;> split <;> rfl

theorem markDeleted_eq {v : Vault} {id : AccountId} {a : Account} (ha : v.account? id = some a) :
    v.markDeleted id = v.putAccount id { a with state := .deleted } := by
  rw [markDeleted, ha]

theorem account?_recordRemoved (v : Vault) (id other : AccountId) :
    (v.recordRemoved id).account? other =
      if id = other then (v.account? id).map fun a => { a with state := .deleted }
      else v.account? other := by
  have hroster : ∀ i, Vault.account? { v with roster := v.roster.erase id } i = v.account? i :=
    fun _ => rfl
  cases ha : v.account? id with
  | none =>
    rw [recordRemoved, markDeleted, hroster, ha]
    refine (hroster other).trans ?_
    by_cases hi : id = other <;> simp_all
  | some a =>
    rw [recordRemoved, markDeleted_eq ((hroster id).trans ha)]
    exact account?_putAccount ..

theorem finds_recordRemoved (v : Vault) (id other : AccountId) :
    (v.recordRemoved id).finds other = (v.finds other && !decide (id = other)) := by
  have h : (v.recordRemoved id).roster = v.roster.erase id := by
    rw [recordRemoved, markDeleted]
    split <;> rfl
  rw [finds, h, Std.ExtTreeSet.contains_erase, finds, Bool.and_comm]
  simp [bne, Bool.beq_eq_decide_eq]

theorem board_recordRemoved (v : Vault) (id : AccountId) :
    (v.recordRemoved id).board = v.board.publish (.deleted id) := by
  rw [recordRemoved, markDeleted]
  split <;> rfl

@[simp] theorem turns_recordRemoved (v : Vault) (id : AccountId) :
    (v.recordRemoved id).turns = v.turns := by
  rw [recordRemoved, markDeleted]
  split <;> rfl

@[simp] theorem nextId_recordRemoved (v : Vault) (id : AccountId) :
    (v.recordRemoved id).nextId = v.nextId := by
  rw [recordRemoved, markDeleted]
  split <;> rfl

/-! ### What can happen -/

/-- What the holder of an account's turn can find to do. -/
inductive Entered (v : Vault) (id : AccountId) : Work → Vault → Stage → Prop
  | refused (w : Work) (e : Problem) : Entered v id w v (.done (.error e))
  | clean {a : Account} (ha : v.account? id = some a) (hs : a.state = .saved)
    (hd : a.isDirty = false) : Entered v id .commit v (.done (.ok ()))
  | firstDraft {a : Account} (ha : v.account? id = some a) (hs : a.state = .unsaved) :
    Entered v id .commit v (.paused (.awaitingMark (.ofAccount id a)))
  | draft {a : Account} (ha : v.account? id = some a) (hs : a.state = .saved)
    (hd : a.isDirty = true) : Entered v id .commit v (.paused (.saving (.ofAccount id a)))
  | removal {a : Account} (ha : v.account? id = some a) (hs : a.state = .saved) :
    Entered v id .delete v (.paused .removing)
  | discard {a : Account} (ha : v.account? id = some a) (hs : a.state = .unsaved) :
    Entered v id .delete (v.putAccount id { a with state := .deleted }) (.done (.ok ()))

theorem entered (v : Vault) (id : AccountId) (w : Work) :
    v.Entered id w (v.enter id w).1 (v.enter id w).2 := by
  cases hl : v.live id with
  | error e =>
    cases w with
    | commit =>
      have hd : v.draft? id = .error e := by rw [draft?, hl]; rfl
      rw [enter, hd]
      exact .refused _ e
    | delete =>
      rw [enter, hl]
      exact .refused _ e
  | ok a =>
    obtain ⟨ha, hs⟩ := live_eq_ok_iff.1 hl
    cases w with
    | commit =>
      have hd : v.draft? id = if a.state = .saved ∧ !a.isDirty then .ok none
          else .ok (some (.ofAccount id a)) := by
        rw [draft?, hl]
        simp only [bind, Except.bind]
        split <;> rfl
      rw [enter, hd]
      cases hst : a.state with
      | unsaved =>
        have hn : (Draft.ofAccount id a).isNew = true := decide_eq_true hst
        simp only [reduceCtorEq, false_and, if_false, hn, if_true]
        exact .firstDraft ha hst
      | saved =>
        have hn : (Draft.ofAccount id a).isNew = false := by rw [Draft.ofAccount, hst]; rfl
        cases hdirty : a.isDirty with
        | false => exact .clean ha hst hdirty
        | true =>
          simp only [Bool.not_true, Bool.false_eq_true, and_false, if_false, hn]
          exact .draft ha hst hdirty
      | deleted => exact absurd hst hs
    | delete =>
      rw [enter, hl]
      cases hst : a.state with
      | unsaved =>
        simp only [hst, reduceCtorEq, if_false]
        rw [markDeleted_eq ha]
        exact .discard ha hst
      | saved =>
        simp only [hst, if_true]
        exact .removal ha hst
      | deleted => exact absurd hst hs

end Vault

namespace Task

/-- The account that a task works on, and how far it has got. -/
def place? : Task → Option (AccountId × Point)
  | working _ id _ p => some (id, p)
  | _ => none

@[simp] theorem place?_conclude (goal : Goal) (r : Except Problem Unit) :
    (conclude goal r).place? = none := by
  unfold conclude
  split <;> rfl

/-- What a task can do without the storage. -/
inductive Stepped (v : Vault) (self : TaskId) : Task → Progress → Prop
  /-- A task without a place goes on without one. -/
  | pass {task task' : Task} (h : task.place? = none) (h' : task'.place? = none) :
    Stepped v self task ⟨v, task', []⟩
  | shut {task : Task} (o : Outcome) (h : task.place? = none) : Stepped v self task (shut v o)
  | enqueue {task : Task} (goal : Goal) (id : AccountId) (work : Work) (h : task.place? = none) :
    Stepped v self task (enqueue v self goal id work)
  | enter {v' : Vault} {stage : Stage} (goal : Goal) {id : AccountId} {work : Work}
    (hold : v.turns.holder? (.account id) = some self) (h : v.Entered id work v' stage) :
    Stepped v self (working goal id work .entering) (proceed v' self goal id work stage)
  | raise (goal : Goal) (id : AccountId) (work : Work) (d : Draft)
    (hold : v.turns.holder? .mark = some self) (h : v.mark < v.nextId) :
    Stepped v self (working goal id work (.awaitingMark d))
      ⟨v, working goal id work (.raisingMark d v.nextId), []⟩
  | skip (goal : Goal) (id : AccountId) (work : Work) (d : Draft)
    (hold : v.turns.holder? .mark = some self) (h : ¬ v.mark < v.nextId) :
    Stepped v self (working goal id work (.awaitingMark d))
      ⟨(release v .mark).1, working goal id work (.saving d), (release v .mark).2⟩

theorem stepped {cancelled : TokenId → Bool} {v : Vault} {self : TaskId} {task : Task}
    {p : Progress} (h : task.step cancelled v self = some p) : Stepped v self task p := by
  cases task with
  | starting op =>
    cases h
    cases op with
    | commit id => exact .enqueue .report id .commit rfl
    | delete id => exact .enqueue .report id .delete rfl
    | deleteFound id =>
      rw [start]
      split
      · exact .enqueue .forgive id .delete rfl
      · exact .pass rfl rfl
    | flush token => exact .pass rfl rfl
    | close =>
      rw [start]
      split
      · exact .pass rfl rfl
      · exact .shut (.ok 0) rfl
  | working goal id work p =>
    cases p with
    | entering =>
      rw [step] at h
      split at h
      · cases h
        exact .enter goal ‹_› (v.entered id work)
      · exact absurd h (by simp)
    | awaitingMark d =>
      rw [step] at h
      split at h
      · by_cases hm : v.mark < v.nextId
        · rw [Vault.atMark, if_pos hm] at h
          cases h
          exact .raise goal id work d ‹_› hm
        · rw [Vault.atMark, if_neg hm] at h
          cases h
          exact .skip goal id work d ‹_› hm
      · exact absurd h (by simp)
    | raisingMark | saving | removing => exact absurd h (by simp [step])
  | sweeping s =>
    cases h
    rw [advance]
    split
    · split
      · exact .shut s.outcome rfl
      · exact .pass rfl rfl
    · split
      · exact .pass rfl rfl
      · exact .enqueue _ _ _ rfl
  | draining o =>
    rw [step] at h
    split at h
    · cases h
      exact .pass rfl rfl
    · exact absurd h (by simp)
  | finished o => exact absurd h (by simp [step])

/-- What a task can do when its request has ended. -/
inductive Replied (v : Vault) (self : TaskId) : Task → Except Fault Reply → Progress → Prop
  | markFailed (goal : Goal) (id : AccountId) (work : Work) (d : Draft) (next : AccountId)
    (e : Fault) (woken : List TaskId) :
    Replied v self (working goal id work (.raisingMark d next)) (.error e)
      ⟨(release (release v .mark).1 (.account id)).1,
        conclude goal (.error (.persistence (.fault e))), woken⟩
  | failed (goal : Goal) (id : AccountId) (work : Work) (p : Point) (e : Fault)
    (woken : List TaskId) (hp : p ≠ .entering) (hm : ∀ d next, p ≠ .raisingMark d next) :
    Replied v self (working goal id work p) (.error e)
      ⟨(release v (.account id)).1, conclude goal (.error (.persistence (.fault e))), woken⟩
  | marked (goal : Goal) (id : AccountId) (work : Work) (d : Draft) (next : AccountId)
    (reply : Reply) (woken : List TaskId) :
    Replied v self (working goal id work (.raisingMark d next)) (.ok reply)
      ⟨{ (release v .mark).1 with mark := next }, working goal id work (.saving d), woken⟩
  | saved (goal : Goal) (id : AccountId) (work : Work) (d : Draft) (reply : Reply)
    (woken : List TaskId) :
    Replied v self (working goal id work (.saving d)) (.ok reply)
      ⟨(release (v.recordSaved id d) (.account id)).1, conclude goal (.ok ()), woken⟩
  | removed (goal : Goal) (id : AccountId) (work : Work) (reply : Reply) (woken : List TaskId) :
    Replied v self (working goal id work .removing) (.ok reply)
      ⟨(release (v.recordRemoved id) (.account id)).1, conclude goal (.ok ()), woken⟩

theorem replied {task : Task} {r : Request} (h : task.request? = some r) (v : Vault)
    (self : TaskId) (reply : Except Fault Reply) :
    Replied v self task reply (task.answered v self reply) := by
  cases task with
  | working goal id work p =>
    cases p with
    | entering => exact absurd h (by simp [request?, Point.request?])
    | awaitingMark d => exact absurd h (by simp [request?, Point.request?])
    | raisingMark d next =>
      cases reply with
      | error e => exact .markFailed goal id work d next e _
      | ok reply => exact .marked goal id work d next reply _
    | saving d =>
      cases reply with
      | error e => exact .failed goal id work _ e _ (by simp) (by simp)
      | ok reply => exact .saved goal id work d reply _
    | removing =>
      cases reply with
      | error e => exact .failed goal id work _ e _ (by simp) (by simp)
      | ok reply => exact .removed goal id work reply _
  | starting | sweeping | draining | finished => exact absurd h (by simp [request?])

end Task

/-- Actions after which accounts, tasks and the storage are as before. -/
def Action.isQuiet : Action → Bool
  | setOverride .. | clearOverride .. | subscribe _ | unsubscribe _ | dispatch | cancel _ => true
  | _ => false

namespace System

/-- Nothing that accounts, tasks and the storage depend on has changed. -/
structure Same (s s' : System) : Prop where
  accounts : s'.vault.accounts = s.vault.accounts
  roster : s'.vault.roster = s.vault.roster
  nextId : s'.vault.nextId = s.vault.nextId
  mark : s'.vault.mark = s.vault.mark
  turns : s'.vault.turns = s.vault.turns
  isOpen : s'.vault.board.isOpen = s.vault.board.isOpen
  published : s'.published = s.published
  contents : s'.contents = s.contents
  tasks : s'.tasks = s.tasks
  served : s'.served = s.served

/-- What an action can do. -/
inductive Stepped (s : System) : Action → System → Prop
  | quiet {a : Action} {s' : System} (ha : a.isQuiet = true) (h : s.Same s') : Stepped s a s'
  | create (provider : String) (hn : s.vault.nextId.toNat + 1 < UInt64.size) :
    Stepped s (.create provider)
      { s with vault :=
        { s.vault.putAccount s.vault.nextId { provider } with nextId := s.vault.nextId + 1 } }
  | edit {id : AccountId} {e : Edit} {a a' : Account} (ha : s.vault.account? id = some a)
    (hs : a.state ≠ .deleted) (he : a.Edited e a') :
    Stepped s (.edit id e) { s with vault := s.vault.putAccount id a' }
  | spawn {t : TaskId} (op : Operation) (ht : s.tasks[t]? = none) :
    Stepped s (.spawn t op) { s with tasks := s.tasks.insert t (.starting op) }
  | run {t : TaskId} {task : Task} {p : Progress} (ht : s.tasks[t]? = some task)
    (hp : task.step s.isCancelled s.vault t = some p) : Stepped s (.run t) (s.record t p)
  | fail {t : TaskId} {task : Task} {r : Request} (e : Fault) (ht : s.tasks[t]? = some task)
    (hr : task.request? = some r) :
    Stepped s (.answer t (some e)) (s.record t (task.answered s.vault t (.error e)))
  | serve {t : TaskId} {task : Task} {r : Request} (ht : s.tasks[t]? = some task)
    (hr : task.request? = some r) :
    Stepped s (.answer t none)
      { s.record t (task.answered s.vault t (.ok (s.contents.serve r).2)) with
        contents := (s.contents.serve r).1, served := s.served ++ [r] }

theorem published_dispatch (s : System) :
    s.handed ++ s.vault.board.queue.take 1 ++ s.vault.board.dispatch.1.queue = s.published := by
  rw [published, Board.dispatch]
  cases hq : s.vault.board.queue <;> simp [hq]

theorem isOpen_dispatch (b : Board) : b.dispatch.1.isOpen = b.isOpen := by
  unfold Board.dispatch
  split <;> rfl

theorem stepped {s s' : System} {a : Action} (h : s.step? a = some s') : s.Stepped a s' := by
  cases a with
  | create provider =>
    rw [step?, Vault.create] at h
    cases hn : Name.check "provider" provider with
    | error e => rw [hn] at h; exact absurd h (by simp [bind, Except.bind, Except.map, accept])
    | ok u =>
      rw [hn] at h
      by_cases hid : s.vault.nextId.toNat + 1 < UInt64.size
      · simp only [bind, Except.bind, if_pos hid] at h
        cases h
        exact .create provider hid
      · simp only [bind, Except.bind, if_neg hid] at h
        exact absurd h (by simp [throw, throwThe, MonadExceptOf.throw, Except.map, accept])
  | edit id e =>
    rw [step?, Vault.edit] at h
    cases ha : s.vault.account? id with
    | none => rw [ha] at h; exact absurd h (by simp [Except.map, accept])
    | some a =>
      rw [ha] at h
      cases he : a.edit s.vault.options.keyLimit id e with
      | error e => simp only [he] at h; exact absurd h (by simp [bind, Except.bind, Except.map, accept])
      | ok r =>
        simp only [he] at h
        cases h
        obtain ⟨hs, he⟩ := Account.edited_of_edit he
        exact .edit ha hs he
  | setOverride service key value =>
    rw [step?, Vault.setOverride] at h
    cases hn : Name.check "service" service with
    | error e => rw [hn] at h; exact absurd h (by simp [bind, Except.bind, accept])
    | ok u =>
      cases hk : Key.check key s.vault.options.keyLimit with
      | error e => rw [hn, hk] at h; exact absurd h (by simp [bind, Except.bind, accept])
      | ok u =>
        rw [hn, hk] at h
        cases h
        exact .quiet rfl ⟨rfl, rfl, rfl, rfl, rfl, rfl, rfl, rfl, rfl, rfl⟩
  | clearOverride | subscribe | unsubscribe | cancel =>
    cases h
    exact .quiet rfl ⟨rfl, rfl, rfl, rfl, rfl, rfl, rfl, rfl, rfl, rfl⟩
  | dispatch =>
    cases h
    exact .quiet rfl ⟨rfl, rfl, rfl, rfl, rfl, isOpen_dispatch _, published_dispatch s, rfl, rfl, rfl⟩
  | spawn t op =>
    rw [step?] at h
    split at h
    · cases h
      exact .spawn op (Option.isNone_iff_eq_none.1 ‹_›)
    · exact absurd h (by simp)
  | run t =>
    simp only [step?, runTask?, bind, Option.bind_eq_some_iff] at h
    obtain ⟨task, ht, p, hp, h⟩ := h
    cases h
    exact .run ht hp
  | answer t fault =>
    simp only [step?, answer?, bind, Option.bind_eq_some_iff] at h
    obtain ⟨task, ht, r, hr, h⟩ := h
    cases fault with
    | some e =>
      cases h
      exact .fail e ht hr
    | none =>
      cases h
      exact .serve ht hr

end System

end AccountVault
