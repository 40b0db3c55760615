import AccountVault.Proofs.Desk.Run
import Mathlib.Data.List.Forall2

/-!
# The notices of one account

While the notice board is open, the notices of an account follow its writes one by one, and tell its
life in order (`notices_follow_writes`): that it was written for the first time, written again any number
of times, and deleted.  Work that fails, or that finds nothing to write or to remove, is not told of.
-/

namespace AccountVault

/-- What a notice tells of. -/
inductive Notice.Tells (n : Notice) : Request → Prop
  | save (record : Bytes) (h : n.kind ≠ .deleted) : Tells n (.save n.account record)
  | remove (h : n = .deleted n.account) : Tells n (.remove n.account)

/-- What a record is saved of is told of the account that the task works on. -/
theorem Draft.tells_notice {d : Draft} {id : AccountId} (h : d.record.id = id) :
    d.notice.Tells (.save id d.record.encode) := by
  have hid : d.notice.account = id := d.account_notice.trans h
  have htells := Notice.Tells.save d.record.encode d.kind_notice_ne
  rwa [hid] at htells

/-- What notices there can be of an account, by where it is in its life and whether it was loaded. -/
inductive Story (loaded : Bool) : Option Lifecycle → List NoticeKind → Prop
  | absent (h : loaded = false) : Story loaded none []
  | unsaved (h : loaded = false) : Story loaded (some .unsaved) []
  | discarded (h : loaded = false) : Story loaded (some .deleted) []
  | saved (n : Nat) : Story loaded (some .saved)
    ((if loaded then [] else [.created]) ++ List.replicate n .updated)
  | deleted (n : Nat) : Story loaded (some .deleted)
    ((if loaded then [] else [.created]) ++ List.replicate n .updated ++ [.deleted])

namespace Story

variable {loaded : Bool} {kinds : List NoticeKind}

theorem save_unsaved (h : Story loaded (some .unsaved) kinds) :
    Story loaded (some .saved) (kinds ++ [.created]) := by
  cases h with
  | unsaved h =>
    subst h
    exact .saved 0

theorem save_saved (h : Story loaded (some .saved) kinds) :
    Story loaded (some .saved) (kinds ++ [.updated]) := by
  cases h with
  | saved n =>
    rw [List.append_assoc, ← List.replicate_succ']
    exact .saved (n + 1)

theorem remove (h : Story loaded (some .saved) kinds) :
    Story loaded (some .deleted) (kinds ++ [.deleted]) := by
  cases h with
  | saved n => exact .deleted n

theorem discard (h : Story loaded (some .unsaved) kinds) : Story loaded (some .deleted) kinds := by
  cases h with
  | unsaved h => exact .discarded h

theorem create (h : Story loaded none kinds) : Story loaded (some .unsaved) kinds := by
  cases h with
  | absent h => exact .unsaved h

/-- Updates, and then perhaps a deletion; before them the creation, if the account was not loaded. -/
theorem kinds_eq {state : Option Lifecycle} (h : Story loaded state kinds) :
    (loaded = false ∧ kinds = []) ∨ ∃ n tail, (tail = [] ∨ tail = [.deleted]) ∧
      kinds = (if loaded then [] else [.created]) ++ List.replicate n .updated ++ tail := by
  cases h with
  | absent h | unsaved h | discarded h => exact .inl ⟨h, rfl⟩
  | saved n => exact .inr ⟨n, [], .inl rfl, (List.append_nil _).symm⟩
  | deleted n => exact .inr ⟨n, [.deleted], .inr rfl, rfl⟩

end Story

namespace Desk

/-- The notices of an account follow its writes and tell its life. -/
structure Told (loaded : Bool) (d : Desk) : Prop where
  tells : List.Forall₂ (fun r n => Notice.Tells n r) d.writes d.notices
  story : Story loaded (d.account.map (·.state)) (d.notices.map (·.kind))

namespace Told

variable {id : AccountId} {loaded : Bool} {d d' : Desk}

theorem congr (h : d.Told loaded) (hw : d'.writes = d.writes) (hn : d'.notices = d.notices)
    (hs : d'.account.map (·.state) = d.account.map (·.state)) : d'.Told loaded := by
  refine ⟨?_, ?_⟩
  · rw [hw, hn]
    exact h.tells
  · rw [hs, hn]
    exact h.story

/-- One more write, and the notice of it. -/
theorem concat (h : d.Told loaded) (hopen : d.isOpen = true) {r : Request} {n : Notice}
    (hn : n.Tells r) (hw : d'.writes = d.writes ++ [r]) (ht : d'.notices = d.tell n)
    (hs : Story loaded (d'.account.map (·.state)) (d.notices.map (·.kind) ++ [n.kind])) :
    d'.Told loaded := by
  have htell : d.tell n = d.notices ++ [n] := by rw [tell, if_pos hopen]
  refine ⟨?_, ?_⟩
  · rw [hw, ht, htell]
    exact List.rel_append h.tells (.cons hn .nil)
  · rw [ht, htell, List.map_append]
    exact hs

theorem step (h : d.isOpen = true → d.Told loaded) (hsound : d.Sound id) (hs : Stepped id d d')
    (ho : d'.isOpen = true) : d'.Told loaded := by
  cases hs with
  | idle _ hopen => exact (h (hopen ho)).congr rfl rfl rfl
  | create provider ha =>
    refine ⟨(h ho).tells, ?_⟩
    have hstory := (h ho).story
    rw [ha] at hstory
    exact hstory.create
  | edit ha _ he =>
    refine (h ho).congr rfl rfl ?_
    rw [ha]
    exact congrArg some he.state_eq
  | look | draft | advance | fail | beginRemoval => exact (h ho).congr rfl rfl rfl
  | @save t f hd =>
    obtain ⟨S, -, hdraft⟩ := hsound.drafted t _ f hd rfl
    obtain ⟨a, ha, hst, hl, -⟩ := hdraft.account
    have hstory := (h ho).story
    rw [ha, Option.map_some, hst] at hstory
    have hkind : f.notice.kind = if S.account.state = .unsaved then .created else .updated := by
      rw [hdraft.draft, Draft.kind_notice]
      simp [Draft.ofAccount]
    have hid : f.record.id = id := by rw [hdraft.draft]; rfl
    refine (h ho).concat ho (Draft.tells_notice hid) rfl rfl ?_
    show Story loaded ((d.account.map _).map _) _
    rw [ha, hkind]
    cases hS : S.account.state with
    | unsaved =>
      rw [hS] at hstory
      exact hstory.save_unsaved
    | saved =>
      rw [hS] at hstory
      exact hstory.save_saved
    | deleted => exact absurd (hst.trans hS) hl
  | @remove t hd =>
    obtain ⟨a, ha, hst⟩ := hsound.removing t hd
    have hstory := (h ho).story
    rw [ha, Option.map_some, hst] at hstory
    refine (h ho).concat ho (.remove rfl) rfl rfl ?_
    show Story loaded ((d.account.map _).map _) _
    rw [ha]
    exact hstory.remove
  | discard _ ha hu =>
    refine ⟨(h ho).tells, ?_⟩
    have hstory := (h ho).story
    rw [ha, Option.map_some, hu] at hstory
    exact hstory.discard

end Told

end Desk

/-- While the notice board is open, the notices of an account are those of its writes. -/
theorem Contents.Opens.told {c : Contents} {v : Vault} (h : c.Opens v) (id : AccountId)
    (as : List Action) (ho : ((System.start v c).run as).vault.board.isOpen = true) :
    (v.deskAfter c id as).Told (v.account? id).isSome := by
  refine h.desk_induction (P := fun d => d.isOpen = true → d.Told (v.account? id).isSome) ?_
    (fun d d' hd hp hs => Desk.Told.step hp hd hs) as ho
  intro _
  rw [h.desk_start, h.account?]
  refine ⟨.nil, ?_⟩
  show Story (c.loaded? id).isSome ((c.loaded? id).map (·.state)) []
  cases hl : c.loaded? id with
  | none => exact .absent rfl
  | some a =>
    obtain ⟨bytes, -, hd⟩ := Contents.loaded?_eq_some_iff.1 hl
    obtain ⟨-, -, hset⟩ := Contents.decodeAccount_eq_ok_iff.1 hd
    rw [← hset]
    exact .saved 0

/-! ### Who tells -/

theorem Task.Stepped.queue_eq {v : Vault} {self : TaskId} {task : Task} {p : Progress}
    (h : Stepped v self task p) : p.vault.board.queue = v.board.queue := by
  cases h with
  | pass | shut | enqueue | raise | skip => rfl
  | enter goal _ h => cases h <;> rfl

theorem Task.Replied.board_eq_of_fault {v : Vault} {self : TaskId} {task : Task} {e : Fault}
    {p : Progress} (h : Replied v self task (.error e) p) : p.vault.board = v.board := by
  cases h <;> rfl

namespace System

variable {s s' : System} {a : Action}

/-- What a step can put up: nothing, or the notice of a write that it ends well. -/
inductive Announced (s s' : System) : Action → Prop
  | nothing {a : Action} (h : s'.published = s.published) : Announced s s' a
  | one {t : TaskId} {goal : Goal} {id : AccountId} {work : Work} {p : Point} {r : Request}
    {n : Notice} (ht : s.tasks[t]? = some (.working goal id work p)) (hr : p.request? id = some r)
    (hn : n.Tells r) (h : s'.published = s.published ++ [n])
    (ht' : s'.tasks[t]? = some (.conclude goal (.ok ()))) : Announced s s' (.answer t none)

theorem published_eq (hh : s'.handed = s.handed)
    (hq : s'.vault.board.queue = s.vault.board.queue) : s'.published = s.published := by
  rw [published, published, hh, hq]

theorem announced_publish {t : TaskId} {goal : Goal} {id : AccountId} {work : Work} {p : Point}
    {r : Request} {n : Notice} (ht : s.tasks[t]? = some (.working goal id work p))
    (hr : p.request? id = some r) (hn : n.Tells r) (hh : s'.handed = s.handed)
    (hb : s'.vault.board = s.vault.board.publish n)
    (ht' : s'.tasks[t]? = some (.conclude goal (.ok ()))) : s.Announced s' (.answer t none) := by
  by_cases ho : s.vault.board.isOpen = true
  · refine .one ht hr hn ?_ ht'
    rw [published, published, hh, hb, Board.queue_publish, if_pos ho, List.append_assoc]
  · refine .nothing (published_eq hh ?_)
    rw [hb, Board.queue_publish, if_neg ho]

/-- Only a write that goes well is told of, and by the task that it ends the work of. -/
theorem announced (h : s.Orderly) (hs : s.step? a = some s') : s.Announced s' a := by
  cases stepped hs with
  | quiet _ hsame => exact .nothing hsame.published
  | create | edit | spawn => exact .nothing rfl
  | run _ hp => exact .nothing (published_eq rfl (Task.stepped hp).queue_eq)
  | fail e _ hr =>
    exact .nothing (published_eq rfl
      (congrArg Board.queue (Task.replied hr s.vault _ _).board_eq_of_fault))
  | @serve t task r ht hr =>
    have hadd := h.addressed t task ht
    have hself := tasks_record_self (s := s) (t := t)
      (task.answered s.vault t (.ok (s.contents.serve r).2))
    generalize hp : task.answered s.vault t (.ok (s.contents.serve r).2) = p at hself
    have hrep := Task.replied hr s.vault t (.ok (s.contents.serve r).2)
    rw [hp] at hrep
    cases hrep with
    | marked => exact .nothing rfl
    | saved goal id work d =>
      exact announced_publish ht rfl (Draft.tells_notice (hadd id _ d rfl rfl)) rfl
        (Vault.board_recordSaved ..) hself
    | removed goal id work =>
      exact announced_publish ht rfl (.remove rfl) rfl (Vault.board_recordRemoved ..) hself

end System

/-! ### Work that is not told of -/

/-- Whether there is nothing to write of an account, or nothing to remove. -/
def Work.Idle (a : Account) : Work → Prop
  | commit => a.state = .saved ∧ a.isDirty = false
  | delete => a.state = .unsaved

theorem Vault.enter_of_idle {v : Vault} {id : AccountId} {a : Account} {work : Work}
    (ha : v.account? id = some a) (h : work.Idle a) :
    ∃ v', v.enter id work = (v', .done (.ok ())) ∧ v'.board = v.board := by
  cases work with
  | commit =>
    obtain ⟨hs, hd⟩ := h
    have hl : v.live id = .ok a := live_eq_ok_iff.2 ⟨ha, by simp [hs]⟩
    refine ⟨v, ?_, rfl⟩
    simp [enter, draft?, hl, hs, hd, bind, Except.bind, pure, Except.pure]
  | delete =>
    have hs : a.state = .unsaved := h
    have hl : v.live id = .ok a := live_eq_ok_iff.2 ⟨ha, by simp [hs]⟩
    refine ⟨v.putAccount id { a with state := .deleted }, ?_, rfl⟩
    simp [enter, hl, hs, markDeleted_eq ha]

/-- The task that takes a step by an action. -/
def Action.task? : Action → Option TaskId
  | run t => some t
  | answer t _ => some t
  | _ => none

theorem Action.task?_of_isQuiet {a : Action} (h : a.isQuiet = true) : a.task? = none := by
  cases a <;> first | rfl | exact absurd h (by simp [isQuiet])

/-- The account that an operation works on, if it works on one only. -/
def Operation.target? : Operation → Option AccountId
  | commit id => some id
  | delete id => some id
  | deleteFound id => some id
  | flush _ => none
  | close => none

namespace System

/-- What an action puts up, if it is a step of a task. -/
def told (t : TaskId) (s : System) (a : Action) : List Notice :=
  if a.task? = some t then (s.step a).published.drop s.published.length else []

/-- All that a task puts up along a run. -/
def toldBy (t : TaskId) : System → List Action → List Notice
  | _, [] => []
  | s, a :: as => s.told t a ++ toldBy t (s.step a) as

theorem toldBy_concat (t : TaskId) (s : System) (as : List Action) (a : Action) :
    s.toldBy t (as ++ [a]) = s.toldBy t as ++ (s.run as).told t a := by
  induction as generalizing s with
  | nil => simp [toldBy]
  | cons b as ih => rw [List.cons_append, toldBy, ih, toldBy, List.append_assoc, run_cons]

theorem told_of_published {s : System} {t : TaskId} {a : Action} {l : List Notice}
    (h : (s.step a).published = s.published ++ l) :
    s.told t a = if a.task? = some t then l else [] := by
  rw [told, h, List.drop_left]

end System

/-- Whether a task works on one account only. -/
def Task.isSingle : Task → Bool
  | starting op => op.target?.isSome
  | working (.sweep _) _ _ _ => false
  | working _ _ _ _ => true
  | _ => false

namespace Task

variable {v : Vault} {self : TaskId} {task : Task} {p : Progress} {goal : Goal} {id : AccountId}
  {work : Work} {q : Point}

/-- A task that works on one account only ends with that work. -/
theorem conclude_of_isSingle (h : (working goal id work q).isSingle = true)
    (r : Except Problem Unit) : ∃ o, conclude goal r = finished o ∧ (r = .ok () → o = .ok 0) := by
  cases goal with
  | report => exact ⟨_, rfl, fun hr => by rw [hr]; rfl⟩
  | forgive =>
    cases r with
    | ok => exact ⟨_, rfl, fun _ => rfl⟩
    | error e => cases e <;> exact ⟨_, rfl, fun hr => absurd hr (by simp)⟩
  | sweep => exact absurd h (by simp [isSingle])

theorem isSingle_working (h : (working goal id work q).isSingle = true) (q' : Point) :
    (working goal id work q').isSingle = true := by
  cases goal <;> exact h

theorem isSingle_start {op : Operation} (h : (starting op).isSingle = true) (v : Vault)
    (self : TaskId) : (start v self op).task.isSingle = true ∨
      ∃ o, (start v self op).task = finished o := by
  cases op with
  | commit | delete => exact .inl rfl
  | deleteFound id =>
    rw [start]
    split
    · exact .inl rfl
    · exact .inr ⟨_, rfl⟩
  | flush | close => exact absurd h (by simp [isSingle, Operation.target?])

theorem isSingle_step {cancelled : TokenId → Bool} (h : task.isSingle = true)
    (hp : task.step cancelled v self = some p) :
    p.task.isSingle = true ∨ ∃ o, p.task = finished o := by
  cases task with
  | starting op =>
    cases hp
    exact isSingle_start h v self
  | working goal id work q =>
    cases stepped hp with
    | pass h' | shut _ h' | enqueue _ _ _ h' => exact absurd h' (by simp [place?])
    | enter _ _ hv =>
      cases hv with
      | refused | clean | discard =>
        obtain ⟨o, ho, -⟩ := conclude_of_isSingle h _
        exact .inr ⟨o, ho⟩
      | firstDraft | draft | removal => exact .inl (isSingle_working h _)
    | raise | skip => exact .inl (isSingle_working h _)
  | sweeping | draining | finished => exact absurd h (by simp [isSingle])

theorem Replied.isSingle {r : Except Fault Reply} (hr : Replied v self task r p)
    (h : task.isSingle = true) : p.task.isSingle = true ∨ ∃ o, p.task = finished o := by
  cases hr with
  | markFailed | failed | saved | removed =>
    obtain ⟨o, ho, -⟩ := conclude_of_isSingle h _
    exact .inr ⟨o, ho⟩
  | marked => exact .inl (isSingle_working h _)

end Task

namespace System

/-- How far a task has got that works on one account only, and what it has put up: nothing before its
end, and nothing if that is a failure. -/
inductive Alone (s : System) (t : TaskId) (l : List Notice) : Prop
  | underWay {task : Task} (ht : s.tasks[t]? = some task) (h : task.isSingle = true) (hl : l = [])
  | finished {o : Outcome} (ht : s.tasks[t]? = some (.finished o)) (hl : l = [] ∨ o = .ok 0)

variable {s s' : System} {t : TaskId} {l : List Notice} {a : Action}

theorem Alone.congr (h : s.Alone t l) (ht : s'.tasks[t]? = s.tasks[t]?) : s'.Alone t l := by
  cases h with
  | underWay h h' hl => exact .underWay (ht.trans h) h' hl
  | finished h hl => exact .finished (ht.trans h) hl

/-- A step of another task is no step of this one. -/
theorem tasks_of_task?_ne (hsome : s.tasks[t]? ≠ none) (hs : s.step? a = some s')
    (ha : a.task? ≠ some t) : s'.tasks[t]? = s.tasks[t]? := by
  cases stepped hs with
  | quiet _ hsame => rw [hsame.tasks]
  | create | edit => rfl
  | @spawn t' op ht =>
    refine tasks_record_of_ne ⟨s.vault, .starting op, []⟩ t ?_
    rintro rfl
    exact hsome ht
  | run | fail | serve => exact tasks_record_of_ne _ t fun h => ha (congrArg some h)

/-- The step of a task that works on one account only leaves it at work, or ends it. -/
theorem isSingle_of_step {task : Task} (ht : s.tasks[t]? = some task) (h : task.isSingle = true)
    (hs : s.step? a = some s') (ha : a.task? = some t) :
    ∃ task', s'.tasks[t]? = some task' ∧ (task'.isSingle = true ∨ ∃ o, task' = .finished o) := by
  cases stepped hs with
  | quiet hq => exact absurd ((Action.task?_of_isQuiet hq).symm.trans ha) (by simp)
  | create | edit | spawn => exact absurd ha (by simp [Action.task?])
  | run ht' hp =>
    cases ha
    obtain rfl := Option.some.inj (ht.symm.trans ht')
    exact ⟨_, tasks_record_self _, Task.isSingle_step h hp⟩
  | fail e ht' hr =>
    cases ha
    obtain rfl := Option.some.inj (ht.symm.trans ht')
    exact ⟨_, tasks_record_self _, (Task.replied hr s.vault _ _).isSingle h⟩
  | serve ht' hr =>
    cases ha
    obtain rfl := Option.some.inj (ht.symm.trans ht')
    exact ⟨_, tasks_record_self _, (Task.replied hr s.vault _ _).isSingle h⟩

theorem step?_of_finished {o : Outcome} (ht : s.tasks[t]? = some (.finished o))
    (ha : a.task? = some t) : s.step? a = none := by
  cases a with
  | run t' =>
    cases ha
    simp [step?, runTask?, ht, Task.step]
  | answer t' fault =>
    cases ha
    simp [step?, answer?, ht, Task.request?]
  | _ => exact absurd ha (by simp [Action.task?])

theorem Alone.step (horder : s.Orderly) (h : s.Alone t l) (hs : s.step? a = some s') :
    s'.Alone t (l ++ s.told t a) := by
  by_cases ha : a.task? = some t
  · cases h with
    | @underWay task ht hsingle hl =>
      subst hl
      rw [List.nil_append]
      cases announced horder hs with
      | nothing hpub =>
        rw [told_of_published (l := []) (by rw [step_of_step? hs, hpub, List.append_nil]), ite_self]
        obtain ⟨task', ht', hcase⟩ := isSingle_of_step ht hsingle hs ha
        rcases hcase with hsingle' | ⟨o, rfl⟩
        · exact .underWay ht' hsingle' rfl
        · exact .finished ht' (.inl rfl)
      | one ht₀ _ _ _ ht' =>
        cases ha
        obtain rfl := Option.some.inj (ht.symm.trans ht₀)
        obtain ⟨o, ho, hok⟩ := Task.conclude_of_isSingle hsingle (.ok ())
        rw [ho] at ht'
        exact .finished ht' (.inr (hok rfl))
    | finished ht => exact absurd (hs.symm.trans (step?_of_finished ht ha)) (by simp)
  · have hsome : s.tasks[t]? ≠ none := by
      cases h with
      | underWay ht | finished ht => rw [ht]; simp
    rw [told, if_neg ha, List.append_nil]
    exact h.congr (tasks_of_task?_ne hsome hs ha)

/-- A task that works on one account only is followed for as long as the run goes. -/
theorem alone_run (horder : s.Orderly) {op : Operation} (ht : s.tasks[t]? = some (.starting op))
    (hop : op.target?.isSome = true) (as : List Action) : (s.run as).Alone t (s.toldBy t as) := by
  induction as using List.reverseRecOn with
  | nil => exact .underWay ht hop rfl
  | append_singleton as a ih =>
    rw [toldBy_concat, run_concat]
    cases hs : (s.run as).step? a with
    | none =>
      have hsame := step_of_step?_eq_none hs
      rw [told_of_published (l := []) (by rw [hsame, List.append_nil]), ite_self, List.append_nil,
        hsame]
      exact ih
    | some s' =>
      rw [step_of_step? hs]
      exact ih.step (horder.run as) hs

/-- Nothing to write, or nothing to remove: the task is done with the account at once. -/
theorem step_of_idle {goal : Goal} {id : AccountId} {work : Work} {b : Account}
    (ht : s.tasks[t]? = some (.working goal id work .entering))
    (hold : s.vault.turns.holder? (.account id) = some t) (hb : s.vault.account? id = some b)
    (hi : work.Idle b) : (s.step (.run t)).tasks[t]? = some (.conclude goal (.ok ())) ∧
      (s.step (.run t)).published = s.published := by
  obtain ⟨v', hv, hboard⟩ := Vault.enter_of_idle hb hi
  have hs : s.step? (.run t) = some (s.record t
      (Task.proceed v' t goal id work (.done (.ok ())))) := by
    simp only [step?, runTask?, ht, bind, Option.bind_some, Task.step, if_pos hold, hv]
    rfl
  rw [step_of_step? hs]
  exact ⟨tasks_record_self _, published_eq rfl (congrArg Board.queue hboard)⟩

theorem announced_step (h : s.Orderly) (a : Action) : s.Announced (s.step a) a := by
  cases hs : s.step? a with
  | none => exact .nothing (congrArg published (step_of_step?_eq_none hs))
  | some s' =>
    rw [step_of_step? hs]
    exact announced h hs

/-- An operation on one account that fails has put up nothing. -/
theorem toldBy_eq_nil (h : s.Orderly) {op : Operation} (ht : s.tasks[t]? = none)
    (hop : op.target?.isSome = true) (after : List Action) {e : Problem}
    (he : ((s.step (.spawn t op)).run after).outcome? t = some (.error e)) :
    (s.step (.spawn t op)).toldBy t after = [] := by
  have hs : s.step? (.spawn t op) = some { s with tasks := s.tasks.insert t (.starting op) } := by
    simp [step?, ht]
  rw [step_of_step? hs] at he ⊢
  cases alone_run (h.step hs) Std.ExtTreeMap.getElem?_insert_self hop after with
  | underWay _ _ hl => exact hl
  | finished ht' hl =>
    rcases hl with hl | rfl
    · exact hl
    · rw [outcome?, ht'] at he
      exact absurd he (by simp [Task.outcome?])

end System

/-- As long as the notice board is open, the notices of an account are one for one those of its saves and
removals that went well, in their order: updates, and then perhaps a deletion, and for an account that
was not loaded the creation before them, or nothing at all.  Every notice is put up by a task whose work
it ends well.  A task that works on one account and fails has put up nothing, and neither does a task
that finds nothing to write or to remove. -/
theorem notices_follow_writes {c : Contents} {options : Options} {catalog : Catalog} {v : Vault}
    (hv : c.opened options catalog = .ok v) (as : List Action) :
    let s := (System.start v c).run as
    (s.vault.board.isOpen = true → ∀ id,
      List.Forall₂ (fun r n => Notice.Tells n r) (s.served.filter (·.target? = some id))
        (s.published.filter (·.account = id)) ∧
      let kinds := (s.published.filter (·.account = id)).map (·.kind)
      ((v.account? id = none ∧ kinds = []) ∨ ∃ n tail, (tail = [] ∨ tail = [.deleted]) ∧
        kinds = (if (v.account? id).isSome then [] else [.created]) ++ List.replicate n .updated ++
          tail)) ∧
    (∀ a, s.Announced (s.step a) a) ∧
    (∀ t op after e, s.tasks[t]? = none → op.target?.isSome = true →
      ((s.step (.spawn t op)).run after).outcome? t = some (.error e) →
        (s.step (.spawn t op)).toldBy t after = []) ∧
    ∀ t goal id work a, s.tasks[t]? = some (.working goal id work .entering) →
      s.vault.turns.holder? (.account id) = some t → s.vault.account? id = some a → work.Idle a →
      (s.step (.run t)).tasks[t]? = some (.conclude goal (.ok ())) ∧
        (s.step (.run t)).published = s.published := by
  intro s
  have h := Contents.opens_of_opened hv
  have horder : s.Orderly := h.orderly_run as
  refine ⟨fun ho id => ?_, System.announced_step horder, fun t op after e ht hop he =>
    System.toldBy_eq_nil horder ht hop after he, fun t goal id work a ht hold ha hi =>
    System.step_of_idle ht hold ha hi⟩
  have htold := h.told id as ho
  refine ⟨htold.tells, ?_⟩
  rcases htold.story.kinds_eq with ⟨hn, hk⟩ | hk
  · exact .inl ⟨Option.not_isSome_iff_eq_none.1 (by simp [hn]), hk⟩
  · exact .inr hk

/-- A commit that fails is not told of; then come the creation, an update and the deletion. -/
theorem notices_follow_writes_of_new :
    let failing : List Action := [.run 0, .run 0, .run 0, .answer 0 (some (.refused .saveMark))]
    let as : List Action := [.create "acme", .spawn 0 (.commit 1)] ++ failing ++ [.spawn 1 (.commit 1),
      .run 1, .run 1, .run 1, .answer 1 none, .answer 1 none, .spawn 2 (.commit 1), .run 2, .run 2,
      .edit 1 (.rename "Ada"), .spawn 3 (.flush none), .run 3, .run 3, .run 3, .answer 3 none,
      .spawn 4 (.deleteFound 1), .run 4, .run 4, .answer 4 none]
    List.Forall₂ (fun r n => Notice.Tells n r)
        (((System.start {} ∅).run as).served.filter (·.target? = some 1))
        [.created 1 [] [], .updated 1 [] [], .deleted 1] ∧
      ((System.start {} ∅).run [.create "acme", .spawn 0 (.commit 1)]).toldBy 0 failing = [] ∧
      ((System.start {} ∅).run (as.take 15)).published =
        ((System.start {} ∅).run (as.take 14)).published := by
  intro failing as
  have hv := Contents.opened_empty {} {} rfl
  have hpub : ((System.start {} ∅).run as).published.filter (·.account = 1) =
      [.created 1 [] [], .updated 1 [] [], .deleted 1] := by decide +kernel
  obtain ⟨htells, -⟩ := (notices_follow_writes hv as).1 (by decide +kernel) 1
  rw [hpub] at htells
  refine ⟨htells, ?_, ?_⟩
  · exact (notices_follow_writes hv [.create "acme"]).2.2.1 0 (.commit 1) failing _ rfl rfl rfl
  · exact ((notices_follow_writes hv (as.take 14)).2.2.2 2 .report 1 .commit _ rfl rfl rfl
      ⟨rfl, rfl⟩).2

end AccountVault
