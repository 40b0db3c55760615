import AccountVault.Proofs.System.Moves

/-!
# Turns are held

Whoever is past the queue for a turn holds it (`System.InTurn`), so that no two tasks are at work on
one account, and ids are given out once (`Vault.Fresh`).  Both hold at the start and are kept by every
step.
-/

namespace AccountVault

/-- Whether a task is at a stage of its work that needs a turn. -/
def Task.holds (task : Task) : Turn → Bool
  | .account id => task.place?.any fun q => q.1 = id ∧ q.2 ≠ .entering
  | .mark => task.place?.any fun q => match q.2 with
    | .raisingMark .. => true
    | _ => false

/-- How one step can move a task in a queue, by whether it needs the turn afterwards. -/
inductive QueueMove (self : TaskId) : Bool → List TaskId → List TaskId → Prop
  | stay {q : List TaskId} : QueueMove self false q q
  | keep {q : List TaskId} (h : q.head? = some self) : QueueMove self true q q
  | join {q : List TaskId} : QueueMove self false q (q ++ [self])
  | leave {q : List TaskId} (h : q.head? = some self) : QueueMove self false q q.tail

namespace QueueMove

variable {self : TaskId} {b : Bool} {q q' : List TaskId}

theorem head?_of_holds (h : QueueMove self true q q') : q'.head? = some self := by
  cases h
  assumption

/-- The others that hold the turn keep it. -/
theorem head?_of_ne (h : QueueMove self b q q') {t : TaskId} (ht : t ≠ self)
    (hq : q.head? = some t) : q'.head? = some t := by
  cases h with
  | stay => exact hq
  | keep => exact hq
  | join => rw [List.head?_append, hq]; rfl
  | leave h =>
    rw [hq] at h
    exact absurd (Option.some.inj h) ht

end QueueMove

namespace Task

theorem holds_of_place?_eq_none {task : Task} (h : task.place? = none) (turn : Turn) :
    task.holds turn = false := by
  cases turn <;> simp [holds, h]

theorem turns_of_entered {v v' : Vault} {id : AccountId} {w : Work} {stage : Stage}
    (h : v.Entered id w v' stage) : v'.turns = v.turns := by
  cases h <;> rfl

theorem queue_release (v : Vault) (turn other : Turn) :
    (release v turn).1.turns.queue other =
      if turn = other then (v.turns.queue turn).tail else v.turns.queue other :=
  Turns.queue_leave ..

/-- A task that is done with an account gives up the turn, and moves in no other queue. -/
theorem queueMove_done {v v' : Vault} {self : TaskId} {id : AccountId} {task : Task}
    (hold : v.turns.holder? (.account id) = some self) (hv : v'.turns = v.turns)
    (ht : task.place? = none) (turn : Turn) :
    QueueMove self (task.holds turn) (v.turns.queue turn)
      ((release v' (.account id)).1.turns.queue turn) := by
  rw [queue_release, hv, holds_of_place?_eq_none ht]
  split
  · subst turn
    exact .leave hold
  · exact .stay

/-- A task at work on an account stays in the queue for its turn. -/
theorem queueMove_working {v : Vault} {self : TaskId} {goal : Goal} {id : AccountId} {work : Work}
    {p : Point} (hold : v.turns.holder? (.account id) = some self) (hp : p ≠ .entering)
    {other : AccountId} :
    QueueMove self ((working goal id work p).holds (.account other))
      (v.turns.queue (.account other)) (v.turns.queue (.account other)) := by
  by_cases hi : id = other
  · subst other
    rw [show (working goal id work p).holds (.account id) = true by simp [holds, place?, hp]]
    exact .keep hold
  · rw [show (working goal id work p).holds (.account other) = false by simp [holds, place?, hi]]
    exact .stay

theorem Stepped.queueMove {v : Vault} {self : TaskId} {task : Task} {p : Progress}
    (h : Stepped v self task p)
    (hold : ∀ turn, task.holds turn = true → v.turns.holder? turn = some self) (turn : Turn) :
    QueueMove self (p.task.holds turn) (v.turns.queue turn) (p.vault.turns.queue turn) := by
  cases h with
  | pass _ h' => rw [holds_of_place?_eq_none h']; exact .stay
  | shut o _ =>
    rw [show (Task.shut v o).task.holds turn = false from holds_of_place?_eq_none rfl turn]
    exact .stay
  | enqueue goal id work _ =>
    have hf : (Task.enqueue v self goal id work).task.holds turn = false := by
      cases turn <;> simp [Task.enqueue, holds, place?]
    rw [hf, Task.enqueue, Turns.queue_join]
    split
    · subst turn
      exact .join
    · exact .stay
  | @enter v' stage goal id work hold' h =>
    have ht := turns_of_entered h
    cases h with
    | refused | clean | discard => exact queueMove_done hold' ht (place?_conclude ..) turn
    | draft | removal =>
      cases turn with
      | mark => exact .stay
      | account => exact queueMove_working hold' (by simp)
    | firstDraft =>
      cases turn with
      | mark =>
        show QueueMove self false _ ((v.turns.join .mark self).queue .mark)
        rw [Turns.queue_join, if_pos rfl]
        exact .join
      | account other =>
        show QueueMove self _ _ ((v.turns.join .mark self).queue (.account other))
        rw [Turns.queue_join, if_neg (by simp)]
        exact queueMove_working hold' (by simp)
  | raise goal id work d hold' _ =>
    cases turn with
    | mark => exact .keep hold'
    | account => exact queueMove_working (hold (.account id) (by simp [holds, place?])) (by simp)
  | skip goal id work d hold' _ =>
    cases turn with
    | mark =>
      rw [queue_release, if_pos rfl]
      exact .leave hold'
    | account other =>
      rw [queue_release, if_neg (by simp)]
      exact queueMove_working (hold (.account id) (by simp [holds, place?])) (by simp)

theorem Replied.queueMove {v : Vault} {self : TaskId} {task : Task} {r : Except Fault Reply}
    {p : Progress} (h : Replied v self task r p)
    (hold : ∀ turn, task.holds turn = true → v.turns.holder? turn = some self) (turn : Turn) :
    QueueMove self (p.task.holds turn) (v.turns.queue turn) (p.vault.turns.queue turn) := by
  cases h with
  | markFailed goal id work d next e woken =>
    rw [holds_of_place?_eq_none (place?_conclude ..), queue_release]
    split
    · subst turn
      rw [queue_release, if_neg (by simp)]
      exact .leave (hold (.account id) (by simp [holds, place?]))
    · rw [queue_release]
      split
      · subst turn
        exact .leave (hold .mark (by simp [holds, place?]))
      · exact .stay
  | failed goal id work p e woken hp _ =>
    exact queueMove_done (hold (.account id) (by simp [holds, place?, hp])) rfl
      (place?_conclude ..) turn
  | marked goal id work d next reply woken =>
    cases turn with
    | mark =>
      show QueueMove self _ _ ((release v .mark).1.turns.queue .mark)
      rw [queue_release, if_pos rfl]
      exact .leave (hold .mark (by simp [holds, place?]))
    | account other =>
      show QueueMove self _ _ ((release v .mark).1.turns.queue (.account other))
      rw [queue_release, if_neg (by simp)]
      exact queueMove_working (hold (.account id) (by simp [holds, place?])) (by simp)
  | saved goal id work d reply woken =>
    exact queueMove_done (hold (.account id) (by simp [holds, place?])) (by simp)
      (place?_conclude ..) turn
  | removed goal id work reply woken =>
    exact queueMove_done (hold (.account id) (by simp [holds, place?])) (by simp)
      (place?_conclude ..) turn

/-! ### Ids -/

/-- A task adds no account and gives out no id. -/
theorem Stepped.ids {v : Vault} {self : TaskId} {task : Task} {p : Progress}
    (h : Stepped v self task p) : p.vault.nextId = v.nextId ∧
      ∀ id, (p.vault.account? id).isSome = (v.account? id).isSome := by
  cases h with
  | pass | shut | enqueue | raise | skip => exact ⟨rfl, fun _ => rfl⟩
  | enter goal _ h =>
    cases h with
    | refused | clean | firstDraft | draft | removal => exact ⟨rfl, fun _ => rfl⟩
    | @discard a ha =>
      refine ⟨rfl, fun other => ?_⟩
      refine (congrArg _ (Vault.account?_putAccount ..)).trans ?_
      split
      · subst other
        rw [ha]
        rfl
      · rfl

theorem Replied.ids {v : Vault} {self : TaskId} {task : Task} {r : Except Fault Reply}
    {p : Progress} (h : Replied v self task r p) : p.vault.nextId = v.nextId ∧
      ∀ id, (p.vault.account? id).isSome = (v.account? id).isSome := by
  cases h with
  | markFailed | failed | marked => exact ⟨rfl, fun _ => rfl⟩
  | saved =>
    refine ⟨Vault.nextId_recordSaved .., fun other => ?_⟩
    refine (congrArg _ (Vault.account?_recordSaved ..)).trans ?_
    split
    · subst other
      rw [Option.isSome_map]
    · rfl
  | removed =>
    refine ⟨Vault.nextId_recordRemoved .., fun other => ?_⟩
    refine (congrArg _ (Vault.account?_recordRemoved ..)).trans ?_
    split
    · subst other
      rw [Option.isSome_map]
    · rfl

end Task

/-- No account has an id that is still to be given out. -/
def Vault.Fresh (v : Vault) : Prop := ∀ id, (v.account? id).isSome → id < v.nextId

theorem Vault.Fresh.of_ids {v v' : Vault} (h : v.Fresh) (hv : v'.nextId = v.nextId ∧
    ∀ id, (v'.account? id).isSome = (v.account? id).isSome) : v'.Fresh := by
  intro id hid
  rw [hv.1]
  exact h id (hv.2 id ▸ hid)

theorem Vault.Fresh.create {v : Vault} (h : v.Fresh) (hn : v.nextId.toNat + 1 < UInt64.size)
    (a : Account) : Vault.Fresh { v.putAccount v.nextId a with nextId := v.nextId + 1 } := by
  have hlt := AccountId.lt_add_one hn
  intro id hid
  have hget : (v.putAccount v.nextId a).account? id = _ := account?_putAccount ..
  by_cases hi : v.nextId = id
  · exact hi ▸ hlt
  · rw [if_neg hi] at hget
    exact UInt64.lt_trans (h id (hget ▸ hid)) hlt

namespace System

/-- Every task that needs a turn holds it. -/
def InTurn (s : System) : Prop :=
  ∀ (t : TaskId) (task : Task) (turn : Turn), s.tasks[t]? = some task → task.holds turn = true →
    s.vault.turns.holder? turn = some t

theorem getElem?_record (s : System) (t other : TaskId) (p : Progress) :
    (s.record t p).tasks[other]? = if t = other then some p.task else s.tasks[other]? := by
  simp [record, Std.ExtTreeMap.getElem?_insert]

theorem inTurn_record {s : System} (h : s.InTurn) {t : TaskId} {p : Progress}
    (hp : ∀ turn, QueueMove t (p.task.holds turn) (s.vault.turns.queue turn)
      (p.vault.turns.queue turn)) : (s.record t p).InTurn := by
  intro t' task' turn ht' hh
  have hm := hp turn
  rw [getElem?_record] at ht'
  split at ht'
  · subst t'
    cases ht'
    rw [hh] at hm
    exact hm.head?_of_holds
  · exact hm.head?_of_ne (Ne.symm ‹_›) (h t' task' turn ht' hh)

theorem InTurn.step {s s' : System} {a : Action} (h : s.InTurn) (hs : s.step? a = some s') :
    s'.InTurn := by
  cases stepped hs with
  | quiet _ hsame =>
    intro t task turn ht hh
    rw [hsame.turns]
    exact h t task turn (by rw [← hsame.tasks]; exact ht) hh
  | create | edit => exact h
  | @spawn t op ht =>
    intro t' task' turn ht' hh
    rw [Std.ExtTreeMap.getElem?_insert] at ht'
    split at ht'
    · cases ht'
      exact absurd hh (by rw [Task.holds_of_place?_eq_none rfl]; simp)
    · exact h t' task' turn ht' hh
  | run ht hp => exact inTurn_record h ((Task.stepped hp).queueMove fun turn => h _ _ turn ht)
  | fail e ht hr =>
    exact inTurn_record h ((Task.replied hr _ _ _).queueMove fun turn => h _ _ turn ht)
  | serve ht hr =>
    exact inTurn_record h ((Task.replied hr _ _ _).queueMove fun turn => h _ _ turn ht)

/-- No two tasks are at work on one account. -/
theorem InTurn.eq_of_holds {s : System} (h : s.InTurn) {t t' : TaskId} {task task' : Task}
    {turn : Turn} (ht : s.tasks[t]? = some task) (ht' : s.tasks[t']? = some task')
    (hh : task.holds turn = true) (hh' : task'.holds turn = true) : t = t' :=
  Option.some.inj ((h t task turn ht hh).symm.trans (h t' task' turn ht' hh'))

theorem fresh_step {s s' : System} {a : Action} (h : s.vault.Fresh) (hs : s.step? a = some s') :
    s'.vault.Fresh := by
  cases stepped hs with
  | quiet _ hsame => exact h.of_ids ⟨hsame.nextId, fun id => by rw [Vault.account?, hsame.accounts]; rfl⟩
  | create provider hn => exact h.create hn _
  | @edit id _ a a' ha =>
    refine h.of_ids ⟨rfl, fun other => ?_⟩
    rw [Vault.account?_putAccount]
    split
    · subst other
      rw [ha]
      rfl
    · rfl
  | spawn => exact h
  | run _ hp => exact h.of_ids (Task.stepped hp).ids
  | fail e _ hr => exact h.of_ids (Task.replied hr s.vault _ _).ids
  | serve _ hr => exact h.of_ids (Task.replied hr s.vault _ _).ids

end System

end AccountVault
