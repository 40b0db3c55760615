import AccountVault.Proofs.System.Turns

/-!
# Queues hold who waits

A task stands in the queue for a turn, once, exactly while its work is at a point where it waits for the
turn or holds it (`System.InLine`).  So whoever has joined a queue comes to its front as the others
leave, and no task that is done stays in one.  This holds at the start and is kept by every step.
-/

namespace AccountVault

/-- Whether a task is at a stage of its work where it waits for a turn or holds it. -/
def Task.queues (task : Task) : Turn → Bool
  | .account id => task.place?.any fun q => q.1 = id
  | .mark => task.place?.any fun q => match q.2 with
    | .awaitingMark _ => true
    | .raisingMark .. => true
    | _ => false

/-- How one step can change the queue for a turn, by whether its task belongs there before and after. -/
inductive QueueChange (self : TaskId) : Bool → Bool → List TaskId → List TaskId → Prop
  | same {b : Bool} {q : List TaskId} : QueueChange self b b q q
  | join {q : List TaskId} : QueueChange self false true q (q ++ [self])
  | leave {q : List TaskId} (h : q.head? = some self) : QueueChange self true false q q.tail

namespace QueueChange

variable {self t : TaskId} {b b' : Bool} {q q' : List TaskId}

theorem mem_iff_of_ne (h : QueueChange self b b' q q') (ht : t ≠ self) : t ∈ q' ↔ t ∈ q := by
  cases h with
  | same => exact Iff.rfl
  | join => simp [ht]
  | leave h =>
    obtain ⟨rest, rfl⟩ := List.head?_eq_some_iff.1 h
    simp [ht]

theorem nodup (h : QueueChange self b b' q q') (hq : q.Nodup) (hb : self ∈ q ↔ b = true) :
    q'.Nodup := by
  cases h with
  | same => exact hq
  | join =>
    have hself : self ∉ q := by simp [hb]
    exact List.nodup_append.2 ⟨hq, by simp, by simp; rintro t ht rfl; exact hself ht⟩
  | leave h => exact hq.sublist (List.tail_sublist q)

theorem mem_self_iff (h : QueueChange self b b' q q') (hq : q.Nodup) (hb : self ∈ q ↔ b = true) :
    self ∈ q' ↔ b' = true := by
  cases h with
  | same => exact hb
  | join => simp
  | leave h =>
    obtain ⟨rest, rfl⟩ := List.head?_eq_some_iff.1 h
    have hself : self ∉ rest := (List.nodup_cons.1 hq).1
    simp [hself]

end QueueChange

namespace Task

theorem queues_of_place?_eq_none {task : Task} (h : task.place? = none) (turn : Turn) :
    task.queues turn = false := by
  cases turn <;> simp [queues, h]

/-- A task that is done with an account leaves the queue for its turn, and is in no other. -/
theorem queueChange_done {v v' : Vault} {self : TaskId} {goal : Goal} {id : AccountId} {work : Work}
    {p : Point} {task : Task} (hold : v.turns.holder? (.account id) = some self)
    (hv : v'.turns = v.turns) (hp : (working goal id work p).queues .mark = false)
    (ht : task.place? = none) (turn : Turn) :
    QueueChange self ((working goal id work p).queues turn) (task.queues turn)
      (v.turns.queue turn) ((release v' (.account id)).1.turns.queue turn) := by
  rw [queue_release, hv, queues_of_place?_eq_none ht]
  split
  · subst turn
    rw [show (working goal id work p).queues (.account id) = true by simp [queues, place?]]
    exact .leave hold
  · rename_i hne
    have hf : (working goal id work p).queues turn = false := by
      cases turn with
      | mark => exact hp
      | account other => simpa [queues, place?] using hne
    rw [hf]
    exact .same

theorem Stepped.queueChange {v : Vault} {self : TaskId} {task : Task} {p : Progress}
    (h : Stepped v self task p) (turn : Turn) : QueueChange self (task.queues turn)
      (p.task.queues turn) (v.turns.queue turn) (p.vault.turns.queue turn) := by
  cases h with
  | pass h h' =>
    rw [queues_of_place?_eq_none h, queues_of_place?_eq_none h']
    exact .same
  | shut o h =>
    have hdrain : (Task.shut v o).task.queues turn = false := queues_of_place?_eq_none rfl turn
    rw [queues_of_place?_eq_none h, hdrain]
    exact .same
  | enqueue goal id work h =>
    rw [queues_of_place?_eq_none h, Task.enqueue, Turns.queue_join]
    split
    · subst turn
      rw [show (working goal id work .entering).queues (.account id) = true by simp [queues, place?]]
      exact .join
    · rename_i hne
      have hf : (working goal id work .entering).queues turn = false := by
        cases turn with
        | mark => rfl
        | account other => simpa [queues, place?] using hne
      rw [hf]
      exact .same
  | @enter v' stage goal id work hold h =>
    have ht := turns_of_entered h
    cases h with
    | refused | clean | discard => exact queueChange_done hold ht rfl (place?_conclude ..) turn
    | draft | removal => cases turn <;> exact .same
    | @firstDraft a ha hs =>
      show QueueChange self _ _ _ ((v.turns.join .mark self).queue turn)
      rw [Turns.queue_join]
      cases turn with
      | mark => exact .join
      | account => exact .same
  | raise => cases turn <;> exact .same
  | skip goal id work d hold =>
    rw [queue_release]
    cases turn with
    | mark => exact .leave hold
    | account => exact .same

theorem Replied.queueChange {v : Vault} {self : TaskId} {task : Task} {r : Except Fault Reply}
    {p : Progress} {request : Request} (h : Replied v self task r p)
    (hr : task.request? = some request)
    (hold : ∀ turn, task.holds turn = true → v.turns.holder? turn = some self) (turn : Turn) :
    QueueChange self (task.queues turn) (p.task.queues turn) (v.turns.queue turn)
      (p.vault.turns.queue turn) := by
  cases h with
  | markFailed goal id work d next e woken =>
    have haccount := hold (.account id) (by simp [holds, place?])
    have hmark := hold .mark (by simp [holds, place?])
    rw [queues_of_place?_eq_none (place?_conclude ..), queue_release, queue_release, queue_release]
    cases turn with
    | mark => exact .leave hmark
    | account other =>
      by_cases hi : id = other
      · subst hi
        simp only [queues, place?, Option.any_some, decide_true, if_true]
        exact .leave haccount
      · simp only [queues, place?, Option.any_some, hi, decide_false, Turn.account.injEq, if_false]
        exact .same
  | failed goal id work p e woken hp hm =>
    have hmark : (working goal id work p).queues .mark = false := by
      cases p with
      | awaitingMark => exact absurd hr (by simp [request?, Point.request?])
      | raisingMark d next => exact absurd rfl (hm d next)
      | _ => rfl
    exact queueChange_done (hold (.account id) (by simp [holds, place?, hp])) rfl hmark
      (place?_conclude ..) turn
  | marked goal id work d next reply woken =>
    show QueueChange self _ _ _ ((release v .mark).1.turns.queue turn)
    rw [queue_release]
    cases turn with
    | mark => exact .leave (hold .mark (by simp [holds, place?]))
    | account => exact .same
  | saved goal id work d reply woken =>
    exact queueChange_done (hold (.account id) (by simp [holds, place?])) (by simp) rfl
      (place?_conclude ..) turn
  | removed goal id work reply woken =>
    exact queueChange_done (hold (.account id) (by simp [holds, place?])) (by simp) rfl
      (place?_conclude ..) turn

end Task

namespace System

/-- The queues hold the tasks that belong there, each once. -/
def InLine (s : System) : Prop :=
  ∀ turn, (s.vault.turns.queue turn).Nodup ∧
    ∀ t, t ∈ s.vault.turns.queue turn ↔ ∃ task, s.tasks[t]? = some task ∧ task.queues turn = true

theorem inLine_record {s : System} (h : s.InLine) {t : TaskId} {task : Task} {p : Progress}
    (ht : s.tasks[t]? = some task) (hp : ∀ turn, QueueChange t (task.queues turn)
      (p.task.queues turn) (s.vault.turns.queue turn) (p.vault.turns.queue turn)) :
    (s.record t p).InLine := by
  intro turn
  obtain ⟨hq, hmem⟩ := h turn
  have hself : t ∈ s.vault.turns.queue turn ↔ task.queues turn = true := by
    rw [hmem, ht]
    simp
  refine ⟨(hp turn).nodup hq hself, fun other => ?_⟩
  rw [getElem?_record]
  by_cases ho : t = other
  · subst other
    rw [if_pos rfl]
    exact ((hp turn).mem_self_iff hq hself).trans (by simp)
  · rw [if_neg ho, ← hmem]
    exact (hp turn).mem_iff_of_ne (Ne.symm ho)

theorem InLine.step {s s' : System} {a : Action} (h : s.InLine) (hturn : s.InTurn)
    (hs : s.step? a = some s') : s'.InLine := by
  cases stepped hs with
  | quiet _ hsame =>
    intro turn
    rw [hsame.turns, hsame.tasks]
    exact h turn
  | create | edit => exact h
  | @spawn t op ht =>
    intro turn
    have hstart : (Task.starting op).queues turn = false := Task.queues_of_place?_eq_none rfl turn
    refine ⟨(h turn).1, fun other => ((h turn).2 other).trans ?_⟩
    rw [Std.ExtTreeMap.getElem?_insert]
    split
    · rename_i ho
      obtain rfl := Std.LawfulEqCmp.eq_of_compare ho
      simp [ht, hstart]
    · rfl
  | run ht hp => exact inLine_record h ht (Task.stepped hp).queueChange
  | fail e ht hr =>
    exact inLine_record h ht ((Task.replied hr _ _ _).queueChange hr fun turn => hturn _ _ turn ht)
  | serve ht hr =>
    exact inLine_record h ht ((Task.replied hr _ _ _).queueChange hr fun turn => hturn _ _ turn ht)

end System

end AccountVault
