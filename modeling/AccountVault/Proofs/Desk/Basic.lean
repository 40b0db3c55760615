import AccountVault.Proofs.Desk.Chronicle
import AccountVault.Proofs.System.Turns

/-!
# Desks

A desk is all of a system that concerns one account, together with the account's chronicle.  Every step
of a system is a step of each desk (`System.desk_step`); what the steps of a desk are is said once, by
`Desk.Stepped`, so that the invariants of an account need not look at tasks, turns or other accounts.
-/

namespace AccountVault

/-- What is about to be written. -/
def Point.draft? : Point → Option Draft
  | awaitingMark d => some d
  | raisingMark d _ => some d
  | saving d => some d
  | _ => none

/-- The account whose record a request changes. -/
def Request.target? : Request → Option AccountId
  | save id _ => some id
  | remove id => some id
  | _ => none

@[ext]
structure Desk where
  account : Option Account
  /-- Whether the account is found under its id. -/
  found : Bool
  stored : Option Bytes
  /-- The task at work on the account, and how far it has got. -/
  active : Option (TaskId × Point)
  /-- Whether the notice board is open. -/
  isOpen : Bool
  /-- All notices about the account. -/
  notices : List Notice
  /-- The saves and removals of the account's record that went well. -/
  writes : List Request
  chronicle : Chronicle

namespace Desk

/-- The notices after one more has been put up. -/
def tell (d : Desk) (n : Notice) : List Notice := d.notices ++ if d.isOpen then [n] else []

/-- What a step of a system can do at the desk of an account. -/
inductive Stepped (id : AccountId) (d : Desk) : Desk → Prop
  | idle (isOpen : Bool) (h : isOpen = true → d.isOpen = true) : Stepped id d { d with isOpen }
  | create (provider : String) (h : d.account = none) :
    Stepped id d { d with account := some { provider } }
  | edit {a a' : Account} {e : Edit} (ha : d.account = some a) (hs : a.state ≠ .deleted)
    (he : a.Edited e a') :
    Stepped id d { d with account := some a', chronicle := d.chronicle.addEdit a e }
  /-- A commit finds nothing to write. -/
  | look {a : Account} (t : TaskId) (hd : d.active = none) (ha : d.account = some a) :
    Stepped id d { d with chronicle := d.chronicle.draw t a }
  | draft {a : Account} {p : Point} (t : TaskId) (hd : d.active = none) (ha : d.account = some a)
    (hs : a.state = .unsaved ∨ a.state = .saved) (hp : p.draft? = some (.ofAccount id a)) :
    Stepped id d { d with active := some (t, p), chronicle := d.chronicle.draw t a }
  | advance {t : TaskId} {p p' : Point} (hd : d.active = some (t, p)) (hs : p.draft?.isSome)
    (hp : p'.draft? = p.draft?) : Stepped id d { d with active := some (t, p') }
  | fail {t : TaskId} {p : Point} (hd : d.active = some (t, p)) :
    Stepped id d { d with active := none }
  | save {t : TaskId} {f : Draft} (hd : d.active = some (t, .saving f)) :
    Stepped id d { d with
      account := d.account.map (·.markSaved f.revision)
      found := d.found || f.isNew
      stored := some f.record.encode
      active := none
      notices := d.tell f.notice
      writes := d.writes ++ [.save id f.record.encode]
      chronicle := d.chronicle.save t }
  | beginRemoval {a : Account} (t : TaskId) (hd : d.active = none) (ha : d.account = some a)
    (hs : a.state = .saved) : Stepped id d { d with active := some (t, .removing) }
  | remove {t : TaskId} (hd : d.active = some (t, .removing)) :
    Stepped id d { d with
      account := d.account.map fun a => { a with state := .deleted }
      found := false
      stored := none
      active := none
      notices := d.tell (.deleted id)
      writes := d.writes ++ [.remove id]
      chronicle := d.chronicle.remove }
  /-- An account that was never written is deleted. -/
  | discard {a : Account} (hd : d.active = none) (ha : d.account = some a)
    (hs : a.state = .unsaved) :
    Stepped id d { d with account := some { a with state := .deleted } }

end Desk

/-! ### The desk of an account -/

namespace Task

/-- How far the work on an account has got, once it has begun. -/
def at? (task : Task) (id : AccountId) : Option Point :=
  task.place?.bind fun q => if q.1 = id ∧ q.2 ≠ .entering then some q.2 else none

theorem at?_eq_some_iff {task : Task} {id : AccountId} {p : Point} :
    task.at? id = some p ↔ task.place? = some (id, p) ∧ p ≠ .entering := by
  rw [at?]
  cases task.place? with
  | none => simp
  | some q =>
    obtain ⟨i, p'⟩ := q
    simp only [Option.bind_some]
    split
    · rename_i hq
      constructor
      · intro h
        cases h
        exact ⟨by rw [hq.1], hq.2⟩
      · rintro ⟨h, -⟩
        cases h
        rfl
    · rename_i hq
      simp only [reduceCtorEq, Option.some.injEq, Prod.mk.injEq, false_iff]
      rintro ⟨⟨rfl, rfl⟩, hp⟩
      exact hq ⟨rfl, hp⟩

theorem holds_of_at? {task : Task} {id : AccountId} {p : Point} (h : task.at? id = some p) :
    task.holds (.account id) = true := by
  obtain ⟨hp, hne⟩ := at?_eq_some_iff.1 h
  simp [holds, hp, hne]

theorem at?_of_place?_eq_none {task : Task} (h : task.place? = none) (id : AccountId) :
    task.at? id = none := by
  rw [at?, h]
  rfl

theorem at?_working {goal : Goal} {id : AccountId} {work : Work} {p : Point} (hp : p ≠ .entering) :
    (working goal id work p).at? id = some p := at?_eq_some_iff.2 ⟨rfl, hp⟩

theorem at?_working_of_ne {goal : Goal} {i id : AccountId} {work : Work} {p : Point}
    (h : i ≠ id) : (working goal i work p).at? id = none := by
  simp [at?, place?, h]

theorem at?_entering (goal : Goal) (i id : AccountId) (work : Work) :
    (working goal i work .entering).at? id = none := by
  simp [at?, place?]

end Task

namespace System

/-- The task at work on an account, and how far it has got. -/
def active (s : System) (id : AccountId) : Option (TaskId × Point) := do
  let t ← s.vault.turns.holder? (.account id)
  let p ← s.tasks[t]?.bind (·.at? id)
  return (t, p)

def desk (s : System) (id : AccountId) (c : Chronicle) : Desk where
  account := s.vault.account? id
  found := s.vault.finds id
  stored := s.contents.record? id
  active := s.active id
  isOpen := s.vault.board.isOpen
  notices := s.published.filter (·.account = id)
  writes := s.served.filter (·.target? = some id)
  chronicle := c

variable {s : System} {id : AccountId}

/-- While turns are held, whoever is at work on an account is the one at its desk. -/
theorem InTurn.active_eq_some_iff (h : s.InTurn) {t : TaskId} {p : Point} :
    s.active id = some (t, p) ↔ s.tasks[t]?.bind (·.at? id) = some p := by
  constructor
  · intro ha
    simp only [active, bind, Option.bind_eq_some_iff] at ha
    obtain ⟨t', -, p', ht, he⟩ := ha
    cases he
    exact Option.bind_eq_some_iff.2 ht
  · intro hp
    obtain ⟨task, ht, hat⟩ := Option.bind_eq_some_iff.1 hp
    simp [active, h t task _ ht (Task.holds_of_at? hat), ht, hat]

variable {s' : System} {t : TaskId}

/-- A task that is not at work on an account, before and after a step, is not noticed. -/
theorem active_congr (h : s.InTurn) (h' : s'.InTurn)
    (hs : ∀ other, t ≠ other → s'.tasks[other]? = s.tasks[other]?)
    (ht : s.tasks[t]?.bind (·.at? id) = none) (ht' : s'.tasks[t]?.bind (·.at? id) = none) :
    s'.active id = s.active id := by
  refine Option.ext fun q => ?_
  obtain ⟨other, p⟩ := q
  rw [h.active_eq_some_iff, h'.active_eq_some_iff]
  by_cases ho : t = other
  · subst other
    rw [ht, ht']
  · rw [hs other ho]

/-- Once the task at work has left, nobody is at the desk. -/
theorem active_eq_none (h : s.InTurn) (h' : s'.InTurn)
    (hs : ∀ other, t ≠ other → s'.tasks[other]? = s.tasks[other]?) {p : Point}
    (ht : s.tasks[t]?.bind (·.at? id) = some p) (ht' : s'.tasks[t]?.bind (·.at? id) = none) :
    s'.active id = none := by
  refine Option.eq_none_iff_forall_ne_some.2 fun ⟨other, p'⟩ hp' => ?_
  rw [h'.active_eq_some_iff] at hp'
  by_cases ho : t = other
  · subst other
    rw [ht'] at hp'
    exact absurd hp' (by simp)
  · rw [hs other ho, ← h.active_eq_some_iff, h.active_eq_some_iff.2 ht] at hp'
    exact ho (congrArg Prod.fst (Option.some.inj hp'))

/-- Whoever holds an account's turn and has not begun finds nobody at the desk. -/
theorem active_eq_none_of_hold (hold : s.vault.turns.holder? (.account id) = some t)
    (ht : s.tasks[t]?.bind (·.at? id) = none) : s.active id = none := by
  simp [active, hold, ht]

theorem tasks_record_of_ne (p : Progress) (other : TaskId) (h : t ≠ other) :
    (s.record t p).tasks[other]? = s.tasks[other]? := by
  rw [getElem?_record, if_neg h]

theorem tasks_record_self (p : Progress) : (s.record t p).tasks[t]? = some p.task := by
  rw [getElem?_record, if_pos rfl]

/-- A task at work on an account after its step is at the desk. -/
theorem active_working {p : Progress} (h : (s.record t p).InTurn) {goal : Goal} {work : Work}
    {q : Point} (hp : p.task = .working goal id work q) (hq : q ≠ .entering) :
    (s.record t p).active id = some (t, q) :=
  h.active_eq_some_iff.2 (by rw [tasks_record_self, hp, Option.bind_some, Task.at?_working hq])

end System

end AccountVault
