import AccountVault.Proofs.Desk.Run
import AccountVault.Proofs.System.Queues

/-!
# The life of an account goes one way

A system is sound (`System.Sound`) when turns are kept in order and every desk agrees with some
chronicle.  Then no step takes an account back: one that has been written stays written until it is
deleted, and one that has been deleted stays deleted (`System.Reached.run`).
-/

namespace AccountVault

namespace Lifecycle

/-- How far on in its life an account is. -/
def rank : Lifecycle → Nat
  | unsaved => 0
  | saved => 1
  | deleted => 2

theorem rank_le_deleted (l : Lifecycle) : l.rank ≤ deleted.rank := by
  cases l <;> decide

theorem eq_deleted_of_rank_le {l : Lifecycle} (h : deleted.rank ≤ l.rank) : l = deleted := by
  cases l with
  | deleted => rfl
  | unsaved | saved => exact absurd h (by decide)

end Lifecycle

namespace Desk

/-- What happens at a sound desk does not take its account back. -/
theorem Stepped.rank_le {id : AccountId} {d d' : Desk} {a : Account} (h : Stepped id d d')
    (hd : d.Sound id) (ha : d.account = some a) :
    ∃ a', d'.account = some a' ∧ a.state.rank ≤ a'.state.rank := by
  cases h with
  | idle | look | draft | advance | fail | beginRemoval => exact ⟨a, ha, Nat.le_refl _⟩
  | create _ hn => exact absurd (ha.symm.trans hn) (by simp)
  | edit hb _ he =>
    obtain rfl := Option.some.inj (ha.symm.trans hb)
    exact ⟨_, rfl, Nat.le_of_eq (congrArg _ he.state_eq.symm)⟩
  | @save t f hact =>
    -- only what was not deleted when the draft was taken is written
    obtain ⟨S, -, hdraft⟩ := hd.drafted t _ f hact rfl
    obtain ⟨b, hb, -, hlive, -⟩ := hdraft.account
    obtain rfl := Option.some.inj (ha.symm.trans hb)
    refine ⟨a.markSaved f.revision, by rw [ha]; rfl, ?_⟩
    show a.state.rank ≤ Lifecycle.saved.rank
    cases hs : a.state with
    | unsaved | saved => decide
    | deleted => exact absurd hs hlive
  | remove => exact ⟨_, by rw [ha]; rfl, Lifecycle.rank_le_deleted _⟩
  | discard _ hb =>
    obtain rfl := Option.some.inj (ha.symm.trans hb)
    exact ⟨_, rfl, Lifecycle.rank_le_deleted _⟩

end Desk

namespace System

/-- Turns and queues are in order, and there are chronicles that all desks agree with. -/
structure Sound (s : System) : Prop where
  orderly : s.Orderly
  inLine : s.InLine
  desks : ∀ id, ∃ c, (s.desk id c).Sound id

variable {s s' : System} {a : Action} {id : AccountId}

theorem Sound.step (h : s.Sound) (hs : s.step? a = some s') : s'.Sound := by
  refine ⟨h.orderly.step hs, h.inLine.step h.orderly.inTurn hs, fun id => ?_⟩
  obtain ⟨c, hc⟩ := h.desks id
  exact ⟨c.note id s a, hc.step (desk_step h.orderly hs id c)⟩

theorem Sound.run (h : s.Sound) (as : List Action) : (s.run as).Sound :=
  run_induction (fun _ _ _ h hs => h.step hs) h as

/-- An account is there, and has come at least as far as a point of its life. -/
def Reached (s : System) (id : AccountId) (l : Lifecycle) : Prop :=
  ∃ a, s.vault.account? id = some a ∧ l.rank ≤ a.state.rank

theorem reached_deleted_iff :
    s.Reached id .deleted ↔ ∃ a, s.vault.account? id = some a ∧ a.state = .deleted := by
  constructor
  · rintro ⟨a, ha, hr⟩
    exact ⟨a, ha, Lifecycle.eq_deleted_of_rank_le hr⟩
  · rintro ⟨a, ha, hs⟩
    exact ⟨a, ha, Nat.le_of_eq (congrArg _ hs.symm)⟩

theorem Reached.step {l : Lifecycle} (h : s.Reached id l) (hsound : s.Sound)
    (hs : s.step? a = some s') : s'.Reached id l := by
  obtain ⟨b, hb, hr⟩ := h
  obtain ⟨c, hc⟩ := hsound.desks id
  obtain ⟨b', hb', hle⟩ := (desk_step hsound.orderly hs id c).rank_le hc hb
  exact ⟨b', hb', Nat.le_trans hr hle⟩

/-- Whatever an account has come to, no run takes it back. -/
theorem Reached.run {l : Lifecycle} (h : s.Reached id l) (hsound : s.Sound) (as : List Action) :
    (s.run as).Reached id l :=
  (run_induction (P := fun s => s.Sound ∧ s.Reached id l)
    (fun _ _ _ h hs => ⟨h.1.step hs, h.2.step h.1 hs⟩) ⟨hsound, h⟩ as).2

theorem Reached.state_eq (h : s.Reached id .deleted) {b : Account}
    (hb : s.vault.account? id = some b) : b.state = .deleted := by
  obtain ⟨a, ha, hs⟩ := reached_deleted_iff.1 h
  obtain rfl := Option.some.inj (ha.symm.trans hb)
  exact hs

/-! ### What is found and what is stored -/

/-- The accounts that are found are those that are saved. -/
theorem Sound.finds_iff (h : s.Sound) :
    s.vault.finds id = true ↔ ∃ a, s.vault.account? id = some a ∧ a.state = .saved := by
  obtain ⟨c, hc⟩ := h.desks id
  have hfound : s.vault.finds id = c.kept.isSome := hc.found
  rw [hfound]
  constructor
  · intro hk
    obtain ⟨S, hS⟩ := Option.isSome_iff_exists.1 hk
    obtain ⟨-, -, a, ha, hs, -⟩ := hc.kept S hS
    exact ⟨a, ha, hs⟩
  · rintro ⟨a, ha, hs⟩
    exact hc.isSome_kept ha hs

/-- The accounts with a record are those that are saved. -/
theorem Sound.isSome_record?_iff (h : s.Sound) :
    (s.contents.record? id).isSome ↔ ∃ a, s.vault.account? id = some a ∧ a.state = .saved := by
  obtain ⟨c, hc⟩ := h.desks id
  rw [← h.finds_iff, show s.vault.finds id = c.kept.isSome from hc.found]
  cases hk : c.kept with
  | none =>
    have hstored : s.contents.record? id = none := (hc.notKept hk).1
    simp [hstored]
  | some S =>
    obtain ⟨bytes, hb, -⟩ := (hc.kept S hk).stored
    have hstored : s.contents.record? id = some bytes := hb
    simp [hstored]

theorem Sound.reached_of_finds (h : s.Sound) (hf : s.vault.finds id = true) :
    s.Reached id .saved := by
  obtain ⟨a, ha, hs⟩ := h.finds_iff.1 hf
  exact ⟨a, ha, Nat.le_of_eq (congrArg _ hs.symm)⟩

/-- An account that has been written and is not found has been deleted. -/
theorem Sound.reached_deleted (h : s.Sound) (hr : s.Reached id .saved)
    (hf : s.vault.finds id = false) : s.Reached id .deleted := by
  obtain ⟨a, ha, hrank⟩ := hr
  refine reached_deleted_iff.2 ⟨a, ha, ?_⟩
  cases hs : a.state with
  | deleted => rfl
  | saved => rw [h.finds_iff.2 ⟨a, ha, hs⟩] at hf; exact absurd hf (by simp)
  | unsaved => rw [hs] at hrank; exact absurd hrank (by decide)

/-- A deleted account is not found, and nothing is stored of it. -/
theorem Sound.absent_of_deleted (h : s.Sound) (hdel : s.Reached id .deleted) :
    s.vault.finds id = false ∧ s.contents.record? id = none := by
  have hnot : ¬ ∃ a, s.vault.account? id = some a ∧ a.state = .saved := by
    rintro ⟨a, ha, hs⟩
    exact absurd (hs.symm.trans (hdel.state_eq ha)) (by simp)
  constructor
  · rwa [← h.finds_iff, Bool.not_eq_true] at hnot
  · rwa [← h.isSome_record?_iff, Option.not_isSome_iff_eq_none] at hnot

/-- A task that has begun its work on an account is the one at its desk. -/
theorem Sound.active_eq_some (h : s.Sound) {t : TaskId} {goal : Goal} {work : Work} {p : Point}
    (ht : s.tasks[t]? = some (.working goal id work p)) (hp : p ≠ .entering) :
    s.active id = some (t, p) := by
  rw [h.orderly.inTurn.active_eq_some_iff, ht, Option.bind_some]
  exact Task.at?_working hp

end System

namespace Contents.Opens

variable {c : Contents} {v : Vault}

theorem inLine (h : c.Opens v) : (System.start v c).InLine := by
  intro turn
  have hq : v.turns.queue turn = [] := by
    rw [h.turns]
    cases turn <;> rfl
  refine ⟨?_, fun t => ?_⟩
  · rw [show (System.start v c).vault.turns.queue turn = [] from hq]
    exact .nil
  · rw [show (System.start v c).vault.turns.queue turn = [] from hq]
    simp [System.start]

theorem sound_start_run (h : c.Opens v) (as : List Action) : ((System.start v c).run as).Sound :=
  System.Sound.run ⟨h.orderly, h.inLine, fun id => ⟨_, h.sound_start id⟩⟩ as

end Contents.Opens

end AccountVault
