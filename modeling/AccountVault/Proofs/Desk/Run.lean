import AccountVault.Proofs.Desk.Simulation
import AccountVault.Proofs.Desk.Sound
import AccountVault.Proofs.Opening

/-!
# Desks along runs

From a vault that has just been opened, every run keeps systems orderly and desks sound.  Main
statement: `Vault.desk_induction`, by which whatever the steps of a sound desk keep holds at every
desk after every run.
-/

namespace AccountVault

/-- What an onlooker has written down about an account after a run. -/
def Vault.history (v : Vault) (c : Contents) (id : AccountId) (as : List Action) : Chronicle :=
  (System.start v c).chronicle id (.opened (v.account? id)) as

/-- The desk of an account after a run. -/
def Vault.deskAfter (v : Vault) (c : Contents) (id : AccountId) (as : List Action) : Desk :=
  ((System.start v c).run as).desk id (v.history c id as)

namespace System

theorem run_concat (s : System) (as : List Action) (a : Action) :
    s.run (as ++ [a]) = (s.run as).step a := by
  rw [run_append, run_cons, run_nil]

theorem chronicle_concat (id : AccountId) (s : System) (c : Chronicle) (as : List Action)
    (a : Action) : s.chronicle id c (as ++ [a]) =
      if ((s.run as).step? a).isSome then (s.chronicle id c as).note id (s.run as) a
      else s.chronicle id c as := by
  rw [chronicle_append]
  rfl

/-- A step of a run is a step of each desk, or nothing happens. -/
theorem desk_concat {s : System} (h : s.Orderly) (as : List Action) (a : Action) (id : AccountId)
    (c : Chronicle) : let d := (s.run as).desk id (s.chronicle id c as)
    let d' := (s.run (as ++ [a])).desk id (s.chronicle id c (as ++ [a]))
    d' = d ∨ Desk.Stepped id d d' := by
  have h' := h.run as
  simp only [run_concat, chronicle_concat, step]
  cases hs : (s.run as).step? a with
  | none => exact .inl rfl
  | some s' => exact .inr (desk_step h' hs id _)

end System

/-- What is kept of an account can be loaded. -/
theorem Desk.Sound.decodeAccount_of_kept {id : AccountId} {d : Desk} {S : Snapshot}
    (h : d.Sound id) (hS : d.chronicle.kept = some S) :
    ∃ bytes, d.stored = some bytes ∧ Vault.decodeAccount id bytes = .ok S.account.settled := by
  obtain ⟨-, ⟨bytes, hb, hd⟩, a, -, -, hof⟩ := h.kept S hS
  exact ⟨bytes, hb, Contents.decodeAccount_eq_ok_iff.2
    ⟨hd, ⟨hof.tidy.settings, hof.tidy.bindings⟩, rfl⟩⟩

namespace Contents.Opens

variable {c : Contents} {v : Vault}

theorem orderly (h : c.Opens v) : (System.start v c).Orderly :=
  ⟨fun t task _ ht => absurd ht (by simp [System.start]), h.fresh,
    fun t task ht => absurd ht (by simp [System.start])⟩

theorem orderly_run (h : c.Opens v) (as : List Action) : ((System.start v c).run as).Orderly :=
  h.orderly.run as

/-- The desk of an account that was loaded, or is not there yet. -/
theorem desk_start (h : c.Opens v) (id : AccountId) : v.deskAfter c id [] =
    { account := c.loaded? id
      found := (c.loaded? id).isSome
      stored := c.record? id
      active := none
      isOpen := true
      notices := []
      writes := []
      chronicle := .opened (c.loaded? id) } := by
  refine Desk.ext (h.account? id) (h.finds id) rfl ?_ ?_ ?_ rfl ?_
  · show (System.start v c).active id = none
    simp [System.active, System.start]
  · show v.board.isOpen = true
    rw [h.board]
  · show (v.board.queue.filter _) = []
    rw [h.board]
    rfl
  · exact congrArg Chronicle.opened (h.account? id)

theorem sound_start (h : c.Opens v) (id : AccountId) : (v.deskAfter c id []).Sound id := by
  rw [h.desk_start]
  cases hl : c.loaded? id with
  | none =>
    refine ⟨fun _ => ⟨rfl, rfl, rfl⟩, fun a ha => absurd ha (by simp), rfl,
      fun S hS => absurd hS (by simp [Chronicle.opened]), fun _ => ⟨?_, fun a ha => absurd ha (by simp)⟩,
      fun _ _ _ ht => absurd ht (by simp), fun _ ht => absurd ht (by simp)⟩
    -- a record that is there can be read, so that its account would have been loaded
    refine Option.eq_none_iff_forall_ne_some.2 fun bytes hb => ?_
    obtain ⟨a, ha⟩ := h.readable id bytes hb
    exact absurd (hl.symm.trans (Contents.loaded?_eq_some_iff.2 ⟨bytes, hb, ha⟩)) (by simp)
  | some a =>
    obtain ⟨bytes, hb, hd⟩ := Contents.loaded?_eq_some_iff.1 hl
    obtain ⟨hrec, ht, hset⟩ := Contents.decodeAccount_eq_ok_iff.1 hd
    have hst : a.state = .saved := by rw [← hset]; rfl
    have hch : a.changes = {} := by rw [← hset]; rfl
    refine ⟨fun hn => absurd hn (by simp), fun b hb => ?_, rfl, fun S hS => ?_,
      fun hn => absurd hn (by simp [Chronicle.opened]), fun _ _ _ ht => absurd ht (by simp),
      fun _ ht => absurd ht (by simp)⟩
    · cases hb
      exact ⟨ht, Account.reflects_nil a, hch.trans ChangeLog.settle_new.symm, Nat.zero_le _⟩
    · cases hS
      exact ⟨rfl, ⟨bytes, hb, hrec⟩, a, rfl, hst,
        Snapshot.of_now (l := []) ht (Account.reflects_nil a)⟩

/-- What holds at a desk at the start, and is kept by every step of a sound desk, holds after every
run. -/
theorem desk_induction {P : Desk → Prop} {id : AccountId} (h : c.Opens v)
    (start : P (v.deskAfter c id []))
    (step : ∀ d d', d.Sound id → P d → Desk.Stepped id d d' → P d') (as : List Action) :
    P (v.deskAfter c id as) := by
  suffices hP : (v.deskAfter c id as).Sound id ∧ P (v.deskAfter c id as) from hP.2
  induction as using List.reverseRecOn with
  | nil => exact ⟨h.sound_start id, start⟩
  | append_singleton as a ih =>
    rcases System.desk_concat h.orderly as a id (.opened (v.account? id)) with heq | hs
    · have heq' : v.deskAfter c id (as ++ [a]) = v.deskAfter c id as := heq
      rw [heq']
      exact ih
    · exact ⟨ih.1.step hs, step _ _ ih.1 ih.2 hs⟩

theorem sound (h : c.Opens v) (id : AccountId) (as : List Action) : (v.deskAfter c id as).Sound id :=
  h.desk_induction (h.sound_start id) (fun _ _ hd _ hs => hd.step hs) as

end Contents.Opens

end AccountVault
