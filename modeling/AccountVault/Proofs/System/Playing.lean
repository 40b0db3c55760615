import AccountVault.Proofs.System.Basic
import AccountVault.Timeline.Handle

/-!
# Timelines play systems

A timeline runs its tasks in one order of many, and answers their requests as its depots say.  Whatever
it does with a vault that has a depot in memory to itself, some run of a system does (`Timeline.Plays`):
`Plays.edit`, `Plays.switchService`, `Plays.spawn`, `Plays.perform`, `Plays.run` and `Plays.passTo`.  So
what every run of a system keeps holds on timelines (`Follows.exists_plays`).
-/

namespace AccountVault

namespace Timeline

/-- A vault of a timeline, its depot and its tasks are as in a system, and nobody else uses the depot. -/
structure Plays (t : Timeline) (i : VaultId) (depot : DepotId) (s : System) : Prop where
  seat : t.vaults[i]? = some ⟨s.vault, depot⟩
  backing : ∃ d, t.depots[depot]? = some d ∧ d.backing = .memory s.contents
  alone : ∀ (j : VaultId) (seat : Seat), t.vaults[j]? = some seat → seat.depot = depot → j = i
  tasks : ∀ id : TaskId, s.tasks[id]? = t.tasks[id]?.bind fun q => if q.1 = i then some q.2 else none
  seated : ∀ (id : TaskId) (j : VaultId) (task : Task), t.tasks[id]? = some (j, task) →
    j < t.vaults.length
  pending : ∀ (id : TaskId) (p : Pending), t.pending[id]? = some p →
    ∃ j task, t.tasks[id]? = some (j, task) ∧ task.request? = some p.request
  cancelled : s.cancelled = t.cancelled

/-- Some run of a system brings it to where a timeline is. -/
def Follows (t : Timeline) (i : VaultId) (depot : DepotId) (s : System) : Prop :=
  ∃ as, t.Plays i depot (s.run as)

/-- Timelines that differ in their clock and their queues only. -/
structure Alike (t t' : Timeline) : Prop where
  vaults : t'.vaults = t.vaults
  depots : t'.depots = t.depots
  tasks : t'.tasks = t.tasks
  pending : t'.pending = t.pending
  cancelled : t'.cancelled = t.cancelled

theorem Alike.trans {t t' t'' : Timeline} (h : t.Alike t') (h' : t'.Alike t'') : t.Alike t'' :=
  ⟨h'.vaults.trans h.vaults, h'.depots.trans h.depots, h'.tasks.trans h.tasks,
    h'.pending.trans h.pending, h'.cancelled.trans h.cancelled⟩

theorem alike_queue (t : Timeline) (job : Job) : t.Alike (t.queue job) := by
  unfold queue
  split <;> exact ⟨rfl, rfl, rfl, rfl, rfl⟩

theorem alike_wake (t : Timeline) (id : TaskId) : t.Alike (t.wake id) := by
  unfold wake
  split
  · exact ⟨rfl, rfl, rfl, rfl, rfl⟩
  · exact alike_queue t _

theorem alike_foldl_wake (t : Timeline) (ids : List TaskId) : t.Alike (ids.foldl wake t) := by
  induction ids generalizing t with
  | nil => exact ⟨rfl, rfl, rfl, rfl, rfl⟩
  | cons id ids ih => exact (alike_wake t id).trans (ih _)

theorem alike_putVault (t : Timeline) (id : VaultId) (v : Vault) :
    (t.setVault id v).Alike (t.putVault id v) := by
  rw [putVault]
  split
  · exact alike_queue _ _
  · exact ⟨rfl, rfl, rfl, rfl, rfl⟩

theorem alike_record (t : Timeline) (id : TaskId) (vault : VaultId) (p : Progress) :
    Alike { t.setVault vault p.vault with tasks := t.tasks.set id (vault, p.task) }
      (t.record id vault p) := by
  refine Alike.trans ?_ (alike_foldl_wake _ _)
  have h := alike_putVault t vault p.vault
  exact ⟨h.vaults, h.depots, rfl, h.pending, h.cancelled⟩

/-- Handing out notices changes the board of a vault and wakes tasks. -/
theorem alike_runDispatch (t : Timeline) (i : VaultId) :
    (t.setVault i { t.vault i with board := (t.vault i).board.drain.1 }).Alike (t.runDispatch i) := by
  let t' : Timeline := { t.setVault i { t.vault i with board := (t.vault i).board.drain.1 } with
    delivered := t.delivered ++ (t.vault i).board.drain.2.map fun d => (i, d) }
  have hrun : t.runDispatch i =
      if (t.vault i).board.drain.1.isOpen then t' else (t'.draining i).foldl wake t' := rfl
  rw [hrun]
  split
  · exact ⟨rfl, rfl, rfl, rfl, rfl⟩
  · have ht' : (t.setVault i { t.vault i with board := (t.vault i).board.drain.1 }).Alike t' :=
      ⟨rfl, rfl, rfl, rfl, rfl⟩
    exact ht'.trans (alike_foldl_wake t' _)

namespace Plays

variable {t t' : Timeline} {i : VaultId} {depot : DepotId} {s : System}

theorem of_alike (h : t.Plays i depot s) (ht : t.Alike t') : t'.Plays i depot s := by
  refine ⟨?_, ?_, ?_, ?_, ?_, ?_, ?_⟩
  · rw [ht.vaults]
    exact h.seat
  · rw [ht.depots]
    exact h.backing
  · rw [ht.vaults]
    exact h.alone
  · rw [ht.tasks]
    exact h.tasks
  · rw [ht.tasks, ht.vaults]
    exact h.seated
  · rw [ht.tasks, ht.pending]
    exact h.pending
  · rw [ht.cancelled]
    exact h.cancelled

theorem follows (h : t.Plays i depot s) : t.Follows i depot s := ⟨[], h⟩

theorem seat_eq (h : t.Plays i depot s) : t.seat i = ⟨s.vault, depot⟩ := by
  rw [Timeline.seat, List.getD_eq_getElem?_getD, h.seat]
  rfl

theorem vault_eq (h : t.Plays i depot s) : t.vault i = s.vault := by
  rw [vault, h.seat_eq]

/-- Other vaults write elsewhere. -/
theorem depot_ne (h : t.Plays i depot s) {id : TaskId} {j : VaultId} {task : Task}
    (ht : t.tasks[id]? = some (j, task)) (hj : j ≠ i) : (t.seat j).depot ≠ depot := by
  intro hd
  have hlt := h.seated id j task ht
  refine hj (h.alone j (t.seat j) ?_ hd)
  rw [Timeline.seat, List.getD_eq_getElem?_getD, List.getElem?_eq_getElem hlt]
  rfl

/-- A vault that is put in place keeps its seat. -/
theorem setVault (h : t.Plays i depot s) (j : VaultId) (v : Vault) :
    (t.setVault j v).Plays i depot (if j = i then { s with vault := v } else s) := by
  have hget : ∀ (k : VaultId) (seat : Seat), (t.setVault j v).vaults[k]? = some seat →
      ∃ seat', t.vaults[k]? = some seat' ∧ seat'.depot = seat.depot := by
    intro k seat hk
    rw [Timeline.setVault, List.getElem?_set] at hk
    split at hk
    · subst k
      split at hk
      · rename_i hlt
        cases hk
        exact ⟨_, List.getElem?_eq_getElem hlt, by
          rw [Timeline.seat, List.getD_eq_getElem?_getD, List.getElem?_eq_getElem hlt]; rfl⟩
      · exact absurd hk (by simp)
    · exact ⟨seat, hk, rfl⟩
  have hseat : (t.setVault j v).vaults[i]? =
      some ⟨(if j = i then { s with vault := v } else s).vault, depot⟩ := by
    rw [Timeline.setVault, List.getElem?_set]
    split
    · subst j
      rw [if_pos (List.getElem?_eq_some_iff.1 h.seat).1, h.seat_eq]
    · exact h.seat
  refine ⟨hseat, ?_, fun k seat hk hd => ?_, fun id => ?_, fun id k task ht => ?_, h.pending, ?_⟩
  · obtain ⟨d, hd, hb⟩ := h.backing
    exact ⟨d, hd, by split <;> exact hb⟩
  · obtain ⟨seat', hk', hd'⟩ := hget k seat hk
    exact h.alone k seat' hk' (hd'.trans hd)
  · refine Eq.trans ?_ (h.tasks id)
    split <;> rfl
  · rw [Timeline.setVault, List.length_set]
    exact h.seated id k task ht
  · refine Eq.trans ?_ h.cancelled
    split <;> rfl

/-- A task of the vault goes on where the system's does, and one of another vault is not seen. -/
theorem setTask (h : t.Plays i depot s) {id : TaskId} {j : VaultId} {task : Task}
    (ht : t.tasks[id]? = some (j, task)) (hp : t.pending[id]? = none) (task' : Task) :
    Plays { t with tasks := t.tasks.set id (j, task') } i depot
      (if j = i then { s with tasks := s.tasks.insert id task' } else s) := by
  have hlt := (List.getElem?_eq_some_iff.1 ht).1
  have hget : ∀ other : TaskId, (t.tasks.set id (j, task'))[other]? =
      if id = other then some (j, task') else t.tasks[other]? := by
    intro other
    rw [List.getElem?_set, if_pos hlt]
  refine ⟨?_, ?_, h.alone, fun other => ?_, fun other k task hk => ?_, fun other q hq => ?_, ?_⟩
  · rw [show (if j = i then { s with tasks := s.tasks.insert id task' } else s).vault = s.vault by
      split <;> rfl]
    exact h.seat
  · obtain ⟨d, hd, hb⟩ := h.backing
    exact ⟨d, hd, by split <;> exact hb⟩
  · show _ = ((t.tasks.set id (j, task'))[other]?).bind _
    rw [hget]
    by_cases hj : j = i
    · rw [if_pos hj]
      show (s.tasks.insert id task')[other]? = _
      rw [Std.ExtTreeMap.getElem?_insert]
      by_cases ho : id = other
      · simp [ho, hj]
      · simp [ho, h.tasks other]
    · rw [if_neg hj, h.tasks other]
      by_cases ho : id = other
      · subst other
        simp [ht, hj]
      · rw [if_neg ho]
  · change (t.tasks.set id (j, task'))[other]? = some (k, task) at hk
    rw [hget] at hk
    split at hk
    · cases hk
      exact h.seated id j _ ht
    · exact h.seated other k task hk
  · obtain ⟨k, task, hk, hr⟩ := h.pending other q hq
    refine ⟨k, task, ?_, hr⟩
    show (t.tasks.set id (j, task'))[other]? = _
    rw [hget, if_neg]
    · exact hk
    · rintro rfl
      exact absurd (hp.symm.trans hq) (by simp)
  · refine Eq.trans ?_ h.cancelled
    split <;> rfl

/-- What a task of the vault has done is taken in, and what another has done to its vault is not seen. -/
theorem record (h : t.Plays i depot s) {id : TaskId} {j : VaultId} {task : Task}
    (ht : t.tasks[id]? = some (j, task)) (hp : t.pending[id]? = none) (p : Progress) :
    (t.record id j p).Plays i depot (if j = i then s.record id p else s) := by
  have hset := (h.setVault j p.vault).setTask ht hp p.task
  refine (of_alike ?_ (alike_record t id j p))
  by_cases hj : j = i
  · rw [if_pos hj, if_pos hj] at hset
    rw [if_pos hj]
    exact hset
  · rw [if_neg hj, if_neg hj] at hset
    rw [if_neg hj]
    exact hset

/-- A depot that is used by others only can change. -/
theorem setDepot_ne (h : t.Plays i depot s) {other : DepotId} (ho : other ≠ depot) (d : Depot) :
    (t.setDepot other d).Plays i depot s := by
  refine ⟨h.seat, ?_, h.alone, h.tasks, h.seated, h.pending, h.cancelled⟩
  obtain ⟨d', hd, hb⟩ := h.backing
  refine ⟨d', ?_, hb⟩
  rw [Timeline.setDepot, List.getElem?_set_ne ho]
  exact hd

theorem setDepot (h : t.Plays i depot s) {d : Depot} {contents : Contents}
    (hb : d.backing = .memory contents) (served : List Request) :
    (t.setDepot depot d).Plays i depot { s with contents, served } := by
  refine ⟨h.seat, ?_, h.alone, h.tasks, h.seated, h.pending, h.cancelled⟩
  obtain ⟨d', hd, -⟩ := h.backing
  refine ⟨d, ?_, hb⟩
  rw [Timeline.setDepot, List.getElem?_set_self (List.getElem?_eq_some_iff.1 hd).1]

/-- The next step of a task that takes no answer. -/
theorem step (h : t.Plays i depot s) {id : TaskId} {j : VaultId} {task : Task}
    (ht : t.tasks[id]? = some (j, task)) (hp : t.pending[id]? = none) {p : Progress}
    (hs : task.step t.isCancelled (t.vault j) id = some p) :
    (t.record id j p).Follows i depot s := by
  have hrec := h.record ht hp p
  by_cases hj : j = i
  · subst j
    rw [if_pos rfl] at hrec
    refine ⟨[.run id], ?_⟩
    have hstep : s.step? (.run id) = some (s.record id p) := by
      have hc : s.isCancelled = t.isCancelled := by
        funext token
        rw [System.isCancelled, h.cancelled, Timeline.isCancelled]
      rw [h.vault_eq] at hs
      simp [System.step?, System.runTask?, h.tasks id, ht, hc, hs]
    rw [System.run_cons, System.run_nil, System.step_of_step? hstep]
    exact hrec
  · rw [if_neg hj] at hrec
    exact hrec.follows

/-- Only a list of ids can be made longer. -/
theorem withExtraIds_serve {task : Task} {r : Request} (hr : task.request? = some r) (d : Depot)
    (c : Contents) : d.withExtraIds (c.serve r).2 = (c.serve r).2 := by
  cases task with
  | working goal id work p => cases p <;> cases hr <;> rfl
  | _ => exact absurd hr (by simp [Task.request?])

theorem erasePending (h : t.Plays i depot s) (id : TaskId) :
    Plays { t with pending := t.pending.erase id } i depot s := by
  refine ⟨h.seat, h.backing, h.alone, h.tasks, h.seated, fun other q hq => ?_, h.cancelled⟩
  refine h.pending other q ?_
  change (t.pending.erase id)[other]? = some q at hq
  rw [Std.ExtTreeMap.getElem?_erase] at hq
  split at hq
  · exact absurd hq (by simp)
  · exact hq

theorem endCall_ne (h : t.Plays i depot s) {other : DepotId} (ho : other ≠ depot) (p : Pending) :
    (t.endCall other p).1.Plays i depot s :=
  of_alike (h.setDepot_ne ho _) ⟨rfl, rfl, rfl, rfl, rfl⟩

/-- A request at the depot fails and has no effect, or is served. -/
theorem endCall (h : t.Plays i depot s) (p : Pending) :
    (∃ e, (t.endCall depot p).2 = .error e ∧ (t.endCall depot p).1.Plays i depot s) ∨
    ∃ d : Depot, (t.endCall depot p).2 = .ok (d.withExtraIds (s.contents.serve p.request).2) ∧
      (t.endCall depot p).1.Plays i depot { s with
        contents := (s.contents.serve p.request).1, served := s.served ++ [p.request] } := by
  obtain ⟨d, hd, hb⟩ := h.backing
  have hdepot : t.depot depot = d := by
    rw [Timeline.depot, List.getD_eq_getElem?_getD, hd]
    rfl
  cases he : p.ending with
  | served =>
    have hend : t.endCall depot p =
        ({ t.setDepot depot { d with backing := .memory (s.contents.serve p.request).1 } with
          files := t.files }, .ok (d.withExtraIds (s.contents.serve p.request).2)) := by
      simp [Timeline.endCall, hdepot, he, Depot.finish, hb, Backing.serve, Except.map]
    rw [hend]
    exact .inr ⟨d, rfl, of_alike (h.setDepot rfl _) ⟨rfl, rfl, rfl, rfl, rfl⟩⟩
  | refused =>
    rw [Timeline.endCall, hdepot, he]
    exact .inl ⟨_, rfl, of_alike (h.setDepot hb s.served) ⟨rfl, rfl, rfl, rfl, rfl⟩⟩
  | timedOut limit =>
    rw [Timeline.endCall, hdepot, he]
    exact .inl ⟨_, rfl, of_alike (h.setDepot hb s.served) ⟨rfl, rfl, rfl, rfl, rfl⟩⟩

/-- The end of a request, and what its task does then. -/
theorem answer (h : t.Plays i depot s) {id : TaskId} {j : VaultId} {task : Task} {p : Pending}
    (ht : t.tasks[id]? = some (j, task)) (hp : t.pending[id]? = some p) :
    Follows (Timeline.record { (t.endCall (t.seat j).depot p).1 with pending := t.pending.erase id } id j
      (task.answered (t.vault j) id (t.endCall (t.seat j).depot p).2)) i depot s := by
  have hnone : (t.pending.erase id)[id]? = none := Std.ExtTreeMap.getElem?_erase_self
  obtain ⟨k, task', hk, hr⟩ := h.pending id p hp
  cases ht.symm.trans hk
  by_cases hj : j = i
  · subst j
    rw [h.vault_eq, h.seat_eq]
    have hs : s.tasks[id]? = some task := by
      rw [h.tasks id, ht]
      exact if_pos rfl
    rcases h.endCall p with ⟨e, he, hplays⟩ | ⟨d, he, hplays⟩
    · have hrec := (hplays.erasePending id).record ht hnone
        (task.answered s.vault id (t.endCall depot p).2)
      rw [if_pos rfl, he] at hrec
      refine ⟨[.answer id (some e)], ?_⟩
      have hstep : s.step? (.answer id (some e)) =
          some (s.record id (task.answered s.vault id (.error e))) := by
        simp [System.step?, System.answer?, hs, hr]
      rw [System.run_cons, System.run_nil, System.step_of_step? hstep, he]
      exact hrec
    · have hrec := (hplays.erasePending id).record ht hnone
        (task.answered s.vault id (t.endCall depot p).2)
      rw [if_pos rfl, he, withExtraIds_serve hr] at hrec
      refine ⟨[.answer id none], ?_⟩
      have hstep : s.step? (.answer id none) =
          some { s.record id (task.answered s.vault id (.ok (s.contents.serve p.request).2)) with
            contents := (s.contents.serve p.request).1, served := s.served ++ [p.request] } := by
        simp [System.step?, System.answer?, hs, hr]
      rw [System.run_cons, System.run_nil, System.step_of_step? hstep, he, withExtraIds_serve hr]
      exact hrec
  · have hrec := ((h.endCall_ne (h.depot_ne ht hj) p).erasePending id).record ht hnone
      (task.answered (t.vault j) id (t.endCall (t.seat j).depot p).2)
    rw [if_neg hj] at hrec
    exact hrec.follows

/-- A task that makes a request has not gone on yet. -/
theorem call (h : t.Plays i depot s) {id : TaskId} {j : VaultId} {task : Task} {r : Request}
    (ht : t.tasks[id]? = some (j, task)) (hr : task.request? = some r) (limit : Duration) :
    Plays { (t.call (t.seat j).depot limit r).1 with
      pending := t.pending.insert id (t.call (t.seat j).depot limit r).2 } i depot s := by
  have hcall : (t.call (t.seat j).depot limit r).1.Plays i depot s := by
    by_cases hj : j = i
    · subst j
      obtain ⟨d, hd, hb⟩ := h.backing
      have hdepot : t.depot depot = d := by
        rw [Timeline.depot, List.getD_eq_getElem?_getD, hd]
        rfl
      rw [h.seat_eq, Timeline.call, hdepot]
      exact h.setDepot (d := { d with log := d.log ++ [r] }) hb s.served
    · exact h.setDepot_ne (h.depot_ne ht hj) _
  refine ⟨hcall.seat, hcall.backing, hcall.alone, hcall.tasks, hcall.seated, fun other q hq => ?_,
    hcall.cancelled⟩
  change (t.pending.insert id _)[other]? = some q at hq
  rw [Std.ExtTreeMap.getElem?_insert] at hq
  split at hq
  · rename_i ho
    obtain rfl := Std.LawfulEqCmp.compare_eq_iff_eq.1 ho
    cases hq
    exact ⟨j, task, ht, hr⟩
  · exact h.pending other q hq

end Plays

variable {t t' : Timeline} {i : VaultId} {depot : DepotId} {s : System}

theorem Follows.bind (h : t.Follows i depot s)
    (hf : ∀ s', t.Plays i depot s' → t'.Follows i depot s') : t'.Follows i depot s := by
  obtain ⟨as, h⟩ := h
  obtain ⟨bs, h'⟩ := hf _ h
  refine ⟨as ++ bs, ?_⟩
  rw [System.run_append]
  exact h'

/-- What every possible step of a system keeps holds wherever a timeline gets. -/
theorem Follows.exists_plays {P : System → Prop}
    (hstep : ∀ s s' a, P s → s.step? a = some s' → P s') (h : t.Follows i depot s) (hs : P s) :
    ∃ s', t.Plays i depot s' ∧ P s' := by
  obtain ⟨as, h⟩ := h
  exact ⟨_, h, System.run_induction hstep hs as⟩

namespace Plays

/-- A task of a timeline runs as tasks of a system do. -/
theorem runTask (h : t.Plays i depot s) (id : TaskId) (fuel : Nat) :
    (t.runTask id fuel).Follows i depot s := by
  induction fuel generalizing t s with
  | zero => exact h.follows
  | succ fuel ih =>
    rw [Timeline.runTask]
    split
    · exact h.follows
    · rename_i j task ht
      split
      · rename_i p hp
        split
        · exact (h.answer ht hp).bind fun s' h' => ih h'
        · exact h.follows
      · rename_i hp
        split
        · rename_i q hq
          exact (h.step ht hp hq).bind fun s' h' => ih h'
        · split
          · exact h.follows
          · rename_i r hr
            exact ih (h.call ht hr _)

/-- Handing out everything is handing out the notices one by one. -/
theorem drain (h : t.Plays i depot s) :
    (t.setVault i { s.vault with board := s.vault.board.drain.1 }).Follows i depot s := by
  have hrun : ∃ as, (s.run as).vault = { s.vault with board := s.vault.board.drain.1 } ∧
      (s.run as).contents = s.contents ∧ (s.run as).tasks = s.tasks ∧
      (s.run as).cancelled = s.cancelled := by
    clear h
    generalize hn : s.vault.board.queue.length = n
    induction n generalizing s with
    | zero =>
      have hq := List.length_eq_zero_iff.1 hn
      refine ⟨[], ?_, rfl, rfl, rfl⟩
      show s.vault = { s.vault with board := { s.vault.board with queue := [] } }
      rw [← hq]
    | succ n ih =>
      have hlen : (s.step .dispatch).vault.board.queue.length = n := by
        show s.vault.board.dispatch.1.queue.length = n
        rw [Board.dispatch]
        split
        · rename_i hq
          rw [hq] at hn
          exact absurd hn (by simp)
        · rename_i hq
          rw [hq] at hn
          exact Nat.succ.inj hn
      obtain ⟨as, hv, hc, ht, hcan⟩ := ih hlen
      refine ⟨.dispatch :: as, ?_, hc, ht, hcan⟩
      rw [System.run_cons, hv, s.vault.board.drain_eq_dispatch.2]
      rfl
  obtain ⟨as, hv, hc, ht, hcan⟩ := hrun
  have hset := h.setVault i { s.vault with board := s.vault.board.drain.1 }
  rw [if_pos rfl] at hset
  refine ⟨as, ⟨?_, ?_, hset.alone, ?_, hset.seated, hset.pending, ?_⟩⟩
  · rw [hv]
    exact hset.seat
  · rw [hc]
    exact hset.backing
  · rw [ht]
    exact hset.tasks
  · rw [hcan]
    exact hset.cancelled

theorem runDispatch (h : t.Plays i depot s) (j : VaultId) :
    (t.runDispatch j).Follows i depot s := by
  have hset : (t.setVault j { t.vault j with board := (t.vault j).board.drain.1 }).Follows i depot
      s := by
    by_cases hj : j = i
    · subst j
      rw [h.vault_eq]
      exact h.drain
    · have hset := h.setVault j { t.vault j with board := (t.vault j).board.drain.1 }
      rw [if_neg hj] at hset
      exact hset.follows
  refine hset.bind fun s' h' => follows (of_alike h' ?_)
  exact alike_runDispatch t j

theorem runJob (h : t.Plays i depot s) (job : Job) : (t.runJob job).Follows i depot s := by
  cases job with
  | task id => exact h.runTask id _
  | dispatch j => exact h.runDispatch j

theorem runJobs (h : t.Plays i depot s) (fuel : Nat) : (t.runJobs fuel).Follows i depot s := by
  induction fuel generalizing t s with
  | zero => exact h.follows
  | succ fuel ih =>
    rw [Timeline.runJobs]
    split
    · rename_i job rest _
      have h' : Plays { t with ready := rest } i depot s := of_alike h ⟨rfl, rfl, rfl, rfl, rfl⟩
      exact (h'.runJob job).bind fun s' h'' => ih h''
    · split
      · rename_i id _ _
        have h' : Plays { t with frontReady := false } i depot s :=
          of_alike h ⟨rfl, rfl, rfl, rfl, rfl⟩
        exact (h'.runJob (.task id)).bind fun s' h'' => ih h''
      · exact h.follows

/-- Running everything, without time passing. -/
theorem run (h : t.Plays i depot s) : t.run.Follows i depot s := h.runJobs _

theorem wakeAt (h : t.Plays i depot s) (moment : Nat) (id : TaskId) :
    (Timeline.wake { t with now := moment } id).Plays i depot s := by
  have h' : Plays { t with now := moment } i depot s := of_alike h ⟨rfl, rfl, rfl, rfl, rfl⟩
  exact of_alike h' (alike_wake _ id)

theorem passSteps (h : t.Plays i depot s) (moment fuel : Nat) :
    (Timeline.passSteps moment fuel t).Follows i depot s := by
  induction fuel generalizing t s with
  | zero => exact h.follows
  | succ fuel ih =>
    rw [Timeline.passSteps]
    refine h.run.bind fun s' h' => ?_
    split
    · split
      · exact ih (h'.wakeAt _ _)
      · exact follows (of_alike h' ⟨rfl, rfl, rfl, rfl, rfl⟩)
    · exact follows (of_alike h' ⟨rfl, rfl, rfl, rfl, rfl⟩)

/-- Letting time pass. -/
theorem passTo (h : t.Plays i depot s) (moment : Nat) : (t.passTo moment).Follows i depot s :=
  h.passSteps moment _

theorem awaitSteps (h : t.Plays i depot s) (id : TaskId) (fuel : Nat) :
    (Timeline.awaitSteps id fuel t).Follows i depot s := by
  induction fuel generalizing t s with
  | zero => exact h.follows
  | succ fuel ih =>
    rw [Timeline.awaitSteps]
    refine h.run.bind fun s' h' => ?_
    split
    · exact h'.follows
    · split
      · exact ih (h'.wakeAt _ _)
      · exact h'.follows

/-- A new task of the vault. -/
theorem addTask (h : t.Plays i depot s) (op : Operation) :
    (t.addTask i (.starting op)).1.Follows i depot s := by
  have hi := (List.getElem?_eq_some_iff.1 h.seat).1
  have hnone : s.tasks[t.tasks.length]? = none := by
    rw [h.tasks, List.getElem?_eq_none (Nat.le_refl _)]
    rfl
  refine ⟨[.spawn t.tasks.length op], ?_⟩
  have hstep : s.step? (.spawn t.tasks.length op) =
      some { s with tasks := s.tasks.insert t.tasks.length (.starting op) } := by
    simp [System.step?, hnone]
  rw [System.run_cons, System.run_nil, System.step_of_step? hstep]
  have hget : ∀ id : TaskId, (t.tasks ++ [(i, Task.starting op)])[id]? =
      if t.tasks.length = id then some (i, .starting op) else t.tasks[id]? := by
    intro id
    rw [List.getElem?_append]
    split
    · rw [if_neg (by omega)]
    · rw [List.getElem?_singleton]
      by_cases hid : t.tasks.length = id
      · rw [if_pos (by omega), if_pos hid]
      · rw [if_neg (by omega), if_neg hid, List.getElem?_eq_none (by omega)]
  refine ⟨h.seat, h.backing, h.alone, fun id => ?_, fun id j task ht => ?_, fun id p hp => ?_,
    h.cancelled⟩
  · show (s.tasks.insert _ _)[id]? = ((t.tasks ++ [(i, Task.starting op)])[id]?).bind _
    rw [hget, Std.ExtTreeMap.getElem?_insert, h.tasks id]
    by_cases hid : t.tasks.length = id <;> simp [hid]
  · change (t.tasks ++ [(i, Task.starting op)])[id]? = some (j, task) at ht
    rw [hget] at ht
    split at ht
    · cases ht
      exact hi
    · exact h.seated id j task ht
  · obtain ⟨j, task, ht, hr⟩ := h.pending id p hp
    refine ⟨j, task, ?_, hr⟩
    show (t.tasks ++ [(i, Task.starting op)])[id]? = _
    rw [List.getElem?_append_left (List.getElem?_eq_some_iff.1 ht).1]
    exact ht

/-- Setting an operation going, and letting it run as far as it can. -/
theorem spawn (h : t.Plays i depot s) (op : Operation) :
    (t.spawn i (.starting op)).1.Follows i depot s :=
  (h.addTask op).bind fun _ h' => run (of_alike h' (alike_queue _ _))

/-- Carrying out an operation to its end. -/
theorem perform (h : t.Plays i depot s) (op : Operation) :
    (t.perform i (.starting op)).1.Follows i depot s := by
  refine (h.addTask op).bind fun s' h' => ?_
  have hfront : Plays { (t.addTask i (.starting op)).1 with front := some t.tasks.length } i depot
      s' := of_alike h' ⟨rfl, rfl, rfl, rfl, rfl⟩
  refine (hfront.runTask t.tasks.length (t.addTask i (.starting op)).1.budget).bind fun _ h'' => ?_
  exact (h''.awaitSteps t.tasks.length _).bind fun _ h₃ =>
    follows (of_alike h₃ ⟨rfl, rfl, rfl, rfl, rfl⟩)

/-- What a caller does to the vault without waiting, if it goes well. -/
theorem follows_of_accepted (h : t.Plays i depot s) {r : Except Problem (Vault × Bool)} {found : Bool}
    {as : List Action} (has : ∀ v b, r = .ok (v, b) → s.run as = { s with vault := v })
    (ht : (do let (v, b) ← r; return (t.setVault i v, b)) = .ok (t', found)) : t'.Follows i depot s := by
  cases r with
  | error e => cases ht
  | ok r =>
    cases ht
    have hset := h.setVault i r.1
    rw [if_pos rfl] at hset
    exact ⟨as, has r.1 r.2 rfl ▸ hset⟩

/-- Changing an account. -/
theorem edit (h : t.Plays i depot s) {handle : Handle} (hi : handle.vault = i) {e : Edit}
    {found : Bool} (he : t.edit handle e = .ok (t', found)) : t'.Follows i depot s := by
  subst hi
  rw [Timeline.edit, h.vault_eq] at he
  have has : ∀ v b, s.vault.edit handle.account e = .ok (v, b) →
      s.run [.edit handle.account e] = { s with vault := v } := fun _ _ => System.step_edit
  exact h.follows_of_accepted has he

/-- Binding a service of an account and switching it. -/
theorem switchService (h : t.Plays i depot s) {handle : Handle} (hi : handle.vault = i) {service : String}
    {on found : Bool} (hs : t.switchService handle service on = .ok (t', found)) :
    t'.Follows i depot s := by
  subst hi
  rw [Timeline.switchService, h.vault_eq] at hs
  exact h.follows_of_accepted (fun _ _ => System.run_switchService) hs

end Plays

/-- A vault that was opened on a depot in memory, which nobody else uses, starts as a system does. -/
theorem plays_addVault {v : Vault} {c : Contents} {d : Depot} (hd : t.depots[depot]? = some d)
    (hb : d.backing = .memory c) (hseats : ∀ seat ∈ t.vaults, seat.depot ≠ depot)
    (hseated : ∀ q ∈ t.tasks, q.1 < t.vaults.length)
    (hpending : ∀ (id : TaskId) (p : Pending), t.pending[id]? = some p →
      ∃ j task, t.tasks[id]? = some (j, task) ∧ task.request? = some p.request)
    (hcancelled : t.cancelled = []) :
    (t.addVault ⟨v, depot⟩).1.Plays t.vaults.length depot (System.start v c) := by
  refine ⟨?_, ⟨d, hd, hb⟩, fun j seat hj hs => ?_, fun id => ?_, fun id j task ht => ?_, hpending,
    hcancelled.symm⟩
  · show (t.vaults ++ [_])[t.vaults.length]? = _
    rw [List.getElem?_concat_length]
    rfl
  · change (t.vaults ++ [_])[j]? = some seat at hj
    rw [List.getElem?_append] at hj
    split at hj
    · exact absurd hs (hseats seat (List.mem_of_getElem? hj))
    · rename_i hlt
      rw [List.getElem?_singleton] at hj
      split at hj
      · rename_i h0
        exact Nat.le_antisymm (Nat.sub_eq_zero_iff_le.1 h0) (Nat.le_of_not_lt hlt)
      · exact absurd hj (by simp)
  · show (∅ : Std.ExtTreeMap TaskId Task)[id]? = t.tasks[id]?.bind _
    rw [Std.ExtTreeMap.getElem?_empty]
    cases ht : t.tasks[id]? with
    | none => rfl
    | some q =>
      have hlt := hseated q (List.mem_of_getElem? ht)
      simp [Nat.ne_of_lt hlt]
  · show j < (t.vaults ++ [_]).length
    rw [List.length_append]
    exact Nat.lt_add_right _ (hseated (j, task) (List.mem_of_getElem? ht))

end Timeline

end AccountVault
