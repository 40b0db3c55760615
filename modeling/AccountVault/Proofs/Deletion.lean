import AccountVault.Proofs.Stale

/-!
# Deletion is final

An account whose deletion has gone well is gone for good, and however many deletions race, its record is
removed once and its end is told of once (`deletion_is_final`).  A deletion is followed from the call to
its result by `Task.Deletes`.
-/

namespace AccountVault

/-! ### Deletions that go well -/

/-- Whether there is an account that a deletion for a goal deletes, if it goes well. -/
def Goal.Definite (s : System) (id : AccountId) : Goal → Prop
  | report => True
  | forgive => s.Reached id .saved
  | sweep _ => False

theorem Goal.Definite.step {s s' : System} {a : Action} {id : AccountId} {goal : Goal}
    (h : goal.Definite s id) (hsound : s.Sound) (hs : s.step? a = some s') :
    goal.Definite s' id := by
  cases goal with
  | report => exact trivial
  | forgive => exact System.Reached.step h hsound hs
  | sweep => exact h

namespace Task

/-- How far a task has got that was asked to delete an account, in so many words or, if there is one
that has been written, by its id. -/
inductive Deletes (s : System) (id : AccountId) : Task → Prop
  | asked : Deletes s id (starting (.delete id))
  | found (h : s.Reached id .saved) : Deletes s id (starting (.deleteFound id))
  | working (goal : Goal) (p : Point) (hg : goal.Definite s id)
    (hp : p = .entering ∨ p = .removing) : Deletes s id (working goal id .delete p)
  | finished (o : Outcome) (h : ∀ n, o = .ok n → s.Reached id .deleted) : Deletes s id (finished o)

namespace Deletes

variable {s s' : System} {id : AccountId} {t : TaskId} {task : Task} {a : Action} {p : Progress}

/-- What others do leaves a deletion where it is. -/
theorem step (h : task.Deletes s id) (hsound : s.Sound) (hs : s.step? a = some s') :
    task.Deletes s' id := by
  cases h with
  | asked => exact .asked
  | found hr => exact .found (hr.step hsound hs)
  | working goal p hg hp => exact .working goal p (hg.step hsound hs) hp
  | finished o ho => exact .finished o fun n hn => (ho n hn).step hsound hs

/-- The end of a deletion: it has gone well only if the account is deleted. -/
theorem conclude {goal : Goal} {r : Except Problem Unit} (hg : goal.Definite s id)
    (hok : r = .ok () → s.Reached id .deleted)
    (hstale : ∀ i, r = .error (.stale i) → s.Reached id .saved → s.Reached id .deleted) :
    (Task.conclude goal r).Deletes s id := by
  have herror : ∀ (e : Problem) (n : Nat), (Except.error e : Outcome) = .ok n →
      s.Reached id .deleted := fun _ _ h => absurd h (by simp)
  cases r with
  | ok =>
    cases goal with
    | report | forgive => exact .finished _ fun _ _ => hok rfl
    | sweep => exact hg.elim
  | error e =>
    cases goal with
    | report => exact .finished _ (herror e)
    | forgive =>
      cases e with
      | stale i => exact .finished _ fun _ _ => hstale i rfl hg
      | _ => exact .finished _ (herror _)
    | sweep => exact hg.elim

/-- The first step of a deletion. -/
theorem start {op : Operation} (h : (starting op).Deletes s id) (hsound : s.Sound)
    (hs : s.step? a = some s') : (Task.start s.vault t op).task.Deletes s' id := by
  cases h with
  | asked => exact .working .report .entering trivial (.inl rfl)
  | found hr =>
    by_cases hf : s.vault.finds id = true
    · rw [Task.start, if_pos hf]
      exact .working .forgive .entering (hr.step hsound hs) (.inl rfl)
    · rw [Task.start, if_neg hf]
      have hdel := hsound.reached_deleted hr (by simpa using hf)
      exact .finished _ fun _ _ => hdel.step hsound hs

/-- A deletion comes to its turn. -/
theorem enter {goal : Goal} (hg : goal.Definite s' id)
    (hv : s'.vault = (proceed (s.vault.enter id .delete).1 t goal id .delete
      (s.vault.enter id .delete).2).vault) :
    (proceed (s.vault.enter id .delete).1 t goal id .delete
      (s.vault.enter id .delete).2).task.Deletes s' id := by
  by_cases hdead : ∀ b, s.vault.account? id = some b → b.state = .deleted
  · rw [Vault.enter_of_dead hdead] at hv ⊢
    refine conclude hg (fun hok => absurd hok (by simp)) fun _ _ hr => ?_
    obtain ⟨b, hb, -⟩ := hr
    have hb' : s.vault.account? id = some b := by
      rw [hv] at hb
      exact hb
    exact System.reached_deleted_iff.2 ⟨b, hb, hdead b hb'⟩
  · obtain ⟨b, hb, hlive⟩ : ∃ b, s.vault.account? id = some b ∧ b.state ≠ .deleted := by
      simpa using hdead
    have hent := s.vault.entered id .delete
    have hne := Vault.enter_snd_ne hb hlive .delete
    generalize (s.vault.enter id .delete).2 = stage at hent hne hv ⊢
    generalize (s.vault.enter id .delete).1 = v' at hent hv ⊢
    cases hent with
    | refused _ e => exact absurd rfl (hne e)
    | removal => exact .working goal .removing hg (.inr rfl)
    | @discard b' hb' =>
      refine conclude hg (fun _ => ?_) fun _ hok => absurd hok (by simp)
      refine System.reached_deleted_iff.2 ⟨{ b' with state := .deleted }, ?_, rfl⟩
      rw [hv]
      exact (Vault.account?_putAccount ..).trans (if_pos rfl)

/-- The removal of a record ends. -/
theorem reply {goal : Goal} {r : Except Fault Reply} (hsound : s.Sound)
    (hg : goal.Definite s' id)
    (ht : s.tasks[t]? = some (.working goal id .delete .removing))
    (hm : Replied s.vault t (.working goal id .delete .removing) r p) (hv : s'.vault = p.vault) :
    p.task.Deletes s' id := by
  cases hm with
  | failed => exact conclude hg (fun hok => absurd hok (by simp)) fun i hi => absurd hi (by simp)
  | removed =>
    refine conclude hg (fun _ => ?_) fun _ hok => absurd hok (by simp)
    obtain ⟨c, hc⟩ := hsound.desks id
    obtain ⟨b, hb, -⟩ := hc.removing t (hsound.active_eq_some ht (by simp))
    have hb' : s.vault.account? id = some b := hb
    refine System.reached_deleted_iff.2 ⟨{ b with state := .deleted }, ?_, rfl⟩
    rw [hv]
    refine (Vault.account?_recordRemoved ..).trans ?_
    rw [if_pos rfl, hb']
    rfl

theorem moved (h : task.Deletes s id) (hsound : s.Sound) (hs : s.step? a = some s')
    (ht : s.tasks[t]? = some task) (hm : task.Moved s t p) (hv : s'.vault = p.vault) :
    p.task.Deletes s' id := by
  cases hm with
  | step hp =>
    cases h with
    | asked =>
      cases hp
      exact start .asked hsound hs
    | found hr =>
      cases hp
      exact start (.found hr) hsound hs
    | working goal q hg hq =>
      rcases hq with rfl | rfl
      · obtain ⟨-, rfl⟩ := step_entering hp
        exact enter (hg.step hsound hs) hv
      · exact absurd hp (by simp [Task.step])
    | finished => exact absurd hp (by simp [Task.step])
  | reply hr hrep =>
    cases h with
    | asked | found | finished => exact absurd hr (by simp [Task.request?])
    | working goal q hg hq =>
      rcases hq with rfl | rfl
      · exact absurd hr (by simp [Task.request?, Point.request?])
      · exact reply hsound (hg.step hsound hs) ht hrep hv

end Deletes

/-! ### Deletions that forgive -/

/-- A task that was asked to delete whatever is found under an id, and does not end by complaining that
this has been deleted. -/
def Forgives (id : AccountId) (task : Task) : Prop :=
  task = starting (.deleteFound id) ∨ (∃ p, task = working .forgive id .delete p) ∨
    ∃ o, task = finished o ∧ ∀ i, o ≠ .error (.stale i)

theorem forgives_conclude (id : AccountId) (r : Except Problem Unit) :
    (conclude .forgive r).Forgives id := by
  cases r with
  | ok => exact .inr (.inr ⟨_, rfl, by simp [Except.map]⟩)
  | error e => cases e <;> exact .inr (.inr ⟨_, rfl, by simp [Except.map]⟩)

theorem Forgives.moved {s : System} {t : TaskId} {id : AccountId} {task : Task} {p : Progress}
    (h : task.Forgives id) (hm : task.Moved s t p) : p.task.Forgives id := by
  rcases h with rfl | ⟨q, rfl⟩ | ⟨o, rfl, -⟩
  · cases hm with
    | step hp =>
      cases hp
      rw [start]
      split
      · exact .inr (.inl ⟨.entering, rfl⟩)
      · exact .inr (.inr ⟨_, rfl, by simp⟩)
    | reply hr => exact absurd hr (by simp [request?])
  · cases hm with
    | step hp =>
      cases stepped hp with
      | pass h' | shut _ h' | enqueue _ _ _ h' => exact absurd h' (by simp [place?])
      | enter _ _ hv =>
        cases hv with
        | refused _ e => exact forgives_conclude id (.error e)
        | discard => exact forgives_conclude id (.ok ())
        | removal => exact .inr (.inl ⟨_, rfl⟩)
      | raise | skip => exact .inr (.inl ⟨_, rfl⟩)
    | reply hr hrep =>
      cases hrep with
      | markFailed _ _ _ _ _ e | failed _ _ _ _ e =>
        exact forgives_conclude id (.error (.persistence (.fault e)))
      | saved | removed => exact forgives_conclude id (.ok ())
      | marked => exact .inr (.inl ⟨_, rfl⟩)
  · cases hm with
    | step hp => exact absurd hp (by simp [step])
    | reply hr => exact absurd hr (by simp [request?])

end Task

namespace System

variable {s s' : System} {id : AccountId} {t : TaskId} {task : Task}

/-- A deletion that has gone well has deleted the account. -/
theorem reached_of_deletes (hs : s.Sound) (ht : s.tasks[t]? = some task) (h : task.Deletes s id)
    {as : List Action} {n : Nat} (ho : (s.run as).outcome? t = some (.ok n)) :
    (s.run as).Reached id .deleted := by
  obtain ⟨task', ht', h'⟩ := follow (t := t) (P := fun s task => task.Deletes s id)
    (fun _ _ _ _ hs hstep h => h.step hs hstep)
    (fun _ _ _ _ _ hs hstep ht hm hv h => h.moved hs hstep ht hm hv) hs ht h as
  rw [outcome?_of_task ht'] at ho
  cases h' with
  | finished o hok =>
    cases ho
    exact hok n rfl
  | asked | found | working => exact absurd ho (by simp [Task.outcome?])

/-- Deleting what is found under an id never fails because it has been deleted. -/
theorem ne_stale_of_deleteFound (hs : s.Sound)
    (ht : s.tasks[t]? = some (.starting (.deleteFound id))) (as : List Action) (i : AccountId) :
    (s.run as).outcome? t ≠ some (.error (.stale i)) := by
  obtain ⟨task', ht', h'⟩ := follow (t := t) (P := fun _ task => task.Forgives id)
    (fun _ _ _ _ _ _ h => h) (fun _ _ _ _ _ _ _ _ hm _ h => h.moved hm) hs ht (.inl rfl) as
  rw [outcome?_of_task ht']
  rcases h' with rfl | ⟨p, rfl⟩ | ⟨o, rfl, ho⟩
  · simp [Task.outcome?]
  · simp [Task.outcome?]
  · simpa [Task.outcome?] using ho i

end System

/-! ### Once and no more -/

namespace Desk

/-- How often the account can have been removed, and told of as deleted. -/
def partings (d : Desk) : Nat := if d.account.any (·.state = .deleted) then 1 else 0

/-- The account's record has been removed, and its end told of, only if it is deleted, and once. -/
structure Parted (id : AccountId) (d : Desk) : Prop where
  removals : d.writes.count (.remove id) ≤ d.partings
  notices : d.notices.countP (·.kind = .deleted) ≤ d.partings

theorem partings_le_one (d : Desk) : d.partings ≤ 1 := by
  unfold partings
  split <;> omega

theorem partings_of_live {d : Desk} (h : ∀ a, d.account = some a → a.state ≠ .deleted) :
    d.partings = 0 := by
  rw [partings, if_neg]
  cases ha : d.account with
  | none => simp
  | some a => simpa using h a ha

theorem countP_tell (d : Desk) (n : Notice) :
    (d.tell n).countP (·.kind = .deleted) ≤
      d.notices.countP (·.kind = .deleted) + if n.kind = .deleted then 1 else 0 := by
  rw [tell, List.countP_append]
  refine Nat.add_le_add_left ?_ _
  cases d.isOpen with
  | true => simp [List.countP_cons]
  | false => exact Nat.zero_le _

namespace Parted

variable {id : AccountId} {d d' : Desk}

theorem congr (h : d.Parted id) (hw : d'.writes = d.writes) (hn : d'.notices = d.notices)
    (hp : d.partings ≤ d'.partings) : d'.Parted id := by
  refine ⟨?_, ?_⟩
  · rw [hw]
    exact Nat.le_trans h.removals hp
  · rw [hn]
    exact Nat.le_trans h.notices hp

/-- While the account lives there is nothing to count. -/
theorem congr_of_live (h : d.Parted id) (hw : d'.writes = d.writes) (hn : d'.notices = d.notices)
    (hlive : ∀ a, d.account = some a → a.state ≠ .deleted) : d'.Parted id := by
  refine h.congr hw hn ?_
  rw [partings_of_live hlive]
  exact Nat.zero_le _

theorem save {f : Draft} (h : d.Parted id) (hlive : ∀ a, d.account = some a → a.state ≠ .deleted)
    {bytes : Bytes} (hw : d'.writes = d.writes ++ [.save id bytes])
    (hn : d'.notices = d.tell f.notice) : d'.Parted id := by
  have hzero := partings_of_live hlive
  have hremovals := h.removals
  have hnotices := h.notices
  have htell := d.countP_tell f.notice
  rw [if_neg f.kind_notice_ne] at htell
  refine ⟨?_, ?_⟩
  · rw [hw, List.count_append, List.count_singleton, if_neg (by simp)]
    omega
  · rw [hn]
    omega

theorem remove (h : d.Parted id) (hlive : ∀ a, d.account = some a → a.state ≠ .deleted)
    (hw : d'.writes = d.writes ++ [.remove id]) (hn : d'.notices = d.tell (.deleted id))
    (hone : d'.partings = 1) : d'.Parted id := by
  have hzero := partings_of_live hlive
  have hremovals := h.removals
  have hnotices := h.notices
  have htell := d.countP_tell (.deleted id)
  have hkind : (Notice.deleted id).kind = .deleted := rfl
  rw [if_pos hkind] at htell
  refine ⟨?_, ?_⟩
  · rw [hw, List.count_append, List.count_singleton_self]
    omega
  · rw [hn]
    omega

theorem step (h : d.Parted id) (hsound : d.Sound id) (hs : Stepped id d d') : d'.Parted id := by
  -- an account that is known to be there is the one that lives or does not
  have hlive : ∀ {a : Account}, d.account = some a → a.state ≠ .deleted →
      ∀ b, d.account = some b → b.state ≠ .deleted := by
    intro a ha hs b hb
    exact Option.some.inj (ha.symm.trans hb) ▸ hs
  cases hs with
  | idle | look | draft | advance | fail | beginRemoval => exact h.congr rfl rfl (Nat.le_refl _)
  | create provider ha =>
    exact h.congr_of_live rfl rfl fun a ha' => absurd (ha.symm.trans ha') (by simp)
  | edit ha hs _ => exact h.congr_of_live rfl rfl (hlive ha hs)
  | discard _ ha hs => exact h.congr_of_live rfl rfl (hlive ha (by simp [hs]))
  | @save t f hd =>
    obtain ⟨S, -, hdraft⟩ := hsound.drafted t _ f hd rfl
    obtain ⟨a, ha, -, hs, -⟩ := hdraft.account
    exact h.save (hlive ha hs) rfl rfl
  | @remove t hd =>
    obtain ⟨a, ha, hs⟩ := hsound.removing t hd
    refine h.remove (hlive ha (by simp [hs])) rfl rfl ?_
    simp [partings, ha]

end Parted

end Desk

theorem Contents.Opens.parted {c : Contents} {v : Vault} (h : c.Opens v) (id : AccountId)
    (as : List Action) : (v.deskAfter c id as).Parted id := by
  refine h.desk_induction ?_ (fun _ _ hsound hp hs => hp.step hsound hs) as
  rw [h.desk_start]
  exact ⟨Nat.zero_le _, Nat.zero_le _⟩

/-- A record is removed once in a run, and the end of its account is told of once. -/
theorem Contents.Opens.once {c : Contents} {v : Vault} (h : c.Opens v) (id : AccountId)
    (as : List Action) : let s := (System.start v c).run as
    s.served.count (.remove id) ≤ 1 ∧
      s.published.countP (fun n => n.kind = .deleted ∧ n.account = id) ≤ 1 := by
  intro s
  have hp := h.parted id as
  refine ⟨?_, ?_⟩
  · have hcount : (s.served.filter (·.target? = some id)).count (.remove id) =
        s.served.count (.remove id) := List.count_filter (by simp [Request.target?])
    rw [← hcount]
    exact Nat.le_trans hp.removals (Desk.partings_le_one _)
  · have hcount : (s.published.filter (·.account = id)).countP (·.kind = .deleted) =
        s.published.countP (fun n => n.kind = .deleted ∧ n.account = id) := by
      rw [List.countP_filter]
      simp
    rw [← hcount]
    exact Nat.le_trans hp.notices (Desk.partings_le_one _)

/-- Once a deletion has gone well, be it asked for in so many words or of an account that is found, the
account is gone and stays so.  In any run its record is removed once and its end told of once, and
deleting what is found under an id never fails because it has been deleted. -/
theorem deletion_is_final {c : Contents} {options : Options} {catalog : Catalog} {v : Vault}
    (hv : c.opened options catalog = .ok v) (before : List Action) (id : AccountId) :
    let s := (System.start v c).run before
    (∀ t after n later, (s.tasks[t]? = some (.starting (.delete id)) ∨
        s.tasks[t]? = some (.starting (.deleteFound id)) ∧ s.vault.finds id = true) →
      (s.run after).outcome? t = some (.ok n) → ((s.run after).run later).Gone id) ∧
    (s.served.count (.remove id) ≤ 1 ∧
      s.published.countP (fun n => n.kind = .deleted ∧ n.account = id) ≤ 1) ∧
    ∀ t after i, s.tasks[t]? = some (.starting (.deleteFound id)) →
      (s.run after).outcome? t ≠ some (.error (.stale i)) := by
  intro s
  have h := Contents.opens_of_opened hv
  have hs : s.Sound := h.sound_start_run before
  refine ⟨fun t after n later hask ho => ?_, h.once id before, fun t after i ht =>
    System.ne_stale_of_deleteFound hs ht after i⟩
  have hafter : (s.run after).Sound := hs.run after
  have hdel : (s.run after).Reached id .deleted := by
    rcases hask with ht | ⟨ht, hf⟩
    · exact System.reached_of_deletes hs ht .asked ho
    · exact System.reached_of_deletes hs ht (.found (hs.reached_of_finds hf)) ho
  exact (hafter.run later).gone (hdel.run hafter later)

/-- Two deletions race for an account, with a commit behind them.  The first goes well; the commit and
the second deletion, which forgives, come too late, and so does an edit. -/
theorem deletion_is_final_of_race :
    let before : List Action := [.create "acme", .spawn 0 (.commit 1), .run 0, .run 0, .run 0,
      .answer 0 none, .answer 0 none, .spawn 1 (.delete 1), .spawn 2 (.deleteFound 1)]
    let after : List Action := [.run 1, .run 2, .spawn 3 (.commit 1), .run 3, .run 1, .answer 1 none]
    let s := (System.start {} ∅).run before
    (s.tasks[1]? = some (.starting (.delete 1)) ∧ (s.run after).outcome? 1 = some (.ok 0)) ∧
      ((s.run after).run [.run 2, .run 3]).Gone 1 ∧
      (s.run after).vault.edit 1 (.rename "Ada") = .error (.stale 1) ∧
      ((s.run after).run [.run 2, .run 3]).outcome? 2 = some (.ok 0) ∧
      ((s.run after).run [.run 2, .run 3]).outcome? 3 = some (.error (.stale 1)) := by
  intro before after s
  have h := deletion_is_final (Contents.opened_empty {} {} rfl) before 1
  have ht : s.tasks[1]? = some (.starting (.delete 1)) := rfl
  have hok : (s.run after).outcome? 1 = some (.ok 0) := by decide +kernel
  have hgone : ((s.run after).run []).Gone 1 := h.1 1 after 0 [] (.inl ht) hok
  have hlater := h.1 1 after 0 [.run 2, .run 3] (.inl ht) hok
  have hcheck : (Edit.rename "Ada").check (s.run after).vault.options.keyLimit = .ok () := rfl
  rw [System.run_nil] at hgone
  exact ⟨⟨ht, hok⟩, hlater, hgone.edit (.rename "Ada") hcheck, by decide +kernel, by decide +kernel⟩

end AccountVault
