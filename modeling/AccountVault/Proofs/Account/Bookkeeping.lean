import AccountVault.Proofs.Desk.Sound
import AccountVault.Proofs.System.Basic

/-!
# The order of revisions

A docket is an account together with the drafts that were made of it since it was last saved
(`Docket`).  Whatever is edited, drafted and saved, the log of the account stays in order: what is pending
comes after the last save and not after the last change, and every service with a change is bound.  So an
account with pending changes is dirty, and a flush takes it up if it is found at all.  Main statement:
`revisions_stay_in_order`.
-/

namespace AccountVault

namespace ChangeLog

/-- What is pending was changed after the last save, and no later than now. -/
structure InOrder (l : ChangeLog) : Prop where
  saved_le : l.saved ≤ l.revision
  pending : ∀ (subject : Subject) (name : String) (r : Nat), (l.pending subject)[name]? = some r →
    l.saved < r ∧ r ≤ l.revision

variable {l : ChangeLog} {subject : Subject} {name : String} {r : Nat}

theorem inOrder_new : InOrder {} :=
  ⟨Nat.le_refl _, fun subject name r h => by cases subject <;> simp [ChangeLog.pending] at h⟩

theorem saved_note (l : ChangeLog) (t : Option Touch) : (l.note t).saved = l.saved := by
  cases t <;> rfl

theorem InOrder.note (h : l.InOrder) (t : Option Touch) : (l.note t).InOrder := by
  cases t with
  | none => exact h
  | some t =>
    have hrev : (l.note (some t)).revision = l.revision + 1 := rfl
    refine ⟨Nat.le_trans h.saved_le (revision_le_note l _), fun subject name r hr => ?_⟩
    rw [pending_note_some, getElem?_enter] at hr
    rw [saved_note, hrev]
    have hle := h.saved_le
    split at hr
    · cases hr
      omega
    · have hold := h.pending subject name r hr
      omega

theorem InOrder.settle (h : l.InOrder) (hr : r ≤ l.revision) : (l.settle r).InOrder := by
  refine ⟨hr, fun subject name n hn => ?_⟩
  rw [getElem?_pending_settle, Option.filter_eq_some_iff, decide_eq_true_eq] at hn
  exact ⟨hn.2, (h.pending subject name n hn.1).2⟩

theorem InOrder.isDirty_of_mem (h : l.InOrder) (subject : Subject) (hname : name ∈ l.pending subject) :
    l.isDirty = true := by
  obtain ⟨r, hr⟩ := Std.ExtTreeMap.mem_iff_isSome_getElem?.1 hname |> Option.isSome_iff_exists.1
  have hlt := h.pending subject name r hr
  rw [isDirty, decide_eq_true_eq]
  omega

theorem InOrder.isDirty_of_pending (h : l.InOrder)
    (hpending : l.pendingKeys ≠ [] ∨ l.pendingServices ≠ []) : l.isDirty = true := by
  rcases hpending with hkeys | hservices
  · obtain ⟨key, hkey⟩ := List.exists_mem_of_ne_nil _ hkeys
    exact h.isDirty_of_mem .key (Std.ExtTreeMap.mem_keys.1 hkey)
  · obtain ⟨name, hname⟩ := List.exists_mem_of_ne_nil _ hservices
    exact h.isDirty_of_mem .service (Std.ExtTreeMap.mem_keys.1 hname)

theorem isDirty_settle_revision (l : ChangeLog) : (l.settle l.revision).isDirty = false := by
  simp [isDirty]

/-- Saving the present state leaves nothing pending. -/
theorem InOrder.pending_settle_revision (h : l.InOrder) :
    (l.settle l.revision).pendingKeys = [] ∧ (l.settle l.revision).pendingServices = [] := by
  have hclean := mt (h.settle (Nat.le_refl _)).isDirty_of_pending
    (Bool.eq_false_iff.1 l.isDirty_settle_revision)
  rw [not_or, not_not, not_not] at hclean
  exact hclean

end ChangeLog

namespace Account

variable {a a' : Account} {e : Edit} {t : Touch} {name : String}

/-- A service whose change an edit logs is bound afterwards. -/
theorem Edited.isSome_of_touch? (h : a.Edited e a') (ht : e.touch? a = some t)
    (hname : t.service = some name) : a'.bindings[name]?.isSome := by
  have hput : ∀ (b : Binding) (changes : ChangeLog), (({ a.putBinding name b with changes } :
      Account).bindings[name]?).isSome := by
    intro b changes
    show ((a.putBinding name b).bindings[name]?).isSome
    rw [getElem?_putBinding, if_pos rfl]
    rfl
  cases h with
  | rename n =>
    rw [Edit.touch?] at ht
    split at ht <;> cases ht
    exact absurd hname (by simp)
  | setEnabled on =>
    rw [Edit.touch?] at ht
    split at ht <;> cases ht
    exact absurd hname (by simp)
  | write scope key value layer =>
    cases ht
    cases scope with
    | account => exact absurd hname (by simp [Scope.service?])
    | service service =>
      cases hname
      exact hput _ _
  | remove scope key =>
    rw [Edit.touch?] at ht
    split at ht
    · next hkey =>
      cases ht
      cases scope with
      | account => exact absurd hname (by simp [Scope.service?])
      | service service =>
        cases hname
        rw [remove_service_eq, if_pos hkey]
        exact hput _ _
    · exact absurd ht (by simp)
  | bind service => exact absurd ht (by simp [Edit.touch?])
  | setServiceEnabled service on =>
    rw [Edit.touch?] at ht
    split at ht
    · exact absurd ht (by simp)
    · next hon =>
      cases ht
      cases hname
      rw [setServiceEnabled_eq, if_neg hon]
      exact hput _ _

end Account

/-- An account and the drafts that were made of it since it was last saved. -/
structure Docket where
  account : Account
  drafts : List Draft := []

namespace Docket

/-- What can happen to the account of a docket. -/
inductive Entry
  | edit (limit : Nat) (id : AccountId) (e : Edit)
  | draft (id : AccountId)
  /-- A draft has been written. -/
  | save (d : Draft)

/-- The docket after an entry.  An edit that is refused changes nothing, and only a draft that was made
since the last save can be saved. -/
def step (k : Docket) : Entry → Docket
  | .edit limit id e =>
    match k.account.edit limit id e with
    | .ok (a, _) => { k with account := a }
    | .error _ => k
  | .draft id => { k with drafts := .ofAccount id k.account :: k.drafts }
  | .save d => if d ∈ k.drafts then { account := k.account.markSaved d.revision } else k

def run (k : Docket) (es : List Entry) : Docket := es.foldl step k

/-- The log is in order, the drafts are of states since the last save, and changed services are bound. -/
structure Sound (k : Docket) : Prop where
  log : k.account.changes.InOrder
  tidy : k.account.Tidy
  bound : ∀ (name : String), name ∈ k.account.changes.services → k.account.bindings[name]?.isSome
  drafts : ∀ d ∈ k.drafts, k.account.changes.saved ≤ d.revision ∧
    d.revision ≤ k.account.changes.revision

variable {k : Docket}

theorem sound_new (provider : String) : Sound { account := { provider } } :=
  ⟨ChangeLog.inOrder_new, Account.tidy_new provider, fun _ h => absurd h (by simp),
    fun _ h => absurd h List.not_mem_nil⟩

theorem sound_loaded {r : Record} {a : Account} (h : r.toAccount = .ok a) :
    Sound { account := a } := by
  obtain ⟨hr, rfl⟩ := Record.toAccount_eq_ok_iff.1 h
  exact ⟨ChangeLog.inOrder_new, Record.tidy_account hr, fun _ h => absurd h (by simp [Record.account]),
    fun _ h => absurd h List.not_mem_nil⟩

theorem Sound.edited (h : k.Sound) {e : Edit} {a : Account} (he : k.account.Edited e a) :
    Sound { k with account := a } := by
  have hchanges := he.changes_eq
  refine ⟨?_, he.tidy h.tidy, fun name hname => ?_, fun d hd => ?_⟩
  · show a.changes.InOrder
    rw [hchanges]
    exact h.log.note _
  · -- a changed service was changed by this edit, or before it
    replace hname : name ∈ a.changes.services := hname
    rw [hchanges] at hname
    cases ht : e.touch? k.account with
    | none =>
      rw [ht] at hname
      exact he.isSome_binding (h.bound name hname)
    | some t =>
      rw [ht, ← Std.ExtTreeMap.isSome_getElem?_iff_mem] at hname
      replace hname : (ChangeLog.enter k.account.changes.services t.service
        (k.account.changes.revision + 1))[name]?.isSome := hname
      rw [ChangeLog.getElem?_enter] at hname
      split at hname
      · exact he.isSome_of_touch? ht ‹_›
      · exact he.isSome_binding (h.bound name (Std.ExtTreeMap.isSome_getElem?_iff_mem.1 hname))
  · show a.changes.saved ≤ d.revision ∧ d.revision ≤ a.changes.revision
    rw [hchanges, ChangeLog.saved_note]
    exact ⟨(h.drafts d hd).1, Nat.le_trans (h.drafts d hd).2 (ChangeLog.revision_le_note ..)⟩

theorem Sound.draft (h : k.Sound) (id : AccountId) : (k.step (.draft id)).Sound := by
  refine ⟨h.log, h.tidy, h.bound, fun d hd => ?_⟩
  rcases List.mem_cons.1 hd with rfl | hd
  · exact ⟨h.log.saved_le, Nat.le_refl _⟩
  · exact h.drafts d hd

theorem Sound.save (h : k.Sound) {d : Draft} (hd : d ∈ k.drafts) :
    Sound { account := k.account.markSaved d.revision } := by
  refine ⟨h.log.settle (h.drafts d hd).2, ⟨h.tidy.settings, h.tidy.bindings⟩, fun name hname => ?_,
    fun _ h => absurd h List.not_mem_nil⟩
  rw [← Std.ExtTreeMap.isSome_getElem?_iff_mem] at hname
  have hsettled := ChangeLog.getElem?_pending_settle k.account.changes d.revision .service name
  replace hname : ((k.account.changes.settle d.revision).pending .service)[name]?.isSome := hname
  rw [hsettled, Option.isSome_filter, Option.any_eq_true] at hname
  obtain ⟨r, hr, -⟩ := hname
  exact h.bound name (Std.ExtTreeMap.isSome_getElem?_iff_mem.1 (Option.isSome_of_eq_some hr))

/-- Every entry leaves the docket sound, and the saved revision does not go back. -/
theorem Sound.step (h : k.Sound) (e : Entry) :
    (k.step e).Sound ∧ k.account.changes.saved ≤ (k.step e).account.changes.saved := by
  cases e with
  | edit limit id e =>
    cases he : k.account.edit limit id e with
    | error p =>
      have hstep : k.step (.edit limit id e) = k := by simp [Docket.step, he]
      rw [hstep]
      exact ⟨h, Nat.le_refl _⟩
    | ok p =>
      obtain ⟨a, found⟩ := p
      have hedited := (Account.edited_of_edit he).2
      have hstep : k.step (.edit limit id e) = { k with account := a } := by simp [Docket.step, he]
      rw [hstep]
      refine ⟨h.edited hedited, Nat.le_of_eq ?_⟩
      show k.account.changes.saved = a.changes.saved
      rw [hedited.changes_eq, ChangeLog.saved_note]
  | draft id => exact ⟨h.draft id, Nat.le_refl _⟩
  | save d =>
    by_cases hd : d ∈ k.drafts
    · have hstep : k.step (.save d) = { account := k.account.markSaved d.revision } := if_pos hd
      rw [hstep]
      exact ⟨h.save hd, (h.drafts d hd).1⟩
    · have hstep : k.step (.save d) = k := if_neg hd
      rw [hstep]
      exact ⟨h, Nat.le_refl _⟩

theorem Sound.run (h : k.Sound) (es : List Entry) :
    (k.run es).Sound ∧ k.account.changes.saved ≤ (k.run es).account.changes.saved := by
  induction es generalizing k with
  | nil => exact ⟨h, Nat.le_refl _⟩
  | cons e es ih =>
    obtain ⟨hstep, hle⟩ := h.step e
    obtain ⟨hrun, hle'⟩ := ih hstep
    exact ⟨hrun, Nat.le_trans hle hle'⟩

end Docket

/-- Of the dirty accounts a flush takes up those that are found. -/
theorem Vault.mem_dirtyIds_iff_finds {v : Vault} {id : AccountId} {a : Account}
    (ha : v.account? id = some a) (hdirty : a.isDirty = true) : id ∈ v.dirtyIds ↔ v.finds id = true := by
  rw [dirtyIds, mem_rosterWhere_iff]
  exact ⟨fun h => h.1, fun h => ⟨h, a, ha, hdirty⟩⟩

/-- An account starts new or loaded; it is edited, drafts are made of it, and some of them are saved.  The
saved revision does not go back and is not after the current one; what is pending comes after it and not
after the current one; services are bound under their own names, changed services among them.  If anything
is pending then the account is dirty, and a flush takes up a dirty account exactly if it is found.  Saving
the current state leaves nothing pending. -/
theorem revisions_stay_in_order {a : Account}
    (ha : (∃ provider : String, a = { provider }) ∨ ∃ r : Record, r.toAccount = .ok a)
    (es : List Docket.Entry) :
    let k := Docket.run { account := a } es
    let l := k.account.changes
    let clean := (k.account.markSaved l.revision).changes
    (∀ more : List Docket.Entry, l.saved ≤ (k.run more).account.changes.saved) ∧
      l.saved ≤ l.revision ∧
      (∀ (key : String) (r : Nat), l.keys[key]? = some r → l.saved < r ∧ r ≤ l.revision) ∧
      (∀ (name : String) (r : Nat), l.services[name]? = some r → l.saved < r ∧ r ≤ l.revision) ∧
      (∀ (name : String) (b : Binding), k.account.bindings[name]? = some b → b.name = name) ∧
      (∀ name ∈ l.pendingServices, k.account.bindings[name]?.isSome) ∧
      (l.pendingKeys ≠ [] ∨ l.pendingServices ≠ [] → k.account.isDirty = true) ∧
      (k.account.isDirty = true → ∀ (v : Vault) (id : AccountId) (t : TaskId) (token : Option TokenId),
        v.account? id = some k.account →
          ∃ sweep : Sweep, (Task.start v t (.flush token)).task = .sweeping sweep ∧
            (id ∈ sweep.rest ↔ v.finds id = true)) ∧
      clean.isDirty = false ∧ clean.pendingKeys = [] ∧ clean.pendingServices = [] := by
  intro k l clean
  have hstart : Docket.Sound { account := a } := by
    rcases ha with ⟨provider, rfl⟩ | ⟨r, hr⟩
    · exact Docket.sound_new provider
    · exact Docket.sound_loaded hr
  obtain ⟨h, -⟩ := hstart.run es
  refine ⟨fun more => (h.run more).2, h.log.saved_le, h.log.pending .key, h.log.pending .service,
    fun name b hb => (h.tidy.bindings name b hb).1, fun name hname => ?_, h.log.isDirty_of_pending,
    fun hdirty v id t token hv => ⟨_, rfl, Vault.mem_dirtyIds_iff_finds hv hdirty⟩,
    l.isDirty_settle_revision, h.log.pending_settle_revision⟩
  exact h.bound name (Std.ExtTreeMap.mem_keys.1 hname)

/-- A key is set while a draft of the account is being saved, and remains pending. -/
theorem revisions_stay_in_order_of_late_change :
    let write (key text : String) : Docket.Entry :=
      .edit 256 1 (.write (.service "mail") key (.text text) (some .service))
    let early : Draft := .ofAccount 1 ((Docket.run { account := { provider := "acme" } }
      [write "host" "h"]).account)
    let k := Docket.run { account := { provider := "acme" } }
      [write "host" "h", .draft 1, write "port" "p", .save early]
    early.revision = 1 ∧ k.account.changes.saved = 1 ∧ k.account.changes.revision = 2 ∧
      k.account.changes.pendingKeys = ["port"] ∧ k.account.isDirty = true ∧
      (k.account.markSaved 2).changes.pendingKeys = [] := by
  intro write early k
  have h := revisions_stay_in_order (.inl ⟨"acme", rfl⟩)
    [write "host" "h", .draft 1, write "port" "p", .save early]
  have hrevision : k.account.changes.revision = 2 := by decide +kernel
  have hkeys : k.account.changes.pendingKeys = ["port"] := by decide +kernel
  obtain ⟨-, -, -, -, -, -, hdirty, -, -, hclean, -⟩ := h
  refine ⟨by decide +kernel, by decide +kernel, hrevision, hkeys, hdirty (.inl ?_), ?_⟩
  · show k.account.changes.pendingKeys ≠ []
    rw [hkeys]
    exact List.cons_ne_nil _ _
  · rw [← hrevision]
    exact hclean

/-- A flush passes over an account that has pending changes and was never saved. -/
theorem new_account_is_passed_over :
    let e : Edit := .write .account "color" (.text "red") (some .account)
    let k := Docket.run { account := { provider := "acme" } } [.edit 256 1 e]
    let s := (System.start {} ∅).run [.create "acme", .edit 1 e, .spawn 0 (.flush none), .run 0, .run 0]
    k.account.changes.pendingKeys = ["color"] ∧ k.account.isDirty = true ∧
      s.vault.account? 1 = some k.account ∧ s.outcome? 0 = some (.ok 0) ∧ s.served = [] := by
  intro e k s
  exact ⟨by decide +kernel, by decide +kernel, by decide +kernel, by decide +kernel⟩

end AccountVault
