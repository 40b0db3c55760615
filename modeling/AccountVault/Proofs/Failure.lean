import AccountVault.Proofs.Commands
import AccountVault.Proofs.System.Erasure
import AccountVault.Timeline.Handle

/-!
# What fails leaves no trace

An operation that fails has changed nothing (`failures_leave_no_trace`).  For a command this is said of
the vault that it was carried out on in place; for an operation that has to wait, of each of its steps,
while what the others do in between stays, and of the whole run, which comes to the same without it.
-/

namespace AccountVault

namespace System.Erased

variable {gone : TaskId → Bool} {s : System} {as bs : List Action}

/-- Those who are gone take no action any more. -/
theorem gone_eq_false (h : s.Erased gone as bs) : ∀ a ∈ bs, ∀ t, a.actor? = some t → gone t = false := by
  induction h with
  | nil => exact fun a ha => absurd ha (by simp)
  | skip _ _ ih | drop _ _ _ ih => exact ih
  | keep _ _ hself ih =>
    intro a ha
    rcases List.mem_append.1 ha with ha | ha
    · exact ih a ha
    · rw [List.mem_singleton.1 ha]
      exact hself
  | @raise _ _ t _ _ _ hself _ ih =>
    intro a ha u hu
    rcases List.mem_append.1 ha with ha | ha
    · exact ih a ha u hu
    · have hactor : a.actor? = some t := by
        rcases List.mem_pair.1 ha with rfl | rfl <;> rfl
      rw [← Option.some.inj (hactor.symm.trans hu)]
      exact hself

end System.Erased

/-- A command that is refused, of whatever kind and by whichever check, leaves the vault as it was, and
one that goes well does what its actions do.  A commit through another vault than the account's is over
before it can do anything.  An operation on one account that fails takes no step that changes anything but
who waits for whom, and the mark, if it was to write an account for the first time.  All such operations
can be left out of the run: the others do the same, and the accounts, the records and the notices come to
be the same; so a commit that goes well after others have failed writes and tells what it would have if
it had been the only one. -/
theorem failures_leave_no_trace {c : Contents} {options : Options} {catalog : Catalog} {v : Vault}
    (hv : c.opened options catalog = .ok v) (as : List Action) :
    let start := System.start v c
    let s := start.run as
    (∀ cmd v', (∀ e, (Vault.perform cmd).on s.vault = (.error e, v') → v' = s.vault) ∧
      ∀ x, (Vault.perform cmd).on s.vault = (.ok x, v') → s.run cmd.actions = { s with vault := v' }) ∧
    (∀ (h : Handle) vault, h.vault ≠ vault →
      (h.commitThrough vault).outcome? = some (.error (.invalid (.foreignAccount h.account))) ∧
        (h.commitThrough vault).request? = none ∧
        ∀ cancelled v t, (h.commitThrough vault).step cancelled v t = none) ∧
    (∀ t, start.InVain as t → ∀ before a after, as = before ++ a :: after → a.actor? = some t →
      let u := start.run before
      u.Agrees (u.step a) ∧ (u.SameMark (u.step a) ∨
        ∃ id, .spawn t (.commit id) ∈ before ∧ u.Raised (u.step a) id)) ∧
    ∀ gone : TaskId → Bool, (∀ t, gone t = true → start.InVain as t) →
      ∃ bs, start.Erased gone as bs ∧ (∀ a ∈ bs, ∀ t, a.actor? = some t → gone t = false) ∧
        s.Agrees (start.run bs) ∧
        ∀ t, gone t = false → (start.run bs).tasks[t]? = s.tasks[t]? := by
  intro start s
  refine ⟨fun cmd v' => ⟨fun e => Vault.eq_of_refused, fun x => System.run_actions⟩, ?_, ?_, ?_⟩
  · intro h vault hne
    have htask : h.commitThrough vault =
        .finished (.error (.invalid (.foreignAccount h.account))) := if_neg hne
    rw [htask]
    exact ⟨rfl, rfl, fun _ _ _ => rfl⟩
  · intro t hvain before a after has ha
    rw [has, List.append_cons] at hvain
    exact Contents.agrees_of_inVain hv hvain.of_append ha
  · intro gone hgone
    obtain ⟨bs, herased, hwithout⟩ := Contents.exists_erased hv gone as hgone
    exact ⟨bs, herased, herased.gone_eq_false,
      ⟨hwithout.vault.agrees, hwithout.records, hwithout.handed, hwithout.cancelled⟩, hwithout.tasks⟩

/-- Two commits of a new account fail, the first one at the mark, the second one, which had raised it, at
the record; meanwhile the account was edited.  The third one goes well.  A service without a name is not
bound, let alone switched on. -/
theorem failures_leave_no_trace_of_retry :
    let raising : List Action := [.create "acme", .spawn 0 (.commit 1), .run 0, .run 0, .run 0,
      .answer 0 (some (.refused .saveMark)), .spawn 1 (.commit 1), .run 1, .run 1, .run 1]
    let as : List Action := raising ++ .answer 1 none :: [.edit 1 (.rename "Ada"),
      .answer 1 (some (.refused .save)), .spawn 2 (.commit 1), .run 2, .run 2, .run 2, .answer 2 none]
    let s := (System.start {} ∅).run as
    let gone : TaskId → Bool := (· < 2)
    (∃ e, (Vault.perform (.switch 1 "" true)).on s.vault = (.error e, s.vault)) ∧
      (∀ t, gone t = true → (System.start {} ∅).InVain as t) ∧
      ((System.start {} ∅).run raising).Raised
        (((System.start {} ∅).run raising).step (.answer 1 none)) 1 ∧
      ∃ bs, (System.start {} ∅).Erased gone as bs ∧ s.Agrees ((System.start {} ∅).run bs) ∧
        ((System.start {} ∅).run bs).outcome? 2 = some (.ok 0) := by
  intro raising as s gone
  have hv : (∅ : Contents).opened {} {} = .ok {} := Contents.opened_empty {} {} rfl
  have hzero : s.outcome? 0 = some (.error (.persistence (.fault (.refused .saveMark)))) := by
    decide +kernel
  have hone : s.outcome? 1 = some (.error (.persistence (.fault (.refused .save)))) := by
    decide +kernel
  have hvain : ∀ t, gone t = true → (System.start {} ∅).InVain as t := by
    intro t ht
    have hlt : t < 2 := of_decide_eq_true ht
    rcases Nat.le_one_iff_eq_zero_or_eq_one.1 (Nat.lt_succ_iff.1 hlt) with rfl | rfl
    · refine ⟨fun op hop => ?_, fun n hn => absurd (hzero.symm.trans hn) (by simp)⟩
      obtain rfl : op = .commit 1 := by simpa [as, raising] using hop
      rfl
    · refine ⟨fun op hop => ?_, fun n hn => absurd (hone.symm.trans hn) (by simp)⟩
      obtain rfl : op = .commit 1 := by simpa [as, raising] using hop
      rfl
  obtain ⟨hcommands, -, hown, hrun⟩ := failures_leave_no_trace hv as
  have hrefused : ∃ e, (Vault.perform (.switch 1 "" true)).on s.vault = (.error e, s.vault) := by
    have hfails : ((Vault.perform (.switch 1 "" true)).on s.vault).1.isOk = false := by
      decide +kernel
    cases hr : (Vault.perform (.switch 1 "" true)).on s.vault with
    | mk r v' =>
      rw [hr] at hfails
      cases r with
      | ok x => exact absurd hfails (by simp [Except.isOk, Except.toBool])
      | error e => exact ⟨e, by rw [(hcommands _ v').1 e hr]⟩
  obtain ⟨bs, herased, -, hagrees, htasks⟩ := hrun gone hvain
  refine ⟨hrefused, hvain, ?_, bs, herased, hagrees, ?_⟩
  · obtain ⟨-, hsame | ⟨id, hid, hraised⟩⟩ := hown 1 (hvain 1 rfl) raising (.answer 1 none) _ rfl rfl
    · exact absurd hsame.1 (by decide +kernel)
    · obtain rfl : id = 1 := by simpa [raising] using hid
      exact hraised
  · rw [System.outcome?_of_tasks (htasks 2 rfl)]
    decide +kernel

end AccountVault
