import AccountVault.Proofs.Desk.Basic
import AccountVault.Proofs.Record.RoundTrip

/-!
# Memory, storage and drafts agree

The invariant of a desk, `Desk.Sound`: the chronicle's last save is what is stored and what the account
was, the account's change log is that of the edits since then, and the draft of the task at work is what
the account was when the task began.  Main statement: `Desk.Sound.step`, by which every step keeps it.
-/

namespace AccountVault

open Chronicle (touches)

/-- A snapshot is what an account with a history was: if nothing has been logged since, it still is that
account, but for bare bindings. -/
structure Snapshot.Of (S : Snapshot) (l : List (Account × Edit)) (a : Account) : Prop where
  edits : S.edits ≤ l.length
  tidy : S.account.Tidy
  reflects : S.account.Reflects ((l.take S.edits).map (·.2))
  matches_of_revision : (ChangeLog.ofTouches (touches l)).revision =
    (ChangeLog.ofTouches ((touches l).take S.edits)).revision → S.account.Matches a

namespace Snapshot

variable {S : Snapshot} {l : List (Account × Edit)} {a a' : Account}

theorem of_now (ht : a.Tidy) (hr : a.Reflects (l.map (·.2))) : Of ⟨a, l.length⟩ l a :=
  ⟨Nat.le_refl _, ht, by rwa [List.take_length], fun _ => .refl a⟩

theorem Of.congr (h : S.Of l a) (ha : a.Matches a') : S.Of l a' :=
  ⟨h.edits, h.tidy, h.reflects, fun hr => (h.matches_of_revision hr).trans ha⟩

theorem touches_concat (l : List (Account × Edit)) (a : Account) (e : Edit) :
    touches (l ++ [(a, e)]) = touches l ++ [e.touch? a] := by
  simp [touches]

theorem length_touches (l : List (Account × Edit)) : (touches l).length = l.length := by
  simp [touches]

/-- An edit makes a snapshot older, but no less true. -/
theorem Of.edited {e : Edit} (h : S.Of l a) (he : a.Edited e a') : S.Of (l ++ [(a, e)]) a' := by
  refine ⟨?_, h.tidy, ?_, fun hr => ?_⟩
  · exact Nat.le_trans h.edits (by simp)
  · rw [List.take_append_of_le_length h.edits]
    exact h.reflects
  · rw [touches_concat, List.take_append_of_le_length (by rw [length_touches]; exact h.edits),
      ChangeLog.ofTouches_concat] at hr
    obtain ⟨ht, hr⟩ := ChangeLog.note_eq_of_revision_eq
      (ChangeLog.revision_take_le_ofTouches (touches l) S.edits) hr
    exact (h.matches_of_revision hr).trans (he.matches_of_touch?_eq_none ht)

end Snapshot

namespace Account

theorem matches_markSaved (a : Account) (r : Nat) : a.Matches (a.markSaved r) :=
  ⟨rfl, rfl, rfl, rfl, fun _ => .inl rfl⟩

end Account

/-- An account has the history that an onlooker wrote down, of which the first `n` edits have been
reported. -/
structure Account.Logs (a : Account) (l : List (Account × Edit)) (n : Nat) : Prop where
  tidy : a.Tidy
  reflects : a.Reflects (l.map (·.2))
  changes : a.changes = ChangeLog.since (touches l) n
  reported : n ≤ l.length

theorem Account.Logs.edited {a a' : Account} {l : List (Account × Edit)} {n : Nat} {e : Edit}
    (h : a.Logs l n) (he : a.Edited e a') : a'.Logs (l ++ [(a, e)]) n := by
  refine ⟨he.tidy h.tidy, ?_, ?_, Nat.le_trans h.reported (by simp)⟩
  · rw [List.map_append]
    exact h.reflects.concat he
  · rw [he.changes_eq, h.changes, Snapshot.touches_concat, ChangeLog.since_concat]
    rw [Snapshot.length_touches]
    exact h.reported

/-- A task has drafted what an account was, of whose edits the first `n` had been reported. -/
structure Snapshot.Drafted (S : Snapshot) (id : AccountId) (l : List (Account × Edit)) (n : Nat)
    (account : Option Account) (f : Draft) : Prop where
  draft : f = .ofAccount id S.account
  reported : n ≤ S.edits
  changes : S.account.changes = ChangeLog.since ((touches l).take S.edits) n
  account : ∃ a, account = some a ∧ a.state = S.account.state ∧ a.state ≠ .deleted ∧ S.Of l a

/-- What was saved last of an account is what is stored. -/
structure Snapshot.Kept (S : Snapshot) (id : AccountId) (l : List (Account × Edit)) (n : Nat)
    (account : Option Account) (stored : Option Bytes) : Prop where
  reported : S.edits = n
  stored : ∃ bytes, stored = some bytes ∧ Record.decode bytes = .ok (.ofAccount id S.account)
  account : ∃ a, account = some a ∧ a.state = .saved ∧ S.Of l a

namespace Desk

structure Sound (id : AccountId) (d : Desk) : Prop where
  absent : d.account = none → d.active = none ∧ d.chronicle.edits = [] ∧ d.chronicle.saves = []
  logs : ∀ a, d.account = some a → a.Logs d.chronicle.edits d.chronicle.reported
  found : d.found = d.chronicle.kept.isSome
  kept : ∀ S, d.chronicle.kept = some S →
    S.Kept id d.chronicle.edits d.chronicle.reported d.account d.stored
  notKept : d.chronicle.kept = none → d.stored = none ∧ ∀ a, d.account = some a → a.state ≠ .saved
  drafted : ∀ t p f, d.active = some (t, p) → p.draft? = some f →
    ∃ S, d.chronicle.drawn[t]? = some S ∧
      S.Drafted id d.chronicle.edits d.chronicle.reported d.account f
  removing : ∀ t, d.active = some (t, .removing) → ∃ a, d.account = some a ∧ a.state = .saved

namespace Sound

variable {id : AccountId} {d : Desk} {a a' : Account} {t : TaskId}

theorem kept_eq_none (h : d.Sound id) (ha : ∀ a, d.account = some a → a.state ≠ .saved) :
    d.chronicle.kept = none := by
  refine Option.eq_none_iff_forall_ne_some.2 fun S hS => ?_
  obtain ⟨a, hacc, hs, -⟩ := (h.kept S hS).account
  exact ha a hacc hs

theorem isSome_kept (h : d.Sound id) (ha : d.account = some a) (hs : a.state = .saved) :
    d.chronicle.kept.isSome := by
  rw [← Option.ne_none_iff_isSome]
  exact fun hn => (h.notKept hn).2 a ha hs

/-- An account without pending changes is what is kept of it, but for bare bindings. -/
theorem kept_of_clean (h : d.Sound id) (ha : d.account = some a) (hs : a.state = .saved)
    (hd : a.isDirty = false) : ∃ S, d.chronicle.kept = some S ∧ S.account.Matches a := by
  obtain ⟨S, hS⟩ := Option.isSome_iff_exists.1 (h.isSome_kept ha hs)
  obtain ⟨hrep, -, b, hb, -, hof⟩ := h.kept S hS
  obtain rfl := Option.some.inj (ha.symm.trans hb)
  have hrev : a.changes.revision = a.changes.saved := by
    simpa [Account.isDirty, ChangeLog.isDirty] using hd
  rw [(h.logs a ha).changes] at hrev
  refine ⟨S, hS, hof.matches_of_revision ?_⟩
  rw [hrep]
  exact hrev

/-! ### Steps -/

theorem idle (h : d.Sound id) (isOpen : Bool) : Sound id { d with isOpen } :=
  ⟨h.absent, h.logs, h.found, h.kept, h.notKept, h.drafted, h.removing⟩

theorem create (h : d.Sound id) (provider : String) (ha : d.account = none) :
    Sound id { d with account := some { provider } } := by
  obtain ⟨hact, hedits, hsaves⟩ := h.absent ha
  have hkept := h.kept_eq_none (by simp [ha])
  have hrep : d.chronicle.reported = 0 := by rw [Chronicle.reported, hsaves]; rfl
  refine ⟨fun hn => absurd hn (by simp), fun a ha => ?_, h.found, fun S hS => ?_, fun _ => ?_,
    fun t p f ht => ?_, fun t ht => ?_⟩
  · cases ha
    refine ⟨Account.tidy_new provider, ?_, ?_, ?_⟩
    · rw [hedits]
      exact Account.reflects_nil _
    · show ({} : ChangeLog) = ChangeLog.since (touches d.chronicle.edits) d.chronicle.reported
      rw [hedits, hrep]
      exact ChangeLog.settle_new.symm
    · show d.chronicle.reported ≤ _
      rw [hrep]
      exact Nat.zero_le _
  · exact absurd (hkept.symm.trans hS) (by simp)
  · refine ⟨(h.notKept hkept).1, fun a ha => ?_⟩
    cases ha
    simp
  · exact absurd (hact.symm.trans ht) (by simp)
  · exact absurd (hact.symm.trans ht) (by simp)

theorem edit {e : Edit} (h : d.Sound id) (ha : d.account = some a) (he : a.Edited e a') :
    Sound id { d with account := some a', chronicle := d.chronicle.addEdit a e } := by
  -- what was true of the account before the edit is true of it after
  have hof : ∀ {S : Snapshot} {b : Account}, d.account = some b → S.Of d.chronicle.edits b →
      S.Of (d.chronicle.edits ++ [(a, e)]) a' := by
    intro S b hb hS
    obtain rfl := Option.some.inj (ha.symm.trans hb)
    exact hS.edited he
  refine ⟨fun hn => absurd hn (by simp), fun b hb => ?_, h.found, fun S hS => ?_, fun hn => ?_,
    fun t p f ht hf => ?_, fun t ht => ?_⟩
  · cases hb
    exact (h.logs a ha).edited he
  · obtain ⟨b, hb, hs, hSof⟩ := (h.kept S hS).account
    refine ⟨(h.kept S hS).reported, (h.kept S hS).stored, a', rfl, ?_, hof hb hSof⟩
    rw [he.state_eq, Option.some.inj (ha.symm.trans hb), hs]
  · refine ⟨(h.notKept hn).1, fun b hb => ?_⟩
    cases hb
    rw [he.state_eq]
    exact (h.notKept hn).2 a ha
  · obtain ⟨S, hS, hdraft⟩ := h.drafted t p f ht hf
    obtain ⟨b, hb, hst, hl, hSof⟩ := hdraft.account
    refine ⟨S, hS, hdraft.draft, hdraft.reported, ?_, a', rfl, ?_, ?_, hof hb hSof⟩
    · rw [hdraft.changes]
      show _ = ChangeLog.since ((touches (d.chronicle.edits ++ [(a, e)])).take S.edits) _
      rw [Snapshot.touches_concat, List.take_append_of_le_length]
      · rfl
      · rw [Snapshot.length_touches]
        exact hSof.edits
    · rw [he.state_eq, Option.some.inj (ha.symm.trans hb), hst]
    · rw [he.state_eq, Option.some.inj (ha.symm.trans hb)]
      exact hl
  · obtain ⟨b, hb, hs⟩ := h.removing t ht
    refine ⟨a', rfl, ?_⟩
    rw [he.state_eq, Option.some.inj (ha.symm.trans hb), hs]

/-- While nobody is at work, what a task draws concerns nobody. -/
theorem look (h : d.Sound id) (t : TaskId) (hd : d.active = none) (a : Account) :
    Sound id { d with chronicle := d.chronicle.draw t a } :=
  ⟨h.absent, h.logs, h.found, h.kept, h.notKept, fun _ _ _ ht => absurd (hd.symm.trans ht) (by simp),
    h.removing⟩

theorem draft {p : Point} (h : d.Sound id) (t : TaskId) (ha : d.account = some a)
    (hs : a.state ≠ .deleted) (hp : p.draft? = some (.ofAccount id a)) :
    Sound id { d with active := some (t, p), chronicle := d.chronicle.draw t a } := by
  have hl := h.logs a ha
  refine ⟨fun hn => absurd (ha.symm.trans hn) (by simp), h.logs, h.found, h.kept, h.notKept,
    fun t' p' f ht hf => ?_, fun t' ht => ?_⟩
  · cases ht
    cases hp.symm.trans hf
    refine ⟨_, Std.ExtTreeMap.getElem?_insert_self, rfl, hl.reported, ?_, a, ha, rfl, hs,
      Snapshot.of_now hl.tidy hl.reflects⟩
    show a.changes = ChangeLog.since ((touches d.chronicle.edits).take d.chronicle.edits.length) _
    rw [List.take_of_length_le (Nat.le_of_eq (Snapshot.length_touches _))]
    exact hl.changes
  · cases ht
    exact absurd hp (by simp [Point.draft?])

theorem advance {p p' : Point} (h : d.Sound id) (hd : d.active = some (t, p))
    (hs : p.draft?.isSome) (hp : p'.draft? = p.draft?) :
    Sound id { d with active := some (t, p') } := by
  refine ⟨fun hn => absurd (hd.symm.trans (h.absent hn).1) (by simp), h.logs, h.found, h.kept,
    h.notKept, fun t' q f ht hf => ?_, fun t' ht => ?_⟩
  · cases ht
    exact h.drafted t p f hd (hp ▸ hf)
  · cases ht
    rw [← hp] at hs
    exact absurd hs (by simp [Point.draft?])

theorem fail (h : d.Sound id) : Sound id { d with active := none } :=
  ⟨fun hn => ⟨rfl, (h.absent hn).2⟩, h.logs, h.found, h.kept, h.notKept,
    fun _ _ _ ht => absurd ht (by simp), fun _ ht => absurd ht (by simp)⟩

theorem reported_save {c : Chronicle} {S : Snapshot} (hS : c.drawn[t]? = some S) :
    (c.save t).reported = S.edits := by
  simp [Chronicle.reported, Chronicle.save, hS]

/-- Once a draft is stored, the account is settled up to what the draft had seen. -/
theorem save {f : Draft} (h : d.Sound id) (hd : d.active = some (t, .saving f)) (notices : List Notice)
    (writes : List Request) : Sound id { d with
      account := d.account.map (·.markSaved f.revision)
      found := d.found || f.isNew
      stored := some f.record.encode
      active := none
      notices
      writes
      chronicle := d.chronicle.save t } := by
  obtain ⟨S, hS, hdraft⟩ := h.drafted t _ f hd rfl
  obtain ⟨a, ha, hst, hl, hSof⟩ := hdraft.account
  have hlog := h.logs a ha
  have hrep := reported_save hS
  have hrev : f.revision = (ChangeLog.ofTouches ((touches d.chronicle.edits).take S.edits)).revision := by
    rw [hdraft.draft]
    show S.account.changes.revision = _
    rw [hdraft.changes]
    rfl
  refine ⟨fun hn => ?_, fun b hb => ?_, ?_, fun S' hS' => ?_, fun hn => ?_,
    fun _ _ _ ht => absurd ht (by simp), fun _ ht => absurd ht (by simp)⟩
  · simp [ha] at hn
  · rw [ha] at hb
    cases hb
    refine ⟨⟨hlog.tidy.settings, hlog.tidy.bindings⟩, hlog.reflects, ?_, ?_⟩
    · show a.changes.settle f.revision = _
      rw [hlog.changes, hrev, ChangeLog.settle_since _ hdraft.reported, hrep]
      rfl
    · rw [hrep]
      exact hSof.edits
  · show (d.found || f.isNew) = (d.chronicle.drawn[t]?).isSome
    rw [hS, h.found]
    cases hk : d.chronicle.kept with
    | some => rfl
    | none =>
      have hu : S.account.state = .unsaved := by
        have hns := (h.notKept hk).2 a ha
        rw [← hst]
        cases hc : a.state <;> simp_all
      simp [hdraft.draft, Draft.ofAccount, hu]
  · cases hS.symm.trans hS'
    refine ⟨hrep.symm, ⟨_, rfl, ?_⟩, a.markSaved f.revision, by rw [ha]; rfl, rfl,
      hSof.congr (a.matches_markSaved _)⟩
    rw [hdraft.draft]
    exact Record.decode_encode _
  · exact absurd (hS.symm.trans hn) (by simp)

theorem beginRemoval (h : d.Sound id) (t : TaskId) (ha : d.account = some a)
    (hs : a.state = .saved) : Sound id { d with active := some (t, .removing) } := by
  refine ⟨fun hn => absurd (ha.symm.trans hn) (by simp), h.logs, h.found, h.kept, h.notKept,
    fun t' p f ht hf => ?_, fun _ _ => ⟨a, ha, hs⟩⟩
  cases ht
  exact absurd hf (by simp [Point.draft?])

theorem remove (h : d.Sound id) (hd : d.active = some (t, .removing)) (notices : List Notice)
    (writes : List Request) : Sound id { d with
      account := d.account.map fun a => { a with state := .deleted }
      found := false
      stored := none
      active := none
      notices
      writes
      chronicle := d.chronicle.remove } := by
  obtain ⟨a, ha, -⟩ := h.removing t hd
  have hlog := h.logs a ha
  refine ⟨fun hn => ?_, fun b hb => ?_, rfl, fun S hS => ?_, fun hn => ⟨rfl, fun b hb => ?_⟩,
    fun _ _ _ ht => absurd ht (by simp), fun _ ht => absurd ht (by simp)⟩
  · simp [ha] at hn
  · rw [ha] at hb
    cases hb
    exact ⟨⟨hlog.tidy.settings, hlog.tidy.bindings⟩, hlog.reflects, hlog.changes, hlog.reported⟩
  · exact absurd hS (by simp [Chronicle.remove])
  · rw [ha] at hb
    cases hb
    simp

theorem discard (h : d.Sound id) (hd : d.active = none) (ha : d.account = some a)
    (hs : a.state = .unsaved) : Sound id { d with account := some { a with state := .deleted } } := by
  have hlog := h.logs a ha
  have hkept := h.kept_eq_none fun b hb => by cases ha.symm.trans hb; simp [hs]
  refine ⟨fun hn => absurd hn (by simp), fun b hb => ?_, h.found, fun S hS => ?_,
    fun hn => ⟨(h.notKept hn).1, fun b hb => ?_⟩, fun _ _ _ ht => absurd (hd.symm.trans ht) (by simp),
    fun _ ht => absurd (hd.symm.trans ht) (by simp)⟩
  · cases hb
    exact ⟨⟨hlog.tidy.settings, hlog.tidy.bindings⟩, hlog.reflects, hlog.changes, hlog.reported⟩
  · exact absurd (hkept.symm.trans hS) (by simp)
  · cases hb
    simp

/-- Every step keeps memory, storage and drafts in agreement. -/
theorem step {d' : Desk} (h : d.Sound id) (hs : Desk.Stepped id d d') : d'.Sound id := by
  cases hs with
  | idle isOpen => exact h.idle isOpen
  | create provider ha => exact h.create provider ha
  | edit ha _ he => exact h.edit ha he
  | look t hd => exact h.look t hd _
  | draft t _ ha hs hp =>
    refine h.draft t ha (fun hdel => ?_) hp
    rcases hs with hs | hs <;> rw [hdel] at hs <;> exact absurd hs (by simp)
  | advance hd hsome hp => exact h.advance hd hsome hp
  | fail => exact h.fail
  | save hd => exact h.save hd _ _
  | beginRemoval t _ ha hs => exact h.beginRemoval t ha hs
  | remove hd => exact h.remove hd _ _
  | discard hd ha hs => exact h.discard hd ha hs

end Sound

end Desk

end AccountVault
