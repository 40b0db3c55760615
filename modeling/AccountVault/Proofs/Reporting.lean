import AccountVault.Proofs.Desk.Run

/-!
# What notices report

The notice of the n-th save of an account names what was changed after the snapshot of the save before
and not after its own (`reports_eq_windows`).  The windows of the saves lie side by side and leave no
gap, whatever fails and whatever is edited while a record is being written.
-/

namespace AccountVault

open Chronicle (touches)

/-- Whether an edit of an account changes the key or the service with a name: by writing, by removing
what is there, or by turning the service's switch. -/
def Edit.Changes (a : Account) : Subject → String → Edit → Prop
  | .key, name, .write _ key _ _ => key = name
  | .key, name, .remove scope key => key = name ∧ (a.settingsOf scope).contains key = true
  | .service, name, .write scope _ _ _ => scope = .service name
  | .service, name, .remove scope key =>
    scope = .service name ∧ (a.settingsOf scope).contains key = true
  | .service, name, .setServiceEnabled service on =>
    service = name ∧ a.isServiceEnabled service ≠ on
  | _, _, _ => False

/-- The keys or the services that a notice names. -/
def Notice.names (n : Notice) : Subject → List String
  | .key => n.keys
  | .service => n.services

def Request.isSave : Request → Bool
  | save _ _ => true
  | _ => false

/-- The saves of an account that went well. -/
def System.saved (s : System) (id : AccountId) : List Request :=
  s.served.filter fun r => r.isSave ∧ r.target? = some id

/-- The notices that an account was written. -/
def System.reports (s : System) (id : AccountId) : List Notice :=
  s.published.filter fun n => n.kind ≠ .deleted ∧ n.account = id

/-- What a save records of an account. -/
def Snapshot.request (id : AccountId) (S : Snapshot) : Request :=
  .save id (Record.ofAccount id S.account).encode

theorem service?_eq_some_iff {scope : Scope} {name : String} :
    scope.service? = some name ↔ scope = .service name := by
  cases scope <;> simp [Scope.service?]

/-- An edit logs what it changes. -/
theorem Edit.changes_iff {a : Account} {e : Edit} {subject : Subject} {name : String} :
    e.Changes a subject name ↔ ∃ t, e.touch? a = some t ∧ t.name? subject = some name := by
  cases e with
  | rename n =>
    by_cases h : a.displayName = some n <;> cases subject <;> simp [Changes, touch?, h, Touch.name?]
  | setEnabled on =>
    by_cases h : a.enabled = on <;> cases subject <;> simp [Changes, touch?, h, Touch.name?]
  | write scope key =>
    cases subject <;> simp [Changes, touch?, Touch.name?, service?_eq_some_iff]
  | remove scope key =>
    by_cases h : (a.settingsOf scope).contains key = true <;> cases subject <;>
      simp [Changes, touch?, h, Touch.name?, service?_eq_some_iff]
  | bind => cases subject <;> simp [Changes, touch?]
  | setServiceEnabled service on =>
    by_cases h : a.isServiceEnabled service = on <;> cases subject <;>
      simp [Changes, touch?, h, Touch.name?]

namespace Chronicle

variable {c : Chronicle} {n : Nat}

/-- What was changed between two moments is what the edits in between logged. -/
theorem mem_pending_window {l : List (Account × Edit)} {m n : Nat} {subject : Subject}
    {name : String} : name ∈ (ChangeLog.since ((touches l).take n) m).pending subject ↔
      ∃ i a e, m ≤ i ∧ i < n ∧ l[i]? = some (a, e) ∧ e.Changes a subject name := by
  rw [ChangeLog.mem_pending_iff]
  constructor
  · rintro ⟨i, t, hm, ht, hname⟩
    rw [List.getElem?_take] at ht
    split at ht
    · rw [touches, List.getElem?_map, Option.map_eq_some_iff] at ht
      obtain ⟨⟨a, e⟩, he, ht⟩ := ht
      exact ⟨i, a, e, hm, ‹_›, he, Edit.changes_iff.2 ⟨t, ht, hname⟩⟩
    · exact absurd ht (by simp)
  · rintro ⟨i, a, e, hm, hn, he, hc⟩
    obtain ⟨t, ht, hname⟩ := Edit.changes_iff.1 hc
    refine ⟨i, t, hm, ?_, hname⟩
    rw [List.getElem?_take_of_lt hn, touches, List.getElem?_map, he]
    exact congrArg some ht

theorem windowStart_succ {S : Snapshot} (h : c.saves[n]? = some S) :
    c.windowStart (n + 1) = S.edits := by
  rw [windowStart, h]
  rfl

/-- The next window begins where the last save left off. -/
theorem windowStart_length (c : Chronicle) : c.windowStart c.saves.length = c.reported := by
  rw [reported, List.getLast?_eq_getElem?]
  cases hl : c.saves.length with
  | zero => simp [windowStart, List.length_eq_zero_iff.1 hl]
  | succ => rfl

theorem windowStart_congr {c' : Chronicle} (h : c.saves <+: c'.saves) (hn : n ≤ c.saves.length) :
    c'.windowStart n = c.windowStart n := by
  cases n with
  | zero => rfl
  | succ n =>
    obtain ⟨rest, hrest⟩ := h
    rw [windowStart, ← hrest, List.getElem?_append_left hn]
    rfl

end Chronicle

namespace Desk

/-- The notices that the account of a desk was written. -/
def reports (d : Desk) : List Notice := d.notices.filter (·.kind ≠ .deleted)

/-- What each save of an account has seen, and what was told of it.  A board that is closed takes no
more notices, while records can still be written. -/
structure Reporting (id : AccountId) (d : Desk) : Prop where
  saves : d.writes.filter Request.isSave = d.chronicle.saves.map (Snapshot.request id)
  length_le : d.reports.length ≤ d.chronicle.saves.length
  length_eq : d.isOpen = true → d.reports.length = d.chronicle.saves.length
  bounds : ∀ (n : Nat) (S : Snapshot), d.chronicle.saves[n]? = some S →
    d.chronicle.windowStart n ≤ S.edits ∧ S.edits ≤ d.chronicle.edits.length
  names : ∀ (n : Nat) (r : Notice) (S : Snapshot), d.reports[n]? = some r →
    d.chronicle.saves[n]? = some S → ∀ subject, r.names subject =
      ((ChangeLog.since ((touches d.chronicle.edits).take S.edits)
        (d.chronicle.windowStart n)).pending subject).keys

namespace Reporting

variable {id : AccountId} {d d' : Desk}

/-- Windows that have been closed do not depend on later edits. -/
theorem take_touches {l l' : List (Account × Edit)} (h : l <+: l') {n : Nat} (hn : n ≤ l.length) :
    (touches l').take n = (touches l).take n := by
  obtain ⟨rest, rfl⟩ := h
  rw [touches, touches, List.map_append, List.take_append_of_le_length (by rwa [List.length_map])]

/-- Whatever is neither saved nor told leaves the windows as they are. -/
theorem congr (h : d.Reporting id) (hopen : d'.isOpen = true → d.isOpen = true)
    (hreports : d'.reports = d.reports)
    (hwrites : d'.writes.filter Request.isSave = d.writes.filter Request.isSave)
    (hsaves : d'.chronicle.saves = d.chronicle.saves)
    (hedits : d.chronicle.edits <+: d'.chronicle.edits) : d'.Reporting id := by
  have hstart : ∀ n, d'.chronicle.windowStart n = d.chronicle.windowStart n := by
    intro n
    cases n with
    | zero => rfl
    | succ n => rw [Chronicle.windowStart, hsaves]; rfl
  refine ⟨?_, ?_, fun ho => ?_, fun n S hS => ?_, fun n r S hr hS subject => ?_⟩
  · rw [hwrites, hsaves]
    exact h.saves
  · rw [hreports, hsaves]
    exact h.length_le
  · rw [hreports, hsaves]
    exact h.length_eq (hopen ho)
  · rw [hsaves] at hS
    rw [hstart]
    exact ⟨(h.bounds n S hS).1, Nat.le_trans (h.bounds n S hS).2 hedits.length_le⟩
  · rw [hreports] at hr
    rw [hsaves] at hS
    rw [hstart, take_touches hedits (h.bounds n S hS).2]
    exact h.names n r S hr hS subject

/-- The notice of a draft names what the account had pending. -/
theorem names_notice (id : AccountId) (a : Account) (subject : Subject) :
    (Draft.ofAccount id a).notice.names subject = (a.changes.pending subject).keys := by
  rw [Draft.notice]
  split <;> cases subject <;> rfl

/-- What is at a place of a list with one more at its end. -/
theorem getElem?_concat_eq_some {α : Type} {l : List α} {x y : α} {n : Nat}
    (h : (l ++ [x])[n]? = some y) : l[n]? = some y ∨ n = l.length ∧ x = y := by
  rw [List.getElem?_append] at h
  split at h
  · exact .inl h
  · rw [List.getElem?_singleton] at h
    split at h
    · exact .inr ⟨by omega, Option.some.inj h⟩
    · exact absurd h (by simp)

/-- A save closes the window of what was pending when it began. -/
theorem save {t : TaskId} {f : Draft} (h : d.Reporting id) (hsound : d.Sound id)
    (hd : d.active = some (t, .saving f)) (account : Option Account) (found : Bool)
    (stored : Option Bytes) : Reporting id { d with
      account, found, stored
      active := none
      notices := d.tell f.notice
      writes := d.writes ++ [.save id f.record.encode]
      chronicle := d.chronicle.save t } := by
  obtain ⟨S, hS, hdraft⟩ := hsound.drafted t _ f hd rfl
  obtain ⟨a, -, -, -, hof⟩ := hdraft.account
  have hsaves : (d.chronicle.save t).saves = d.chronicle.saves ++ [S] := by
    rw [Chronicle.save, hS]
    rfl
  have hstart : ∀ n, n ≤ d.chronicle.saves.length →
      (d.chronicle.save t).windowStart n = d.chronicle.windowStart n := fun n =>
    Chronicle.windowStart_congr (hsaves ▸ List.prefix_append ..)
  have hlt : ∀ {n : Nat} {T : Snapshot}, d.chronicle.saves[n]? = some T →
      n < d.chronicle.saves.length := fun hT => (List.getElem?_eq_some_iff.1 hT).1
  have hreports : (d.tell f.notice).filter (·.kind ≠ .deleted) =
      d.reports ++ if d.isOpen then [f.notice] else [] := by
    rw [tell, List.filter_append, reports]
    split
    · simp [f.kind_notice_ne]
    · rfl
  refine ⟨?_, ?_, fun ho => ?_, fun n T hT => ?_, fun n r T hr hT subject => ?_⟩
  · show (d.writes ++ [Request.save id f.record.encode]).filter Request.isSave = _
    rw [hsaves, List.filter_append, h.saves, List.map_append, hdraft.draft]
    rfl
  · show ((d.tell f.notice).filter (·.kind ≠ .deleted)).length ≤ _
    rw [hreports, hsaves]
    have hle := h.length_le
    split <;> simp <;> omega
  · show ((d.tell f.notice).filter (·.kind ≠ .deleted)).length = _
    rw [hreports, hsaves, if_pos ho, List.length_append, List.length_append, h.length_eq ho]
    rfl
  · change (d.chronicle.save t).saves[n]? = some T at hT
    show (d.chronicle.save t).windowStart n ≤ T.edits ∧ T.edits ≤ d.chronicle.edits.length
    rw [hsaves] at hT
    rcases getElem?_concat_eq_some hT with hT | ⟨rfl, rfl⟩
    · rw [hstart n (Nat.le_of_lt (hlt hT))]
      exact h.bounds n T hT
    · rw [hstart _ (Nat.le_refl _), Chronicle.windowStart_length]
      exact ⟨hdraft.reported, hof.edits⟩
  · change ((d.tell f.notice).filter (·.kind ≠ .deleted))[n]? = some r at hr
    change (d.chronicle.save t).saves[n]? = some T at hT
    show r.names subject = ((ChangeLog.since ((touches d.chronicle.edits).take T.edits)
      ((d.chronicle.save t).windowStart n)).pending subject).keys
    rw [hsaves] at hT
    rw [hreports] at hr
    -- the notice is one that was there, or that of the save
    have hcases : d.reports[n]? = some r ∨ n = d.chronicle.saves.length ∧ f.notice = r := by
      by_cases ho : d.isOpen = true
      · rw [if_pos ho] at hr
        rw [← h.length_eq ho]
        exact getElem?_concat_eq_some hr
      · rw [if_neg ho, List.append_nil] at hr
        exact .inl hr
    rcases getElem?_concat_eq_some hT with hT | ⟨rfl, rfl⟩
    · have hn := hlt hT
      rw [hstart n (Nat.le_of_lt hn)]
      rcases hcases with hr | ⟨rfl, -⟩
      · exact h.names n r T hr hT subject
      · exact absurd hn (Nat.lt_irrefl _)
    · rw [hstart _ (Nat.le_refl _), Chronicle.windowStart_length, ← hdraft.changes, ← names_notice id,
        ← hdraft.draft]
      rcases hcases with hr | ⟨-, rfl⟩
      · have hn := (List.getElem?_eq_some_iff.1 hr).1
        exact absurd (Nat.lt_of_lt_of_le hn h.length_le) (Nat.lt_irrefl _)
      · rfl

theorem step (h : d.Reporting id) (hsound : d.Sound id) (hs : Stepped id d d') :
    d'.Reporting id := by
  cases hs with
  | idle _ hopen => exact h.congr hopen rfl rfl rfl List.prefix_rfl
  | create | look | draft | advance | fail | beginRemoval | discard =>
    exact h.congr (fun ho => ho) rfl rfl rfl List.prefix_rfl
  | edit => exact h.congr (fun ho => ho) rfl rfl rfl (List.prefix_append ..)
  | save hd => exact h.save hsound hd _ _ _
  | remove =>
    refine h.congr (fun ho => ho) ?_ ?_ rfl List.prefix_rfl
    · show (d.tell (.deleted _)).filter (·.kind ≠ .deleted) = d.reports
      rw [tell, List.filter_append, reports]
      split <;> simp [Notice.deleted]
    · show (d.writes ++ [Request.remove _]).filter Request.isSave = _
      rw [List.filter_append]
      simp [Request.isSave]

/-- The windows of an account's saves leave no gap and do not overlap. -/
theorem existsUnique_window (h : d.Reporting id) {i : Nat} (hi : i < d.chronicle.reported) :
    ∃! n, n < d.chronicle.saves.length ∧ d.chronicle.windowStart n ≤ i ∧
      i < d.chronicle.windowStart (n + 1) := by
  have hstep : ∀ n, n < d.chronicle.saves.length →
      d.chronicle.windowStart n ≤ d.chronicle.windowStart (n + 1) := by
    intro n hn
    have hS := List.getElem?_eq_getElem hn
    rw [Chronicle.windowStart_succ hS]
    exact (h.bounds n _ hS).1
  have hmono : ∀ m n, m ≤ n → n ≤ d.chronicle.saves.length →
      d.chronicle.windowStart m ≤ d.chronicle.windowStart n := by
    intro m n hmn
    induction hmn with
    | refl => exact fun _ => Nat.le_refl _
    | @step n _ ih => exact fun hn => Nat.le_trans (ih (by omega)) (hstep n hn)
  have hexists : ∀ k, k ≤ d.chronicle.saves.length → i < d.chronicle.windowStart k →
      ∃ n, n < d.chronicle.saves.length ∧ d.chronicle.windowStart n ≤ i ∧
        i < d.chronicle.windowStart (n + 1) := by
    intro k
    induction k with
    | zero => exact fun _ h => absurd h (Nat.not_lt_zero i)
    | succ k ih =>
      intro hk hik
      by_cases hlt : i < d.chronicle.windowStart k
      · exact ih (by omega) hlt
      · exact ⟨k, hk, Nat.le_of_not_lt hlt, hik⟩
  rw [← Chronicle.windowStart_length] at hi
  obtain ⟨n, hn, hle, hlt⟩ := hexists _ (Nat.le_refl _) hi
  refine ⟨n, ⟨hn, hle, hlt⟩, ?_⟩
  rintro m ⟨hm, hle', hlt'⟩
  rcases Nat.lt_trichotomy m n with hmn | rfl | hmn
  · have := hmono (m + 1) n hmn (by omega)
    omega
  · rfl
  · have := hmono (n + 1) m hmn (by omega)
    omega

end Reporting

end Desk

theorem Contents.Opens.reporting {c : Contents} {v : Vault} (h : c.Opens v) (id : AccountId)
    (as : List Action) : (v.deskAfter c id as).Reporting id := by
  refine h.desk_induction ?_ (fun _ _ hd hr hs => hr.step hd hs) as
  rw [h.desk_start]
  exact ⟨rfl, Nat.le_refl _, fun _ => rfl, fun n S hS => absurd hS (by simp [Chronicle.opened]),
    fun n r S hr => absurd hr (by simp [Desk.reports])⟩

/-- The n-th notice that an account was written tells of the n-th save that went well.  It names, in
order and once each, what was changed after the snapshot of the save before, or since the account was
there, and not after the snapshot of its own; and every edit that a save has seen lies in the window of
exactly one save. -/
theorem reports_eq_windows {c : Contents} {options : Options} {catalog : Catalog} {v : Vault}
    (hv : c.opened options catalog = .ok v) (as : List Action) (id : AccountId) :
    let s := (System.start v c).run as
    let h := v.history c id as
    s.saved id = h.saves.map (Snapshot.request id) ∧
    (s.reports id).length ≤ h.saves.length ∧
    (s.vault.board.isOpen = true → (s.reports id).length = h.saves.length) ∧
    (∀ n r, (s.reports id)[n]? = some r → ∀ subject, (r.names subject).Pairwise (· < ·) ∧
      ∀ name, name ∈ r.names subject ↔ ∃ i a e, h.windowStart n ≤ i ∧ i < h.windowStart (n + 1) ∧
        h.edits[i]? = some (a, e) ∧ e.Changes a subject name) ∧
    ∀ i, i < h.reported →
      ∃! n, n < h.saves.length ∧ h.windowStart n ≤ i ∧ i < h.windowStart (n + 1) := by
  intro s h
  have hr := (Contents.opens_of_opened hv).reporting id as
  have hsaved : s.saved id = (v.deskAfter c id as).writes.filter Request.isSave := by
    rw [System.saved]
    show _ = (s.served.filter _).filter _
    simp [List.filter_filter]
  have hreports : s.reports id = (v.deskAfter c id as).reports := by
    rw [System.reports, Desk.reports]
    show _ = (s.published.filter _).filter _
    simp [List.filter_filter]
  rw [hsaved, hreports]
  refine ⟨hr.saves, hr.length_le, hr.length_eq, fun n r hn subject => ?_, fun i hi =>
    hr.existsUnique_window hi⟩
  have hlt := Nat.lt_of_lt_of_le (List.getElem?_eq_some_iff.1 hn).1 hr.length_le
  have hS : h.saves[n]? = some h.saves[n] := List.getElem?_eq_getElem hlt
  rw [hr.names n r _ hn hS subject, Chronicle.windowStart_succ hS]
  refine ⟨?_, fun name => ?_⟩
  · have hord : List.Pairwise (fun k k' => compare k k' = .lt) ((ChangeLog.since
        ((touches h.edits).take h.saves[n].edits) (h.windowStart n)).pending subject).keys :=
      Std.ExtTreeMap.ordered_keys
    exact hord.imp fun hk => compareOfLessAndEq_eq_lt.1 hk
  · rw [Std.ExtTreeMap.mem_keys]
    exact Chronicle.mem_pending_window

/-- What is changed while a new account is being written is told of by the next save. -/
theorem reports_eq_windows_of_new :
    let as : List Action := [.create "acme",
      .edit 1 (.write .account "color" (.text "red") (some .account)), .spawn 0 (.commit 1), .run 0,
      .run 0, .run 0, .answer 0 none,
      .edit 1 (.write (.service "mail") "size" (.integer 3) (some .service)), .answer 0 none,
      .spawn 1 (.commit 1), .run 1, .run 1, .answer 1 none]
    (((System.start {} ∅).run as).reports 1)[1]? = some (.updated 1 ["size"] ["mail"]) ∧
      ∀ name, name ∈ ["mail"] ↔ ∃ i a e, 1 ≤ i ∧ i < 2 ∧
        (Vault.history {} ∅ 1 as).edits[i]? = some (a, e) ∧ e.Changes a .service name := by
  intro as
  have hreport : (((System.start {} ∅).run as).reports 1)[1]? =
      some (.updated 1 ["size"] ["mail"]) := by decide +kernel
  have hstart : (Vault.history {} ∅ 1 as).windowStart 1 = 1 ∧
      (Vault.history {} ∅ 1 as).windowStart 2 = 2 := by decide +kernel
  obtain ⟨-, -, -, h, -⟩ := reports_eq_windows (Contents.opened_empty {} {} rfl) as 1
  have hnames := (h 1 _ hreport .service).2
  rw [hstart.1, hstart.2] at hnames
  exact ⟨hreport, hnames⟩

end AccountVault
