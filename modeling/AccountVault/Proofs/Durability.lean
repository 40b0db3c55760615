import AccountVault.Proofs.Desk.Commit

/-!
# What is saved stays

What a storage holds at any point of a run is what was loaded or saved last: opening it again gives the
accounts as they were then (`reopened_account?`), and what an account without pending changes holds is
stored, with every edit that a commit that went well had to cover (`clean_is_durable`).
-/

namespace AccountVault

/-- A record holds an account, but perhaps for bare bindings. -/
structure Record.Covers (r : Record) (id : AccountId) (a : Account) : Prop where
  rest : r = { Record.ofAccount id a with services := r.services }
  services : ∀ name : String, r.services[name]? = (Record.ofAccount id a).services[name]? ∨
    (r.services[name]? = none ∧ ∃ b, a.bindings[name]? = some b ∧ b.Bare)

theorem Record.covers_of_matches {a b : Account} (h : a.Matches b) (id : AccountId) :
    (Record.ofAccount id a).Covers id b := by
  refine ⟨?_, fun name => ?_⟩
  · simp only [Record.ofAccount, h.provider, h.displayName, h.enabled, h.settings]
  · rw [Record.services_ofAccount, Record.services_ofAccount]
    rcases h.bindings name with hb | ⟨ha, hb⟩
    · exact .inl (by rw [hb])
    · exact .inr ⟨by rw [ha]; rfl, hb⟩

namespace Contents.Opens

variable {c : Contents} {v : Vault}

/-- What is found of an account in the storage after a run is what was loaded or saved last of it. -/
theorem loaded?_run (h : c.Opens v) (as : List Action) (id : AccountId) :
    ((System.start v c).run as).contents.loaded? id =
      (v.history c id as).kept.map (·.account.settled) := by
  cases hk : (v.history c id as).kept with
  | none =>
    have hnone : ((System.start v c).run as).contents.record? id = none :=
      ((h.sound id as).notKept hk).1
    rw [Contents.loaded?, hnone]
    rfl
  | some S => exact Contents.loaded?_eq_some_iff.2 ((h.sound id as).decodeAccount_of_kept hk)

/-- A record that the storage holds after a run is that of what is kept of the account. -/
theorem exists_kept_of_record? (h : c.Opens v) {as : List Action} {id : AccountId} {bytes : Bytes}
    (hb : ((System.start v c).run as).contents.record? id = some bytes) :
    ∃ S, (v.history c id as).kept = some S ∧
      Vault.decodeAccount id bytes = .ok S.account.settled := by
  obtain ⟨S, hS⟩ : ∃ S, (v.history c id as).kept = some S := by
    refine Option.ne_none_iff_exists'.1 fun hn => ?_
    exact absurd (((h.sound id as).notKept hn).1.symm.trans hb) (by simp)
  obtain ⟨bytes', hb', hd⟩ := (h.sound id as).decodeAccount_of_kept hS
  obtain rfl := Option.some.inj (hb.symm.trans hb')
  exact ⟨S, hS, hd⟩

theorem readable_run (h : c.Opens v) (as : List Action) (id : AccountId) :
    ((System.start v c).run as).contents.Readable id := by
  intro bytes hb
  obtain ⟨S, -, hd⟩ := h.exists_kept_of_record? hb
  exact ⟨_, hd⟩

/-- After every id under which the storage holds a record there is another one. -/
theorem exists_next_run (h : c.Opens v) (as : List Action) {id : AccountId}
    (hid : id ∈ ((System.start v c).run as).contents.ids) : id.toNat + 1 < UInt64.size := by
  obtain ⟨bytes, hb⟩ := Option.isSome_iff_exists.1 (Contents.mem_ids_iff.1 hid)
  obtain ⟨S, hS, -⟩ := h.exists_kept_of_record? hb
  obtain ⟨-, -, a, ha, -⟩ := (h.sound id as).kept S hS
  -- an id that was given out leaves the next one to be given out
  have hlt := (h.orderly_run as).fresh id (by rw [show Vault.account? _ id = some a from ha]; rfl)
  have hn := ((System.start v c).run as).vault.nextId.toNat_lt
  rw [UInt64.lt_iff_toNat_lt] at hlt
  simp only [UInt64.size]
  omega

/-- After any run the storage can be opened anew, with every catalog whose keys are short enough. -/
theorem exists_opened_run (h : c.Opens v) (as : List Action) {options : Options} {catalog : Catalog}
    (hk : catalog.checkKeys options.keyLimit = .ok ()) :
    ∃ v', ((System.start v c).run as).contents.opened options catalog = .ok v' :=
  Contents.opened_eq_ok hk (h.readable_run as) fun _ hid => h.exists_next_run as hid

end Contents.Opens

/-- The last edit of each slot shows in what is stored of an account, unless it bound a service that is
bare. -/
def Account.ReflectsButBare (stored a : Account) (l : List Edit) : Prop :=
  ∀ (i : Nat) (e : Edit), l[i]? = some e →
    (∀ (j : Nat) (e' : Edit), i < j → l[j]? = some e' → e'.slot ≠ e.slot) →
      e.ShownIn stored ∨ ∃ service b, e = .bind service ∧ a.bindings[service]? = some b ∧ b.Bare

theorem Account.Reflects.butBare_of_matches {S a : Account} {l : List Edit} (h : a.Reflects l)
    (hm : S.Matches a) : S.settled.ReflectsButBare a l := fun i e he hlast =>
  (hm.shownIn (h i e he hlast)).imp_left fun hs => by cases e <;> exact hs

theorem Account.Reflects.butBare {S a : Account} {l : List Edit} (h : S.Reflects l) :
    S.settled.ReflectsButBare a l := fun i e he hlast =>
  .inl (by cases e <;> exact h i _ he hlast)

/-- What was edited before a point of a run comes first in what has been edited since, and so it does in
any part of that which is long enough. -/
theorem Vault.exists_later (v : Vault) (c : Contents) (id : AccountId) (before rest : List Action)
    {n : Nat} (hn : (v.history c id before).edits.length ≤ n) :
    ∃ later, (v.history c id (before ++ rest)).edits.take n =
      (v.history c id before).edits ++ later := by
  obtain ⟨tail, htail⟩ := Vault.edits_history v c id before rest
  refine ⟨tail.take (n - (v.history c id before).edits.length), ?_⟩
  rw [← htail, List.take_append, List.take_of_length_le hn]

namespace System

variable {s : System} {t : TaskId} {action : Action}

/-- The action that a task ends by can be taken. -/
theorem exists_step?_of_outcome? {o : Outcome} (hnone : s.outcome? t = none)
    (ho : (s.step action).outcome? t = some o) : ∃ s', s.step? action = some s' := by
  refine Option.ne_none_iff_exists'.1 fun hn => ?_
  rw [step_of_step?_eq_none hn, hnone] at ho
  exact absurd ho (by simp)

end System

namespace Contents.Opens

variable {c : Contents} {v : Vault} {id : AccountId}

/-- A saved account without pending changes is stored, but perhaps for bare bindings. -/
theorem covers_of_clean (h : c.Opens v) (as : List Action) {a : Account}
    (ha : ((System.start v c).run as).vault.account? id = some a) (hs : a.state = .saved)
    (hd : a.isDirty = false) :
    ∃ bytes r, ((System.start v c).run as).contents.record? id = some bytes ∧
      Record.decode bytes = .ok r ∧ r.Covers id a := by
  obtain ⟨S, hS, hm⟩ := (h.sound id as).kept_of_clean ha hs hd
  obtain ⟨-, ⟨bytes, hb, hdec⟩, -⟩ := (h.sound id as).kept S hS
  exact ⟨bytes, _, hb, hdec, Record.covers_of_matches hm id⟩

/-- When a commit goes well, what is kept of the account has seen all that was edited before the call, or
it is what the account still is. -/
theorem kept_of_committed (h : c.Opens v) {before after : List Action} {t : TaskId}
    {action : Action} {n : Nat} (ht : ((System.start v c).run before).tasks[t]? = none)
    (hnone : ((System.start v c).run (before ++ .spawn t (.commit id) :: after)).outcome? t = none)
    (hok : ((System.start v c).run (before ++ .spawn t (.commit id) :: after ++ [action])).outcome? t =
      some (.ok n)) :
    let as := before ++ .spawn t (.commit id) :: after ++ [action]
    ∃ S, (v.history c id as).kept = some S ∧
      ((v.history c id before).edits.length ≤ S.edits ∨
        ∃ a, ((System.start v c).run as).vault.account? id = some a ∧ S.account.Matches a) := by
  rw [System.run_concat] at hok
  obtain ⟨s', hs'⟩ := System.exists_step?_of_outcome? hnone hok
  have hstep := System.step_of_step? hs'
  have hhist : v.history c id (before ++ .spawn t (.commit id) :: after ++ [action]) =
      (v.history c id (before ++ .spawn t (.commit id) :: after)).note id
        ((System.start v c).run (before ++ .spawn t (.commit id) :: after)) action := by
    rw [Vault.history, System.chronicle_concat, hs']
    rfl
  intro as
  rw [hstep] at hok
  rw [System.run_concat, hstep, hhist]
  exact System.kept_of_committed (Vault.commits_run ht after) (h.sound id _) hs' hnone hok

/-- When a commit goes well, what is stored shows every edit made before it was called. -/
theorem reflects_of_committed (h : c.Opens v) {before after : List Action} {t : TaskId}
    {action : Action} {n : Nat} (ht : ((System.start v c).run before).tasks[t]? = none)
    (hnone : ((System.start v c).run (before ++ .spawn t (.commit id) :: after)).outcome? t = none)
    (hok : ((System.start v c).run (before ++ .spawn t (.commit id) :: after ++ [action])).outcome? t =
      some (.ok n)) :
    let as := before ++ .spawn t (.commit id) :: after ++ [action]
    ∃ bytes stored a later, ((System.start v c).run as).contents.record? id = some bytes ∧
      Vault.decodeAccount id bytes = .ok stored ∧
      ((System.start v c).run as).vault.account? id = some a ∧
      (v.history c id before).edits ++ later <+: (v.history c id as).edits ∧
      stored.ReflectsButBare a (((v.history c id before).edits ++ later).map (·.2)) := by
  intro as
  obtain ⟨S, hS, hcase⟩ := h.kept_of_committed ht hnone hok
  have hsound := h.sound id as
  obtain ⟨bytes, hb, hdec⟩ := hsound.decodeAccount_of_kept hS
  obtain ⟨-, -, a, ha, -, hof⟩ := hsound.kept S hS
  have hsplit : as = before ++ (.spawn t (.commit id) :: after ++ [action]) := by simp [as]
  rcases hcase with hle | ⟨b, hb', hm⟩
  · -- the snapshot was taken after the call
    obtain ⟨later, hl⟩ := v.exists_later c id before (.spawn t (.commit id) :: after ++ [action]) hle
    rw [← hsplit] at hl
    refine ⟨bytes, _, a, later, hb, hdec, ha, hl ▸ List.take_prefix .., ?_⟩
    rw [← hl]
    exact hof.reflects.butBare
  · -- there was nothing to write
    have hle := (v.edits_history c id before (.spawn t (.commit id) :: after ++ [action])).length_le
    obtain ⟨later, hl⟩ := v.exists_later c id before (.spawn t (.commit id) :: after ++ [action]) hle
    rw [← hsplit, List.take_length] at hl
    have hab : a = b := Option.some.inj (ha.symm.trans hb')
    refine ⟨bytes, _, a, later, hb, hdec, ha, hl ▸ List.prefix_rfl, ?_⟩
    rw [← hl]
    exact (hsound.logs a ha).reflects.butBare_of_matches (hab ▸ hm)

end Contents.Opens

/-- A saved account without pending changes is stored, but perhaps for bare bindings.  And when a commit
goes well, what is stored shows every edit made before it was called, but for bare bindings and where a
later edit superseded it. -/
theorem clean_is_durable {c : Contents} {options : Options} {catalog : Catalog} {v : Vault}
    (hv : c.opened options catalog = .ok v) :
    (∀ as id a, ((System.start v c).run as).vault.account? id = some a → a.state = .saved →
      a.isDirty = false → ∃ bytes r, ((System.start v c).run as).contents.record? id = some bytes ∧
        Record.decode bytes = .ok r ∧ r.Covers id a) ∧
    ∀ before after t id action n, ((System.start v c).run before).tasks[t]? = none →
      let as := before ++ .spawn t (.commit id) :: after
      let s := (System.start v c).run (as ++ [action])
      ((System.start v c).run as).outcome? t = none → s.outcome? t = some (.ok n) →
      ∃ bytes stored a later, s.contents.record? id = some bytes ∧
        Vault.decodeAccount id bytes = .ok stored ∧ s.vault.account? id = some a ∧
        (v.history c id before).edits ++ later <+: (v.history c id (as ++ [action])).edits ∧
        stored.ReflectsButBare a (((v.history c id before).edits ++ later).map (·.2)) := by
  have h := Contents.opens_of_opened hv
  exact ⟨fun as _ _ ha hs hd => h.covers_of_clean as ha hs hd,
    fun _ _ _ _ _ _ ht hnone hok => h.reflects_of_committed ht hnone hok⟩

/-- A new account is stored once it is clean; and when it was edited while it was being written, its
commit has stored the edit from before the call. -/
theorem clean_is_durable_of_new :
    (∃ bytes r a, ((System.start {} ∅).run [.create "acme", .spawn 0 (.commit 1), .run 0, .run 0,
      .run 0, .answer 0 none, .answer 0 none]).contents.record? 1 = some bytes ∧
        Record.decode bytes = .ok r ∧ r.Covers 1 a ∧ a.provider = "acme") ∧
    ∃ bytes stored a later, ((System.start {} ∅).run ([.create "acme", .edit 1 (.rename "Ada")] ++
      .spawn 0 (.commit 1) :: [.run 0, .run 0, .run 0, .answer 0 none, .edit 1 (.setEnabled true)] ++
        [.answer 0 none])).contents.record? 1 = some bytes ∧
      Vault.decodeAccount 1 bytes = .ok stored ∧ stored.ReflectsButBare a (.rename "Ada" :: later) := by
  have h := clean_is_durable (Contents.opened_empty {} {} rfl)
  constructor
  · obtain ⟨bytes, r, hb, hd, hr⟩ := h.1 [.create "acme", .spawn 0 (.commit 1), .run 0, .run 0, .run 0,
      .answer 0 none, .answer 0 none] 1 _ rfl rfl rfl
    exact ⟨bytes, r, _, hb, hd, hr, rfl⟩
  · obtain ⟨bytes, stored, a, later, hb, hd, -, -, hr⟩ := h.2 [.create "acme", .edit 1 (.rename "Ada")]
      [.run 0, .run 0, .run 0, .answer 0 none, .edit 1 (.setEnabled true)] 0 1 (.answer 0 none) 0 rfl
      rfl rfl
    have hedits : ((Vault.history {} ∅ 1 [.create "acme", .edit 1 (.rename "Ada")]).edits).map (·.2) =
      [.rename "Ada"] := rfl
    rw [List.map_append, hedits] at hr
    exact ⟨bytes, stored, a, later.map Prod.snd, hb, hd, hr⟩

end AccountVault
