import AccountVault.Proofs.Record.RoundTrip
import AccountVault.Proofs.System.Turns
import AccountVault.Storage.Contents
import AccountVault.Vault.Opening

/-!
# Opening a vault on contents

A vault can be opened on the contents of a storage that answers every request exactly if every record can
be read and there are ids left; the vault then holds what the records hold.  Main statements:
`Contents.opened_eq_ok` and `Contents.opens_of_opened`.
-/

namespace AccountVault

namespace Contents

/-- A storage that answers every request at once. -/
def ask (r : Request) : StateM Contents (Except Fault Reply) := fun c =>
  (.ok (c.serve r).2, (c.serve r).1)

/-- The vault that is opened on some contents. -/
def opened (c : Contents) (options : Options) (catalog : Catalog) : Except Problem Vault :=
  ((Vault.opening ask options catalog).run c).1

/-- Loading, for a storage that does not change meanwhile. -/
def loadFrom (c : Contents) :
    List AccountId → Std.ExtTreeMap AccountId Account →
      Except Problem (Std.ExtTreeMap AccountId Account)
  | [], accounts => .ok accounts
  | id :: ids, accounts =>
    match c.record? id with
    | none => loadFrom c ids accounts
    | some bytes => do
      let a ← Vault.decodeAccount id bytes
      loadFrom c ids (accounts.insert id a)

theorem loadFrom_cons_of_none {c : Contents} {id : AccountId} (hr : c.record? id = none)
    (ids : List AccountId) (accounts : Std.ExtTreeMap AccountId Account) :
    c.loadFrom (id :: ids) accounts = c.loadFrom ids accounts := by
  rw [loadFrom, hr]

theorem loadFrom_cons_of_some {c : Contents} {id : AccountId} {bytes : Bytes}
    (hr : c.record? id = some bytes) (ids : List AccountId)
    (accounts : Std.ExtTreeMap AccountId Account) :
    c.loadFrom (id :: ids) accounts =
      (Vault.decodeAccount id bytes).bind fun a => c.loadFrom ids (accounts.insert id a) := by
  rw [loadFrom, hr]
  rfl

end Contents

/-! ### Programs that only read -/

section

variable {σ α β : Type} {Q : σ → Prop} {x : ExceptT Problem (StateM σ) α} {r : Except Problem α}
  {ask : Request → StateM σ (Except Fault Reply)} {listed : List AccountId} {c : Contents}

/-- Wherever `Q` holds, a program has a certain result, and `Q` holds again afterwards. -/
def Yields (Q : σ → Prop) (x : ExceptT Problem (StateM σ) α) (r : Except Problem α) : Prop :=
  ∀ s, Q s → ∃ s', x.run s = (r, s') ∧ Q s'

theorem Yields.pure (a : α) : Yields Q (pure a) (.ok a) := fun s hs => ⟨s, rfl, hs⟩

theorem Yields.lift (r : Except Problem α) : Yields Q (liftM r) r := by
  intro s hs
  cases r <;> exact ⟨s, rfl, hs⟩

theorem Yields.bind {f : α → ExceptT Problem (StateM σ) β} {g : α → Except Problem β}
    (hx : Yields Q x r) (hf : ∀ a, r = .ok a → Yields Q (f a) (g a)) : Yields Q (x >>= f) (r >>= g) := by
  intro s hs
  obtain ⟨s', hrun, hs'⟩ := hx s hs
  have hbind : (x >>= f).run s = ExceptT.bindCont f (x.run s).1 (x.run s).2 := rfl
  rw [hbind, hrun]
  cases r with
  | error e => exact ⟨s', rfl, hs'⟩
  | ok a => exact hf a rfl s' hs'

/-- What goes on after a result that is known. -/
theorem Yields.andThen {f : α → ExceptT Problem (StateM σ) β} {a : α} {r : Except Problem β}
    (hx : Yields Q x (.ok a)) (hf : Yields Q (f a) r) : Yields Q (x >>= f) r := by
  have hnext : ∀ b, Except.ok a = (.ok b : Except Problem α) → Yields Q (f b) r := by
    rintro b ⟨⟩
    exact hf
  exact hx.bind hnext

/-- A storage that lists certain ids and is read like some contents. -/
structure ReadsLike (ask : Request → StateM σ (Except Fault Reply)) (Q : σ → Prop)
    (listed : List AccountId) (c : Contents) : Prop where
  list : Yields Q (Vault.request ask .list) (.ok (.ids listed))
  load : ∀ id, Yields Q (Vault.request ask (.load id)) (.ok (.record (c.record? id)))
  loadMark : Yields Q (Vault.request ask .loadMark) (.ok (.mark c.mark))

namespace ReadsLike

theorem loadAccounts (h : ReadsLike ask Q listed c) (ids : List AccountId)
    (accounts : Std.ExtTreeMap AccountId Account) :
    Yields Q (Vault.loadAccounts ask ids accounts) (c.loadFrom ids accounts) := by
  induction ids generalizing accounts with
  | nil => exact .pure accounts
  | cons id ids ih =>
    refine (h.load id).andThen ?_
    rw [Reply.record?]
    cases hr : c.record? id with
    | none =>
      rw [Contents.loadFrom_cons_of_none hr]
      exact ih accounts
    | some bytes =>
      rw [Contents.loadFrom_cons_of_some hr]
      exact (Yields.lift _).bind fun a _ => ih (accounts.insert id a)

theorem opening (h : ReadsLike ask Q listed c) (options : Options) (catalog : Catalog) :
    Yields Q (Vault.opening ask options catalog) (do
      catalog.checkKeys options.keyLimit
      let accounts ← c.loadFrom (listed.mergeSort (· ≤ ·)) ∅
      let free ← Vault.idAfter (listed.mergeSort (· ≤ ·))
      return Vault.ofAccounts options catalog accounts free c.mark) := by
  refine (Yields.lift (catalog.checkKeys options.keyLimit)).bind fun _ _ => ?_
  refine h.list.andThen ?_
  refine (h.loadAccounts (listed.mergeSort (· ≤ ·)) ∅).bind fun accounts _ => ?_
  refine (Yields.lift (Vault.idAfter (listed.mergeSort (· ≤ ·)))).bind fun free _ => ?_
  exact h.loadMark.andThen (.pure _)

end ReadsLike

end

namespace Contents

/-- Opening reads, and changes nothing. -/
theorem readsLike_ask (c : Contents) : ReadsLike ask (· = c) c.ids c where
  list := by
    rintro _ rfl
    exact ⟨_, rfl, rfl⟩
  load id := by
    rintro _ rfl
    exact ⟨_, rfl, rfl⟩
  loadMark := by
    rintro _ rfl
    exact ⟨_, rfl, rfl⟩

theorem opened_eq (c : Contents) (options : Options) (catalog : Catalog) :
    c.opened options catalog = (do
      catalog.checkKeys options.keyLimit
      let accounts ← c.loadFrom (c.ids.mergeSort (· ≤ ·)) ∅
      let free ← Vault.idAfter (c.ids.mergeSort (· ≤ ·))
      return Vault.ofAccounts options catalog accounts free c.mark) := by
  obtain ⟨_, hrun, -⟩ := c.readsLike_ask.opening options catalog c rfl
  rw [opened, hrun]

/-- An empty storage opens with every catalog whose keys are short enough. -/
theorem opened_empty (options : Options) (catalog : Catalog)
    (h : catalog.checkKeys options.keyLimit = .ok ()) :
    (∅ : Contents).opened options catalog = .ok { options, catalog } := by
  have hids : (∅ : Contents).ids.mergeSort (· ≤ ·) = [] := by
    rw [show (∅ : Contents).ids = [] from rfl, List.mergeSort_nil]
  rw [opened_eq, h, hids]
  rfl

/-! ### What is loaded -/

/-- Whether the record under an id, if there is one, can be read. -/
def Readable (c : Contents) (id : AccountId) : Prop :=
  ∀ bytes, c.record? id = some bytes → ∃ a, Vault.decodeAccount id bytes = .ok a

/-- The account that the record under an id holds. -/
def loaded? (c : Contents) (id : AccountId) : Option Account :=
  (c.record? id).bind fun bytes => (Vault.decodeAccount id bytes).toOption

theorem readable_of_loadFrom {c : Contents} {ids : List AccountId}
    {accounts loaded : Std.ExtTreeMap AccountId Account}
    (h : c.loadFrom ids accounts = .ok loaded) : ∀ id ∈ ids, c.Readable id := by
  induction ids generalizing accounts with
  | nil => exact fun _ hid => absurd hid List.not_mem_nil
  | cons id ids ih =>
    rw [loadFrom] at h
    cases hr : c.record? id with
    | none =>
      simp only [hr] at h
      exact List.forall_mem_cons.2 ⟨fun bytes hb => absurd (hr.symm.trans hb) (by simp), ih h⟩
    | some bytes =>
      simp only [hr] at h
      cases hd : Vault.decodeAccount id bytes with
      | error e => rw [hd] at h; exact absurd h (by simp [bind, Except.bind])
      | ok a =>
        rw [hd] at h
        refine List.forall_mem_cons.2 ⟨fun bytes' hb => ⟨a, ?_⟩, ih h⟩
        obtain rfl := Option.some.inj (hr.symm.trans hb)
        exact hd

theorem loadFrom_of_readable {c : Contents} {ids : List AccountId} (h : ∀ id ∈ ids, c.Readable id)
    (accounts : Std.ExtTreeMap AccountId Account) : ∃ loaded, c.loadFrom ids accounts = .ok loaded ∧
      ∀ id : AccountId, loaded[id]? =
        (if id ∈ ids then c.loaded? id else none).or accounts[id]? := by
  induction ids generalizing accounts with
  | nil => exact ⟨accounts, rfl, fun id => by simp⟩
  | cons id ids ih =>
    obtain ⟨hid, hids⟩ := List.forall_mem_cons.1 h
    rw [loadFrom]
    cases hr : c.record? id with
    | none =>
      obtain ⟨loaded, hl, hget⟩ := ih hids accounts
      refine ⟨loaded, hl, fun other => ?_⟩
      rw [hget]
      by_cases ho : other = id
      · subst other
        simp [loaded?, hr]
      · simp [ho]
    | some bytes =>
      obtain ⟨a, hd⟩ := hid bytes hr
      obtain ⟨loaded, hl, hget⟩ := ih hids (accounts.insert id a)
      refine ⟨loaded, by simp only [hd]; exact hl, fun other => ?_⟩
      rw [hget, Std.ExtTreeMap.getElem?_insert]
      by_cases ho : other = id
      · subst other
        have hload : c.loaded? id = some a := by simp [loaded?, hr, hd, Except.toOption]
        rw [hload]
        by_cases hmem : id ∈ ids <;> simp [hmem]
      · simp [ho, Ne.symm ho]

/-! ### Opening -/

theorem idAfter_concat (ids : List AccountId) (last : AccountId) :
    Vault.idAfter (ids ++ [last]) =
      if last.toNat + 1 < UInt64.size then .ok (last + 1)
      else .error (.persistence (.idsExhausted last)) := by
  rw [Vault.idAfter, List.getLast?_concat]

theorem le_of_mem_concat {ids : List AccountId} {last id : AccountId}
    (hs : (ids ++ [last]).Pairwise (· ≤ ·)) (hid : id ∈ ids ++ [last]) : id ≤ last := by
  rcases List.mem_append.1 hid with hid | hid
  · exact (List.pairwise_append.1 hs).2.2 id hid last (List.mem_singleton.2 rfl)
  · exact UInt64.le_of_eq (List.mem_singleton.1 hid)

/-- There is an id after some ids in order exactly if there is one after each of them. -/
theorem exists_idAfter_iff {ids : List AccountId} (hs : ids.Pairwise (· ≤ ·)) :
    (∃ free, Vault.idAfter ids = .ok free) ↔ ∀ id ∈ ids, id.toNat + 1 < UInt64.size := by
  cases ids using List.reverseRecOn with
  | nil => simp [Vault.idAfter]
  | append_singleton ids last =>
    rw [idAfter_concat]
    constructor
    · intro h id hid
      have hlast : last.toNat + 1 < UInt64.size := by
        by_contra hn
        simp [hn] at h
      have hle := UInt64.le_iff_toNat_le.1 (le_of_mem_concat hs hid)
      omega
    · intro h
      exact ⟨last + 1, if_pos (h last (by simp))⟩

theorem lt_of_idAfter {ids : List AccountId} {free : AccountId} (hs : ids.Pairwise (· ≤ ·))
    (h : Vault.idAfter ids = .ok free) : ∀ id ∈ ids, id < free := by
  intro id hid
  cases ids using List.reverseRecOn with
  | nil => exact absurd hid List.not_mem_nil
  | append_singleton ids last =>
    rw [idAfter_concat] at h
    split at h
    · cases h
      have hle := UInt64.le_iff_toNat_le.1 (le_of_mem_concat hs hid)
      rw [UInt64.lt_iff_toNat_lt, AccountId.toNat_add_one ‹_›]
      omega
    · cases h

/-- A vault as it is right after it was opened on some contents. -/
structure Opens (c : Contents) (v : Vault) : Prop where
  readable : ∀ id, c.Readable id
  account? : ∀ id, v.account? id = c.loaded? id
  finds : ∀ id, v.finds id = (c.loaded? id).isSome
  fresh : v.Fresh
  turns : v.turns = {}
  board : v.board = {}

theorem loaded?_eq_none {c : Contents} {id : AccountId} (h : id ∉ c.ids) : c.loaded? id = none := by
  rw [mem_ids_iff, Option.not_isSome_iff_eq_none] at h
  rw [loaded?, h]
  rfl

theorem finds_ofAccounts (options : Options) (catalog : Catalog)
    (accounts : Std.ExtTreeMap AccountId Account) (free : AccountId) (mark : Option AccountId)
    (id : AccountId) :
    (Vault.ofAccounts options catalog accounts free mark).finds id = accounts[id]?.isSome := by
  rw [Vault.finds, Vault.ofAccounts, ← Std.ExtTreeMap.contains_eq_isSome_getElem?,
    Std.ExtTreeSet.contains_ofList, ← Std.ExtTreeMap.contains_keys]

/-- The vault goes on with an id that is free and not below the mark. -/
theorem le_nextId_ofAccounts (options : Options) (catalog : Catalog)
    (accounts : Std.ExtTreeMap AccountId Account) (free : AccountId) (mark : Option AccountId) :
    free ≤ (Vault.ofAccounts options catalog accounts free mark).nextId ∧
      mark.getD 0 ≤ (Vault.ofAccounts options catalog accounts free mark).nextId := by
  show free ≤ (if mark.getD 0 ≤ free then free else mark.getD 0) ∧
    mark.getD 0 ≤ if mark.getD 0 ≤ free then free else mark.getD 0
  split
  · exact ⟨UInt64.le_refl _, ‹_›⟩
  · exact ⟨UInt64.le_of_lt (UInt64.not_le.1 ‹_›), UInt64.le_refl _⟩

/-- The vault that holds what all the records hold, and goes on after their ids. -/
theorem opens_ofAccounts {c : Contents} {accounts : Std.ExtTreeMap AccountId Account}
    {free : AccountId} (hr : ∀ id, c.Readable id)
    (haccounts : ∀ id : AccountId, accounts[id]? = c.loaded? id)
    (hfree : ∀ id ∈ c.ids, id < free) (options : Options) (catalog : Catalog) (mark : Option AccountId) :
    c.Opens (Vault.ofAccounts options catalog accounts free mark) := by
  refine ⟨hr, haccounts, fun id => ?_, fun id hid => ?_, rfl, rfl⟩
  · rw [finds_ofAccounts, haccounts]
  · have hmem : id ∈ c.ids := by
      refine Decidable.byContradiction fun hn => ?_
      have hid' : accounts[id]?.isSome := hid
      rw [haccounts, loaded?_eq_none hn] at hid'
      exact absurd hid' (by simp)
    exact UInt64.lt_of_lt_of_le (hfree id hmem) (le_nextId_ofAccounts ..).1

theorem opens_of_opened {c : Contents} {options : Options} {catalog : Catalog} {v : Vault}
    (h : c.opened options catalog = .ok v) : c.Opens v := by
  rw [opened_eq] at h
  cases hk : catalog.checkKeys options.keyLimit with
  | error e => rw [hk] at h; exact absurd h (by simp [bind, Except.bind])
  | ok u =>
    cases hl : c.loadFrom (c.ids.mergeSort (· ≤ ·)) ∅ with
    | error e => rw [hk, hl] at h; exact absurd h (by simp [bind, Except.bind])
    | ok accounts =>
      cases hf : Vault.idAfter (c.ids.mergeSort (· ≤ ·)) with
      | error e => rw [hk, hl, hf] at h; exact absurd h (by simp [bind, Except.bind])
      | ok free =>
        rw [hk, hl, hf] at h
        cases h
        have hr := readable_of_loadFrom hl
        obtain ⟨loaded, hl', hget⟩ := loadFrom_of_readable hr ∅
        obtain rfl := Except.ok.inj (hl.symm.trans hl')
        refine opens_ofAccounts (fun id bytes hb => ?_) (fun id => ?_) (fun id hid => ?_) ..
        · refine hr id (List.mem_mergeSort.2 (mem_ids_iff.2 ?_)) bytes hb
          rw [hb]
          rfl
        · rw [hget]
          by_cases hid : id ∈ c.ids
          · simp [hid]
          · simp [hid, loaded?_eq_none hid]
        · exact lt_of_idAfter (AccountId.pairwise_mergeSort _) hf id (List.mem_mergeSort.2 hid)

/-- A vault can be opened if every record can be read and there are ids left. -/
theorem opened_eq_ok {c : Contents} {options : Options} {catalog : Catalog}
    (hk : catalog.checkKeys options.keyLimit = .ok ()) (hr : ∀ id, c.Readable id)
    (hid : ∀ id ∈ c.ids, id.toNat + 1 < UInt64.size) : ∃ v, c.opened options catalog = .ok v := by
  obtain ⟨accounts, hl, -⟩ := loadFrom_of_readable
    (fun id (_ : id ∈ c.ids.mergeSort (· ≤ ·)) => hr id) ∅
  obtain ⟨free, hf⟩ := (exists_idAfter_iff (AccountId.pairwise_mergeSort c.ids)).2
    fun id hmem => hid id (List.mem_mergeSort.1 hmem)
  rw [opened_eq, hk, hl, hf]
  exact ⟨_, rfl⟩

/-! ### What the records hold -/

/-- An account is loaded from the bytes of its own record, and from no others. -/
theorem decodeAccount_eq_ok_iff {id : AccountId} {bytes : Bytes} {a : Account} :
    Vault.decodeAccount id bytes = .ok a ↔
      Record.decode bytes = .ok (.ofAccount id a) ∧ a.Tidy ∧ a.settled = a := by
  constructor
  · intro h
    rw [Vault.decodeAccount] at h
    cases hd : Record.decode bytes with
    | error e => rw [hd] at h; exact absurd h (by simp [bind, Except.bind])
    | ok r =>
      by_cases hid : r.id = id
      · simp only [hd, hid, bind, Except.bind, ne_eq, not_true, if_false] at h
        obtain ⟨hs, rfl⟩ := Record.toAccount_eq_ok_iff.1 h
        refine ⟨?_, Record.tidy_account hs, rfl⟩
        rw [← hid, Record.ofAccount_account hs]
      · simp only [hd, bind, Except.bind, ne_eq, hid, not_false_iff, if_true] at h
        exact absurd h (by simp [throw, throwThe, MonadExceptOf.throw])
  · rintro ⟨hd, ht, hs⟩
    rw [Vault.decodeAccount, hd]
    simp only [bind, Except.bind, Record.ofAccount, ne_eq, not_true, if_false]
    exact (Record.toAccount_ofAccount ht id).trans (congrArg _ hs)

theorem loaded?_eq_some_iff {c : Contents} {id : AccountId} {a : Account} :
    c.loaded? id = some a ↔
      ∃ bytes, c.record? id = some bytes ∧ Vault.decodeAccount id bytes = .ok a := by
  rw [loaded?, Option.bind_eq_some_iff]
  refine exists_congr fun bytes => and_congr_right fun _ => ?_
  cases Vault.decodeAccount id bytes <;> simp [Except.toOption]

end Contents

end AccountVault
