import AccountVault.Proofs.Sessions
import Mathlib.Data.List.Dedup
import Mathlib.Order.Bounds.Basic

/-!
# What a vault opens on

A shelf is a storage as an opening finds it: what it holds, and the ids that it lists, in any order, more
than once, or without a record.  A vault opens exactly on the shelves whose listed records are well filed
and whose listed ids all have one after them.  It then holds what those records hold and goes on above
everything that was listed; whether it opens or not, the storage has only been read
(`Shelf.opens_exactly_wellFiled`).
-/

namespace AccountVault

namespace Contents

variable {c : Contents} {ids ids' : List AccountId} {id : AccountId}

/-- Whether the record under an id, if there is one, can be read, claims that id, and holds nothing that
came from nowhere. -/
def WellFiled (c : Contents) (id : AccountId) : Prop :=
  ∀ bytes, c.record? id = some bytes → ∃ r, Record.decode bytes = .ok r ∧ r.id = id ∧ r.AllSourced

theorem exists_record_of_decodeAccount {bytes : Bytes} {a : Account} :
    Vault.decodeAccount id bytes = .ok a ↔
      ∃ r, Record.decode bytes = .ok r ∧ r.id = id ∧ r.AllSourced ∧ a = r.account := by
  unfold Vault.decodeAccount
  rw [except_bind_eq_ok_iff]
  refine exists_congr fun r => and_congr_right fun _ => ?_
  by_cases hid : r.id = id
  · simp only [hid, ne_eq, not_true, if_false, true_and]
    exact Record.toAccount_eq_ok_iff
  · simp only [hid, ne_eq, not_false_iff, if_true, false_and, iff_false]
    intro h
    cases h

theorem readable_iff_wellFiled : c.Readable id ↔ c.WellFiled id := by
  refine forall_congr' fun bytes => forall_congr' fun _ => ?_
  constructor
  · rintro ⟨a, ha⟩
    obtain ⟨r, hr, hid, hs, -⟩ := exists_record_of_decodeAccount.1 ha
    exact ⟨r, hr, hid, hs⟩
  · rintro ⟨r, hr, hid, hs⟩
    exact ⟨r.account, exists_record_of_decodeAccount.2 ⟨r, hr, hid, hs, rfl⟩⟩

/-! ### Ids in order -/

/-- Loading an account a second time right away changes nothing. -/
theorem loadFrom_repeat (id : AccountId) (ids : List AccountId)
    (accounts : Std.ExtTreeMap AccountId Account) :
    c.loadFrom (id :: id :: ids) accounts = c.loadFrom (id :: ids) accounts := by
  have hins : ∀ a : Account, (accounts.insert id a).insert id a = accounts.insert id a := by
    intro a
    ext i : 1
    simp only [Std.ExtTreeMap.getElem?_insert]
    split <;> rfl
  cases hr : c.record? id with
  | none => exact loadFrom_cons_of_none hr (id :: ids) accounts
  | some bytes =>
    rw [loadFrom_cons_of_some hr, loadFrom_cons_of_some hr]
    cases hd : Vault.decodeAccount id bytes with
    | error e => rfl
    | ok a =>
      show c.loadFrom (id :: ids) (accounts.insert id a) = c.loadFrom ids (accounts.insert id a)
      rw [loadFrom_cons_of_some hr, hd]
      exact congrArg _ (hins a)

/-- What is loaded of ids in order does not tell how often they occur. -/
theorem loadFrom_dedup (hs : ids.Pairwise (· ≤ ·)) (accounts : Std.ExtTreeMap AccountId Account) :
    c.loadFrom ids.dedup accounts = c.loadFrom ids accounts := by
  induction ids generalizing accounts with
  | nil => rfl
  | cons id ids ih =>
    obtain ⟨hle, hs⟩ := List.pairwise_cons.1 hs
    by_cases hmem : id ∈ ids
    · rw [List.dedup_cons_of_mem hmem, ih hs]
      -- the ids are in order, so that another `id` comes next
      cases ids with
      | nil => exact absurd hmem List.not_mem_nil
      | cons next ids =>
        have hback : next ≤ id := by
          rcases List.mem_cons.1 hmem with rfl | hlater
          · exact UInt64.le_refl _
          · exact List.rel_of_pairwise_cons hs hlater
        obtain rfl : id = next := UInt64.le_antisymm (hle next List.mem_cons_self) hback
        exact (loadFrom_repeat id ids accounts).symm
    · rw [List.dedup_cons_of_notMem hmem]
      cases hr : c.record? id with
      | none => rw [loadFrom_cons_of_none hr, loadFrom_cons_of_none hr, ih hs]
      | some bytes => simp only [loadFrom_cons_of_some hr, ih hs]

/-- Two lists in order that name the same ids are the same once repeats are left out. -/
theorem dedup_eq_of_mem_iff (hs : ids.Pairwise (· ≤ ·)) (hs' : ids'.Pairwise (· ≤ ·))
    (h : ∀ id, id ∈ ids ↔ id ∈ ids') : ids.dedup = ids'.dedup := by
  have hperm : ids.dedup.Perm ids'.dedup := by
    refine (List.perm_ext_iff_of_nodup (List.nodup_dedup _) (List.nodup_dedup _)).2 fun id => ?_
    rw [List.mem_dedup, List.mem_dedup, h]
  exact hperm.eq_of_pairwise (fun _ _ _ _ hij hji => UInt64.le_antisymm hij hji)
    (hs.sublist (List.dedup_sublist _)) (hs'.sublist (List.dedup_sublist _))

/-! ### The first id that is free -/

theorem getLast?_dedup (ids : List AccountId) : ids.dedup.getLast? = ids.getLast? := by
  induction ids with
  | nil => rfl
  | cons id ids ih =>
    by_cases hmem : id ∈ ids
    · rw [List.dedup_cons_of_mem hmem, ih, List.getLast?_cons]
      cases hlast : ids.getLast? with
      | none => exact absurd (List.getLast?_eq_none_iff.1 hlast ▸ hmem) List.not_mem_nil
      | some last => rfl
    · rw [List.dedup_cons_of_notMem hmem, List.getLast?_cons, List.getLast?_cons, ih]

theorem idAfter_dedup (ids : List AccountId) : Vault.idAfter ids.dedup = Vault.idAfter ids := by
  unfold Vault.idAfter
  rw [getLast?_dedup]

/-- The first free id is 1, or follows the highest of some ids. -/
theorem isGreatest_idAfter {free : AccountId} (hs : ids.Pairwise (· ≤ ·))
    (h : Vault.idAfter ids = .ok free) :
    IsGreatest {n | n = 1 ∨ ∃ id ∈ ids, n = id.toNat + 1} free.toNat := by
  cases ids using List.reverseRecOn with
  | nil =>
    cases h
    refine ⟨.inl rfl, ?_⟩
    rintro n (rfl | ⟨id, hid, -⟩)
    · exact Nat.le_refl _
    · exact absurd hid List.not_mem_nil
  | append_singleton ids last =>
    rw [idAfter_concat] at h
    split at h
    · cases h
      rw [AccountId.toNat_add_one ‹_›]
      refine ⟨.inr ⟨last, by simp, rfl⟩, ?_⟩
      rintro n (rfl | ⟨id, hid, rfl⟩)
      · omega
      · have hle := UInt64.le_iff_toNat_le.1 (le_of_mem_concat hs hid)
        omega
    · cases h

end Contents

/-- A storage as an opening finds it: what it holds, and the ids that it lists, in any order, more than
once, or without a record. -/
structure Shelf where
  contents : Contents
  listed : List AccountId

namespace Shelf

/-- A storage that answers every request at once and lists certain ids; what it is asked is put down. -/
def ask (listed : List AccountId) (r : Request) :
    StateM (Contents × List Request) (Except Fault Reply) := fun (c, asked) =>
  let reply := match r with
    | .list => .ids listed
    | r => (c.serve r).2
  (.ok reply, (c.serve r).1, asked ++ [r])

/-- An opening on a shelf: its outcome, what it leaves there, and what it has asked for. -/
def attempt (s : Shelf) (options : Options) (catalog : Catalog) :
    Except Problem Vault × Contents × List Request :=
  (Vault.opening (ask s.listed) options catalog).run (s.contents, [])

def opened (s : Shelf) (options : Options) (catalog : Catalog) : Except Problem Vault :=
  (s.attempt options catalog).1

/-! ### An opening only reads -/

variable {s : Shelf} {options : Options} {catalog : Catalog} {v : Vault}

/-- The listed ids as an opening goes through them. -/
def sorted (s : Shelf) : List AccountId := s.listed.mergeSort (· ≤ ·)

theorem mem_sorted {id : AccountId} : id ∈ s.sorted ↔ id ∈ s.listed := List.mem_mergeSort

theorem pairwise_sorted (s : Shelf) : s.sorted.Pairwise (· ≤ ·) :=
  AccountId.pairwise_mergeSort s.listed

/-- The outcome of an opening, from what the shelf holds and lists. -/
def outcome (s : Shelf) (options : Options) (catalog : Catalog) : Except Problem Vault := do
  catalog.checkKeys options.keyLimit
  let accounts ← s.contents.loadFrom s.sorted ∅
  let free ← Vault.idAfter s.sorted
  return Vault.ofAccounts options catalog accounts free s.contents.mark

/-- Some contents are still there, and no write has been asked for. -/
def Unwritten (c : Contents) (s : Contents × List Request) : Prop :=
  s.1 = c ∧ ∀ r ∈ s.2, r.isWrite = false

theorem Unwritten.asked {c : Contents} {asked : List Request} (h : Unwritten c (c, asked)) {r : Request}
    (hr : r.isWrite = false) : Unwritten c (c, asked ++ [r]) := by
  refine ⟨rfl, fun q hq => ?_⟩
  rcases List.mem_append.1 hq with hq | hq
  · exact h.2 q hq
  · rw [List.mem_singleton.1 hq]
    exact hr

theorem readsLike_ask (s : Shelf) : ReadsLike (ask s.listed) (Unwritten s.contents) s.listed s.contents where
  list := by
    rintro ⟨_, asked⟩ ⟨rfl, h⟩
    exact ⟨_, rfl, Unwritten.asked ⟨rfl, h⟩ rfl⟩
  load id := by
    rintro ⟨_, asked⟩ ⟨rfl, h⟩
    exact ⟨_, rfl, Unwritten.asked ⟨rfl, h⟩ rfl⟩
  loadMark := by
    rintro ⟨_, asked⟩ ⟨rfl, h⟩
    exact ⟨_, rfl, Unwritten.asked ⟨rfl, h⟩ rfl⟩

/-- Whether it succeeds or not, an opening leaves everything as it was. -/
theorem attempt_eq (s : Shelf) (options : Options) (catalog : Catalog) :
    ∃ reads, s.attempt options catalog = (s.outcome options catalog, s.contents, reads) ∧
      ∀ r ∈ reads, r.isWrite = false := by
  obtain ⟨⟨c, reads⟩, hrun, rfl, hreads⟩ :=
    s.readsLike_ask.opening options catalog (s.contents, []) ⟨rfl, by simp⟩
  exact ⟨reads, hrun, hreads⟩

theorem opened_eq (s : Shelf) (options : Options) (catalog : Catalog) :
    s.opened options catalog = s.outcome options catalog := by
  obtain ⟨reads, hrun, -⟩ := attempt_eq s options catalog
  rw [opened, hrun]

/-! ### The shelves that a vault opens on -/

theorem opened_eq_ok_iff : s.opened options catalog = .ok v ↔
    catalog.checkKeys options.keyLimit = .ok () ∧ ∃ accounts free,
      s.contents.loadFrom s.sorted ∅ = .ok accounts ∧ Vault.idAfter s.sorted = .ok free ∧
        v = Vault.ofAccounts options catalog accounts free s.contents.mark := by
  simp only [opened_eq, outcome, except_bind_eq_ok_iff]
  constructor
  · rintro ⟨_, hkeys, accounts, hload, free, hfree, hv⟩
    exact ⟨hkeys, accounts, free, hload, hfree, (Except.ok.inj hv).symm⟩
  · rintro ⟨hkeys, accounts, free, hload, hfree, rfl⟩
    exact ⟨(), hkeys, accounts, hload, free, hfree, rfl⟩

theorem exists_opened_iff_readable : (∃ v, s.opened options catalog = .ok v) ↔
    catalog.checkKeys options.keyLimit = .ok () ∧
    (∀ id ∈ s.listed, s.contents.Readable id) ∧ ∀ id ∈ s.listed, id.toNat + 1 < UInt64.size := by
  have hload : (∃ accounts, s.contents.loadFrom s.sorted ∅ = .ok accounts) ↔
      ∀ id ∈ s.listed, s.contents.Readable id := by
    constructor
    · rintro ⟨accounts, h⟩ id hid
      exact Contents.readable_of_loadFrom h id (mem_sorted.2 hid)
    · intro h
      obtain ⟨accounts, hload, -⟩ :=
        Contents.loadFrom_of_readable (fun id hid => h id (mem_sorted.1 hid)) ∅
      exact ⟨accounts, hload⟩
  have hfree : (∃ free, Vault.idAfter s.sorted = .ok free) ↔
      ∀ id ∈ s.listed, id.toNat + 1 < UInt64.size := by
    rw [Contents.exists_idAfter_iff s.pairwise_sorted]
    exact forall_congr' fun id => imp_congr_left mem_sorted
  rw [← hload, ← hfree]
  simp only [opened_eq_ok_iff]
  constructor
  · rintro ⟨v, hk, accounts, free, hl, hf, -⟩
    exact ⟨hk, ⟨accounts, hl⟩, free, hf⟩
  · rintro ⟨hk, ⟨accounts, hl⟩, free, hf⟩
    exact ⟨_, hk, accounts, free, hl, hf, rfl⟩

theorem exists_opened_iff : (∃ v, s.opened options catalog = .ok v) ↔
    (∀ key, catalog.Declares key → Key.check key options.keyLimit = .ok ()) ∧
    (∀ id ∈ s.listed, s.contents.WellFiled id) ∧ ∀ id ∈ s.listed, id.toNat + 1 < UInt64.size := by
  rw [exists_opened_iff_readable, Catalog.checkKeys_eq_ok_iff]
  simp only [Catalog.mem_declaredKeys_iff, Contents.readable_iff_wellFiled]

/-! ### The vault that is opened -/

/-- The accounts that are loaded are those of the listed records. -/
theorem getElem?_of_loadFrom {accounts : Std.ExtTreeMap AccountId Account}
    (h : s.contents.loadFrom s.sorted ∅ = .ok accounts) (id : AccountId) :
    accounts[id]? = if id ∈ s.listed then s.contents.loaded? id else none := by
  obtain ⟨loaded, hload, hget⟩ :=
    Contents.loadFrom_of_readable (Contents.readable_of_loadFrom h) ∅
  obtain rfl := Except.ok.inj (h.symm.trans hload)
  simp only [hget, mem_sorted, Std.ExtTreeMap.getElem?_empty, Option.or_none]

theorem account?_of_opened (hv : s.opened options catalog = .ok v) {id : AccountId} {a : Account} :
    v.account? id = some a ↔ id ∈ s.listed ∧ ∃ bytes r, s.contents.record? id = some bytes ∧
      Record.decode bytes = .ok r ∧ a = r.account := by
  obtain ⟨-, accounts, free, hload, -, rfl⟩ := opened_eq_ok_iff.1 hv
  show accounts[id]? = some a ↔ _
  rw [getElem?_of_loadFrom hload]
  by_cases hid : id ∈ s.listed
  · have hfiled : s.contents.WellFiled id := (exists_opened_iff.1 ⟨_, hv⟩).2.1 id hid
    rw [if_pos hid, Contents.loaded?_eq_some_iff]
    simp only [hid, true_and, Contents.exists_record_of_decodeAccount]
    constructor
    · rintro ⟨bytes, hbytes, r, hr, -, -, rfl⟩
      exact ⟨bytes, r, hbytes, hr, rfl⟩
    · rintro ⟨bytes, r, hbytes, hr, rfl⟩
      obtain ⟨r', hr', hclaims, hsourced⟩ := hfiled bytes hbytes
      obtain rfl := Except.ok.inj (hr.symm.trans hr')
      exact ⟨bytes, hbytes, r, hr, hclaims, hsourced, rfl⟩
  · simp [hid]

theorem finds_of_opened (hv : s.opened options catalog = .ok v) (id : AccountId) :
    v.finds id = (v.account? id).isSome := by
  obtain ⟨-, accounts, free, -, -, rfl⟩ := opened_eq_ok_iff.1 hv
  exact Contents.finds_ofAccounts ..

theorem isGreatest_nextId (hv : s.opened options catalog = .ok v) :
    IsGreatest {n | n = 1 ∨ s.contents.mark.map UInt64.toNat = some n ∨
      ∃ id ∈ s.listed, n = id.toNat + 1} v.nextId.toNat := by
  obtain ⟨-, accounts, free, -, hfree, rfl⟩ := opened_eq_ok_iff.1 hv
  have hlisted : IsGreatest {n | n = 1 ∨ ∃ id ∈ s.listed, n = id.toNat + 1} free.toNat := by
    simpa only [mem_sorted] using Contents.isGreatest_idAfter s.pairwise_sorted hfree
  show IsGreatest _ (max (s.contents.mark.getD 0) free).toNat
  rw [AccountId.toNat_max]
  cases s.contents.mark with
  | none => simpa using hlisted
  | some m =>
    have hset : {n | n = 1 ∨ (some m).map UInt64.toNat = some n ∨ ∃ id ∈ s.listed, n = id.toNat + 1} =
        {m.toNat} ∪ {n | n = 1 ∨ ∃ id ∈ s.listed, n = id.toNat + 1} := by
      ext n
      simp only [Option.map_some, Option.some.injEq, Set.mem_union, Set.mem_singleton_iff,
        Set.mem_ofPred_eq, or_left_comm, eq_comm]
    rw [hset]
    exact isGreatest_singleton.union hlisted

theorem lt_nextId_of_listed (hv : s.opened options catalog = .ok v) {id : AccountId}
    (hid : id ∈ s.listed) : id < v.nextId := by
  have hle : id.toNat + 1 ≤ v.nextId.toNat := (isGreatest_nextId hv).2 (.inr (.inr ⟨id, hid, rfl⟩))
  exact UInt64.lt_iff_toNat_lt.2 hle

theorem mark_of_opened (hv : s.opened options catalog = .ok v) :
    v.mark = s.contents.mark.getD 0 ∧ v.mark ≤ v.nextId := by
  obtain ⟨-, accounts, free, -, -, rfl⟩ := opened_eq_ok_iff.1 hv
  exact ⟨rfl, (Contents.le_nextId_ofAccounts ..).2⟩

/-- A vault that is opened where everything that is held is listed. -/
theorem opens_of_opened (hv : s.opened options catalog = .ok v)
    (hall : ∀ id ∈ s.contents.ids, id ∈ s.listed) : s.contents.Opens v := by
  obtain ⟨-, accounts, free, hload, hfree, rfl⟩ := opened_eq_ok_iff.1 hv
  refine Contents.opens_ofAccounts (fun id => ?_) (fun id => ?_) (fun id hid => ?_) ..
  · intro bytes hbytes
    have hid : id ∈ s.contents.ids := Contents.mem_ids_iff.2 (Option.isSome_of_eq_some hbytes)
    exact Contents.readable_of_loadFrom hload id (mem_sorted.2 (hall id hid)) bytes hbytes
  · rw [getElem?_of_loadFrom hload]
    split
    · rfl
    · exact (Contents.loaded?_eq_none fun hid => ‹id ∉ s.listed› (hall id hid)).symm
  · exact Contents.lt_of_idAfter s.pairwise_sorted hfree id (mem_sorted.2 (hall id hid))

/-- Neither the order nor the repetition of what is listed makes a difference. -/
theorem opened_congr {s' : Shelf} (hc : s'.contents = s.contents)
    (hl : ∀ id, id ∈ s'.listed ↔ id ∈ s.listed) (options : Options) (catalog : Catalog) :
    s'.opened options catalog = s.opened options catalog := by
  have hdedup : s'.sorted.dedup = s.sorted.dedup :=
    Contents.dedup_eq_of_mem_iff s'.pairwise_sorted s.pairwise_sorted fun id => by
      rw [mem_sorted, mem_sorted, hl]
  have hload : s'.contents.loadFrom s'.sorted ∅ = s.contents.loadFrom s.sorted ∅ := by
    rw [← Contents.loadFrom_dedup s'.pairwise_sorted, hdedup, hc,
      Contents.loadFrom_dedup s.pairwise_sorted]
  have hfree : Vault.idAfter s'.sorted = Vault.idAfter s.sorted := by
    rw [← Contents.idAfter_dedup, hdedup, Contents.idAfter_dedup]
  rw [opened_eq, opened_eq, outcome, outcome, hload, hfree, hc]

end Shelf

/-- A vault opens on a shelf exactly if every declared key is accepted, every listed record can be read,
claims the id it is listed under and holds nothing that came from nowhere, and no listed id is the last one.
It then holds the accounts of the listed records, saved and without changes, and goes on with the first id
that is above all listed ones and not below the mark.  In any case the shelf has only been read, and all
that counts of its list is which ids are on it. -/
theorem opens_exactly_wellFiled (s : Shelf) (options : Options) (catalog : Catalog) :
    ((∃ v, s.opened options catalog = .ok v) ↔
      (∀ key, catalog.Declares key → Key.check key options.keyLimit = .ok ()) ∧
      (∀ id ∈ s.listed, s.contents.WellFiled id) ∧ ∀ id ∈ s.listed, id.toNat + 1 < UInt64.size) ∧
    (∀ v, s.opened options catalog = .ok v →
      (∀ id a, v.account? id = some a ↔ id ∈ s.listed ∧ ∃ bytes r,
        s.contents.record? id = some bytes ∧ Record.decode bytes = .ok r ∧ a = r.account) ∧
      (∀ id, v.finds id = (v.account? id).isSome) ∧
      (∀ id a, v.account? id = some a → a.state = .saved ∧ a.isDirty = false) ∧
      IsGreatest {n | n = 1 ∨ s.contents.mark.map UInt64.toNat = some n ∨
        ∃ id ∈ s.listed, n = id.toNat + 1} v.nextId.toNat) ∧
    (∃ reads, s.attempt options catalog = (s.opened options catalog, s.contents, reads) ∧
      ∀ r ∈ reads, r.isWrite = false) ∧
    ∀ s' : Shelf, s'.contents = s.contents → (∀ id, id ∈ s'.listed ↔ id ∈ s.listed) →
      s'.opened options catalog = s.opened options catalog := by
  refine ⟨Shelf.exists_opened_iff, fun v hv => ⟨?_, ?_, ?_, ?_⟩, ?_, ?_⟩
  · intro id a
    exact Shelf.account?_of_opened hv
  · exact Shelf.finds_of_opened hv
  · intro id a ha
    obtain ⟨-, bytes, r, -, -, rfl⟩ := (Shelf.account?_of_opened hv).1 ha
    exact ⟨rfl, rfl⟩
  · exact Shelf.isGreatest_nextId hv
  · rw [Shelf.opened_eq]
    exact Shelf.attempt_eq s options catalog
  · intro s' hc hl
    exact Shelf.opened_congr hc hl options catalog

/-- One record is listed twice, out of order and beside an id without a record, under a mark above them
all.  The same record does not open where the last id is listed with it. -/
theorem opens_exactly_wellFiled_of_disorder :
    let a : Account := { provider := "acme", state := .saved }
    let s : Shelf := ⟨Contents.single 3 a (some 9), [5, 3, 3]⟩
    (∃ v, s.opened {} {} = .ok v ∧ v.account? 3 = some a ∧ v.account? 5 = none ∧ v.nextId = 9) ∧
      ¬ ∃ v, ({ s with listed := [3, 18446744073709551615] } : Shelf).opened {} {} = .ok v := by
  intro a s
  have ha : a.Tidy := Account.tidy_saved "acme"
  have hrecord : s.contents.record? 3 = some (Record.ofAccount 3 a).encode :=
    Std.ExtTreeMap.getElem?_insert_self
  have hnone : s.contents.record? 5 = none := by
    show ((∅ : Std.ExtTreeMap AccountId Bytes).insert 3 _)[(5 : AccountId)]? = none
    simp
  have hlisted : ∀ id, id ∈ s.listed ↔ id = 5 ∨ id = 3 := by
    intro id
    simp [s]
  have hfiled : ∀ id ∈ s.listed, s.contents.WellFiled id := by
    intro id hid bytes hbytes
    rcases (hlisted id).1 hid with rfl | rfl
    · exact absurd (hnone.symm.trans hbytes) (by simp)
    · obtain rfl := Option.some.inj (hrecord.symm.trans hbytes)
      exact ⟨_, Record.decode_encode _, rfl, Record.allSourced_ofAccount 3 a⟩
  have hnext : ∀ id ∈ s.listed, id.toNat + 1 < UInt64.size := by
    intro id hid
    rcases (hlisted id).1 hid with rfl | rfl <;> decide
  have hkeys : ∀ key, ({} : Catalog).Declares key → Key.check key ({} : Options).keyLimit = .ok () :=
    fun key hkey => absurd (Catalog.mem_declaredKeys_iff.2 hkey) List.not_mem_nil
  obtain ⟨hopens, hholds, -⟩ := opens_exactly_wellFiled s {} {}
  obtain ⟨v, hv⟩ := hopens.2 ⟨hkeys, hfiled, hnext⟩
  obtain ⟨haccounts, -, -, hmem, hupper⟩ := hholds v hv
  refine ⟨⟨v, hv, ?_, ?_, ?_⟩, fun h => ?_⟩
  · refine (haccounts 3 a).2 ⟨(hlisted 3).2 (.inr rfl), _, _, hrecord, Record.decode_encode _, ?_⟩
    exact (Record.account_ofAccount ha 3).symm
  · refine Option.eq_none_iff_forall_ne_some.2 fun b hb => ?_
    obtain ⟨-, bytes, -, hbytes, -⟩ := (haccounts 5 b).1 hb
    exact absurd (hnone.symm.trans hbytes) (by simp)
  · have hle : 9 ≤ v.nextId.toNat := hupper (.inr (.inl rfl))
    have hge : v.nextId.toNat ≤ 9 := by
      rcases hmem with h | h | ⟨id, hid, h⟩
      · omega
      · exact Nat.le_of_eq (Option.some.inj h).symm
      · rcases (hlisted id).1 hid with rfl | rfl <;> exact h ▸ by decide
    exact UInt64.toNat_inj.1 (Nat.le_antisymm hge hle)
  · have hlast := ((opens_exactly_wellFiled { s with listed := [3, 18446744073709551615] } {} {}).1.1 h).2.2
    exact absurd (hlast 18446744073709551615 (by simp)) (by decide)

end AccountVault
