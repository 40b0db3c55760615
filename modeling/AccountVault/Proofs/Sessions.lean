import AccountVault.Proofs.Catalog.Declared
import AccountVault.Proofs.Mark

/-!
# Ids over sessions

A storage is opened, used and left again, any number of times.  No id under which it has held a record is
given out again, as long as the records that it held in the beginning are below its mark
(`ids_are_never_reused`): the mark is above every record that a session adds.  A record that came
without a mark has no such protection once it is removed (`id_reused_without_mark`).
-/

namespace AccountVault

/-- What is done from one opening of a storage to the next. -/
structure Session where
  options : Options := {}
  catalog : Catalog := {}
  actions : List Action := []

namespace Contents

/-- What a session leaves behind; one that cannot open changes nothing. -/
def play (c : Contents) (σ : Session) : Contents :=
  match c.opened σ.options σ.catalog with
  | .ok v => ((System.start v c).run σ.actions).contents
  | .error _ => c

def plays (c : Contents) (σs : List Session) : Contents := σs.foldl play c

/-- The mark is above an id. -/
def Guards (c : Contents) (id : AccountId) : Prop := id < c.mark.getD 0

/-- If there is a record under an id, the mark is above it. -/
def Guarded (c : Contents) (id : AccountId) : Prop := (c.record? id).isSome → c.Guards id

end Contents

namespace Vault

theorem create_eq_ok_iff {v w : Vault} {provider : String} {id : AccountId} :
    v.create provider = .ok (w, id) ↔
      Name.check "provider" provider = .ok () ∧ v.nextId.toNat + 1 < UInt64.size ∧ id = v.nextId ∧
        w = { v.putAccount v.nextId { provider } with nextId := v.nextId + 1 } := by
  unfold create
  rw [except_bind_eq_ok_iff]
  constructor
  · rintro ⟨_, hname, h⟩
    split at h
    · cases h
      exact ⟨hname, ‹_›, rfl, rfl⟩
    · cases h
  · rintro ⟨hname, hid, rfl, rfl⟩
    exact ⟨(), hname, if_pos hid⟩

theorem create_id {v v' : Vault} {provider : String} {id : AccountId}
    (h : v.create provider = .ok (v', id)) : id = v.nextId :=
  (create_eq_ok_iff.1 h).2.2.1

end Vault

namespace System

variable {s : System} {id : AccountId}

/-- The id of a record is not given out any more. -/
theorem Sound.lt_nextId (h : s.Sound) (hid : (s.contents.record? id).isSome) :
    id < s.vault.nextId := by
  obtain ⟨a, ha, -⟩ := h.isSome_record?_iff.1 hid
  exact h.orderly.fresh id (by rw [ha]; rfl)

end System

namespace Contents

variable {c : Contents} {options : Options} {catalog : Catalog} {v : Vault} {id : AccountId}

/-! ### What a session keeps -/

/-- An id below the mark stays below it. -/
theorem Guards.append (hv : c.opened options catalog = .ok v) {before : List Action}
    (h : ((System.start v c).run before).contents.Guards id) (after : List Action) :
    ((System.start v c).run (before ++ after)).contents.Guards id := by
  have hle := mark_le_run hv before after
  rw [(marked_run hv before).mark, (marked_run hv (before ++ after)).mark] at hle
  exact UInt64.lt_of_lt_of_le h hle

theorem Guards.run (hv : c.opened options catalog = .ok v) (h : c.Guards id) (as : List Action) :
    ((System.start v c).run as).contents.Guards id := by
  have hstart : ((System.start v c).run []).contents.Guards id := h
  exact hstart.append hv as

theorem Guards.play (h : c.Guards id) (σ : Session) : (c.play σ).Guards id := by
  rw [Contents.play]
  split
  · exact h.run ‹_› σ.actions
  · exact h

theorem Guards.plays (h : c.Guards id) (σs : List Session) : (c.plays σs).Guards id := by
  induction σs generalizing c with
  | nil => exact h
  | cons σ σs ih => exact ih (h.play σ)

/-- The records that a session adds are below the mark, and so are those that it found there, if they
were so before. -/
theorem Guarded.run (hv : c.opened options catalog = .ok v) (h : c.Guarded id)
    (as : List Action) : ((System.start v c).run as).contents.Guarded id := by
  intro hid
  have ho := opens_of_opened hv
  obtain ⟨a, ha, hs⟩ := (ho.sound_start_run as).isSome_record?_iff.1 hid
  cases hl : v.account? id with
  | some b =>
    -- it was loaded from a record
    have hload : c.loaded? id = some b := (ho.account? id).symm.trans hl
    obtain ⟨bytes, hb, -⟩ := loaded?_eq_some_iff.1 hload
    have hrecord : (c.record? id).isSome := by
      rw [hb]
      rfl
    exact (h hrecord).run hv as
  | none =>
    have hmarked := marked_run hv as
    have hlt := hmarked.saved id a ha hs (by simp [hl])
    rw [hmarked.mark] at hlt
    exact hlt

theorem Guarded.play (h : c.Guarded id) (σ : Session) : (c.play σ).Guarded id := by
  rw [Contents.play]
  split
  · exact h.run ‹_› σ.actions
  · exact h

theorem Guarded.plays (h : c.Guarded id) (σs : List Session) : (c.plays σs).Guarded id := by
  induction σs generalizing c with
  | nil => exact h
  | cons σ σs ih => exact ih (h.play σ)

/-- A vault that is opened under a mark gives out no id below it. -/
theorem Guards.ne_of_create (hv : c.opened options catalog = .ok v) (h : c.Guards id)
    (as : List Action) {provider : String} {w : Vault} {new : AccountId}
    (hw : ((System.start v c).run as).vault.create provider = .ok (w, new)) : new ≠ id := by
  obtain ⟨hmark, hle⟩ := mark_of_opened hv
  have hlt : id < v.nextId := by
    rw [Guards, ← hmark] at h
    exact UInt64.lt_of_lt_of_le h hle
  have hrun : v.nextId ≤ ((System.start v c).run as).vault.nextId :=
    System.nextId_le_run (System.start v c) as
  rintro rfl
  rw [← Vault.create_id hw] at hrun
  exact UInt64.lt_irrefl _ (UInt64.lt_of_lt_of_le hlt hrun)

end Contents

/-- Sessions are played on a storage, and in the last of them it holds a record under an id.  This id is
not given out any more in that session; and if any record that was there under it in the beginning was
below the mark, it is given out in no later session either, whatever has become of the record. -/
theorem ids_are_never_reused {c : Contents} {past : List Session} {options : Options}
    {catalog : Catalog} {v : Vault} (hv : (c.plays past).opened options catalog = .ok v)
    {before : List Action} {id : AccountId}
    (hid : (((System.start v (c.plays past)).run before).contents.record? id).isSome) :
    (∀ after provider w new, ((System.start v (c.plays past)).run (before ++ after)).vault.create
      provider = .ok (w, new) → new ≠ id) ∧
    (c.Guarded id → ∀ after between options' catalog' v' as provider w new,
      let c' := ((System.start v (c.plays past)).run (before ++ after)).contents.plays between
      c'.opened options' catalog' = .ok v' →
      ((System.start v' c').run as).vault.create provider = .ok (w, new) → new ≠ id) := by
  have hsound := (Contents.opens_of_opened hv).sound_start_run before
  refine ⟨?_, ?_⟩
  · intro after provider w new hw
    have hlt := hsound.lt_nextId hid
    have hle := System.nextId_le_run ((System.start v (c.plays past)).run before) after
    rw [← System.run_append] at hle
    rintro rfl
    rw [← Vault.create_id hw] at hle
    exact UInt64.lt_irrefl _ (UInt64.lt_of_lt_of_le hlt hle)
  · intro hguard after between options' catalog' v' as provider w new c' hv' hw
    have hguards : ((System.start v (c.plays past)).run before).contents.Guards id :=
      (hguard.plays past).run hv before hid
    exact ((hguards.append hv after).plays between).ne_of_create hv' as hw

/-! ### A storage with one record -/

theorem Account.tidy_saved (provider : String) : ({ provider, state := .saved } : Account).Tidy :=
  ⟨(tidy_new provider).settings, (tidy_new provider).bindings⟩

namespace Contents

/-- A storage that holds one account. -/
def single (id : AccountId) (a : Account) (mark : Option AccountId) : Contents :=
  { records := (∅ : Std.ExtTreeMap AccountId Bytes).insert id (Record.ofAccount id a).encode, mark }

theorem ids_single (id : AccountId) (a : Account) (mark : Option AccountId) :
    (single id a mark).ids = [id] := by
  have hlength : (single id a mark).ids.length = 1 := by
    rw [ids, Std.ExtTreeMap.length_keys, single, Std.ExtTreeMap.size_insert]
    simp
  obtain ⟨i, hi⟩ := List.length_eq_one_iff.1 hlength
  have hmem : id ∈ (single id a mark).ids := Std.ExtTreeMap.mem_keys.2 Std.ExtTreeMap.mem_insert_self
  rw [hi, List.mem_singleton] at hmem
  rw [hi, hmem]

/-- It opens with that account, whatever options and catalog agree with each other. -/
theorem opened_single_of_checkKeys {options : Options} {catalog : Catalog}
    (hk : catalog.checkKeys options.keyLimit = .ok ()) {id : AccountId} {a : Account} (ht : a.Tidy)
    (hset : a.settled = a) (hid : id.toNat + 1 < UInt64.size) (mark : Option AccountId) :
    (single id a mark).opened options catalog = .ok (Vault.ofAccounts options catalog
      ((∅ : Std.ExtTreeMap AccountId Account).insert id a) (id + 1) mark) := by
  have hrecord : (single id a mark).record? id = some (Record.ofAccount id a).encode :=
    Std.ExtTreeMap.getElem?_insert_self
  have hdecode : Vault.decodeAccount id (Record.ofAccount id a).encode = .ok a :=
    decodeAccount_eq_ok_iff.2 ⟨Record.decode_encode _, ht, hset⟩
  have hload : (single id a mark).loadFrom [id] ∅ =
      .ok ((∅ : Std.ExtTreeMap AccountId Account).insert id a) := by
    rw [loadFrom, hrecord]
    simp only [hdecode]
    rfl
  have hfree : Vault.idAfter [id] = .ok (id + 1) := by
    rw [Vault.idAfter, List.getLast?_singleton]
    exact if_pos hid
  rw [opened_eq, ids_single, List.mergeSort_singleton, hk, hload, hfree]
  rfl

theorem opened_single {id : AccountId} {a : Account} (ht : a.Tidy) (hset : a.settled = a)
    (hid : id.toNat + 1 < UInt64.size) (mark : Option AccountId) :
    (single id a mark).opened {} {} =
      .ok (Vault.ofAccounts {} {} ((∅ : Std.ExtTreeMap AccountId Account).insert id a) (id + 1) mark) :=
  opened_single_of_checkKeys rfl ht hset hid mark

/-- Once the record is gone, only the mark is left to go by. -/
theorem opened_bare (mark : Option AccountId) :
    ({ mark } : Contents).opened {} {} = .ok (Vault.ofAccounts {} {} ∅ 1 mark) := by
  have hids : ({ mark } : Contents).ids.mergeSort (· ≤ ·) = [] := by
    rw [show ({ mark } : Contents).ids = [] from rfl, List.mergeSort_nil]
  have hkeys : ({} : Catalog).checkKeys ({} : Options).keyLimit = .ok () := rfl
  rw [opened_eq, hids, hkeys]
  rfl

end Contents

/-- A session commits an account, the next one deletes it, and the one after that gives out another
id. -/
theorem ids_are_never_reused_after_removal :
    let first : Session := { actions := [.create "acme", .spawn 0 (.commit 1), .run 0, .run 0, .run 0,
      .answer 0 none, .answer 0 none] }
    let removal : List Action := [.spawn 0 (.delete 1), .run 0, .run 0, .answer 0 none]
    let c := Contents.plays ∅ [first]
    ∃ v v' w new, c.opened {} {} = .ok v ∧ (c.record? 1).isSome ∧
      ((System.start v c).run removal).contents.record? 1 = none ∧
      ((System.start v c).run removal).contents.opened {} {} = .ok v' ∧
      v'.create "acme" = .ok (w, new) ∧ new ≠ 1 := by
  intro first removal c
  let a : Account := { provider := "acme", state := .saved }
  have ha : a.Tidy := Account.tidy_saved "acme"
  have hc : c = Contents.single 1 a (some 2) := by
    show (match (∅ : Contents).opened {} {} with
      | .ok v => ((System.start v ∅).run first.actions).contents
      | .error _ => ∅) = _
    rw [Contents.opened_empty {} {} rfl]
    decide +kernel
  let v := Vault.ofAccounts {} {} ((∅ : Std.ExtTreeMap AccountId Account).insert 1 a) (1 + 1) (some 2)
  have hv : c.opened {} {} = .ok v := by
    rw [hc]
    exact Contents.opened_single ha rfl (by decide) (some 2)
  have hid : (c.record? 1).isSome := by
    rw [hc]
    decide +kernel
  have hleft : ((System.start v c).run removal).contents = { mark := some 2 } := by
    rw [hc]
    decide +kernel
  have hv' : ((System.start v c).run removal).contents.opened {} {} =
      .ok (Vault.ofAccounts {} {} ∅ 1 (some 2)) := by
    rw [hleft]
    exact Contents.opened_bare (some 2)
  have hw : (Vault.ofAccounts {} {} ∅ 1 (some 2)).create "acme" = .ok (_, 2) := rfl
  have hguarded : (∅ : Contents).Guarded 1 := fun h => absurd h (by decide)
  have hid' : (((System.start v (Contents.plays ∅ [first])).run []).contents.record? 1).isSome := hid
  have hnew := (ids_are_never_reused hv hid').2 hguarded removal [] {} {} _ [] "acme" _ 2 hv' hw
  exact ⟨v, _, _, 2, hv, hid, by rw [hleft]; rfl, hv', hw, hnew⟩

/-- A storage holds a record and no mark.  A session deletes the account, and the next one gives out its
id. -/
theorem id_reused_without_mark :
    let c := Contents.single 1 { provider := "acme", state := .saved } none
    let removal : List Action := [.spawn 0 (.delete 1), .run 0, .run 0, .answer 0 none]
    ∃ v v' w, c.opened {} {} = .ok v ∧ (c.record? 1).isSome ∧
      ((System.start v c).run removal).outcome? 0 = some (.ok 0) ∧
      ((System.start v c).run removal).contents.opened {} {} = .ok v' ∧
      v'.create "acme" = .ok (w, 1) := by
  intro c removal
  let a : Account := { provider := "acme", state := .saved }
  have ha : a.Tidy := Account.tidy_saved "acme"
  let v := Vault.ofAccounts {} {} ((∅ : Std.ExtTreeMap AccountId Account).insert 1 a) (1 + 1) none
  have hv : c.opened {} {} = .ok v := Contents.opened_single ha rfl (by decide) none
  have hleft : ((System.start v c).run removal).contents = { mark := none } := by decide +kernel
  have hv' : ((System.start v c).run removal).contents.opened {} {} =
      .ok (Vault.ofAccounts {} {} ∅ 1 none) := by
    rw [hleft]
    exact Contents.opened_bare none
  exact ⟨v, _, _, hv, by decide +kernel, by decide +kernel, hv', rfl⟩

end AccountVault
