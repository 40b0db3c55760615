import AccountVault.Proofs.Admission
import AccountVault.Proofs.Durability

/-!
# Ids in number

Ids are given out in order, from above everything that was listed when the vault was opened up to the
last but one.  The last id is kept back: creating is refused there and stays refused.  So a storage never
holds a record that the next opening could not go on after, and what has opened once opens again after any
sessions (`Contents.exists_opened_playsAmong`, `ids_never_run_out`).
-/

namespace AccountVault

namespace Vault

variable {v : Vault}

theorem exists_create_eq_error (h : v.nextId.toNat + 1 = UInt64.size) (provider : String) :
    ∃ e, v.create provider = .error e := by
  cases hc : v.create provider with
  | error e => exact ⟨e, rfl⟩
  | ok p =>
    obtain ⟨-, hnext, -⟩ := create_eq_ok_iff.1 hc
    omega

/-- An account of a provider that may be named so is refused exactly where only the last id is left. -/
theorem exists_create_eq_error_iff {provider : String} (hname : Name.check "provider" provider = .ok ()) :
    (∃ e, v.create provider = .error e) ↔ v.nextId.toNat + 1 = UInt64.size := by
  refine ⟨?_, fun h => exists_create_eq_error h provider⟩
  rintro ⟨e, he⟩
  have hlt : v.nextId.toNat < UInt64.size := v.nextId.toNat_lt
  by_contra hlast
  have hnext : v.nextId.toNat + 1 < UInt64.size := by omega
  have hcreate := create_eq_ok_iff.2 ⟨hname, hnext, rfl, rfl⟩
  exact absurd (he.symm.trans hcreate) (by simp)

end Vault

namespace System

variable {s : System} {a : Action} {id : AccountId}

/-- The id that an action gives out. -/
def given? (s : System) : Action → Option AccountId
  | .create provider =>
    match s.vault.create provider with
    | .ok (_, id) => some id
    | .error _ => none
  | _ => none

/-- The ids that a run gives out, in order. -/
def given (s : System) : List Action → List AccountId
  | [] => []
  | a :: as => (s.given? a).toList ++ (s.step a).given as

/-- What is given out is the next id, and there is another one after it. -/
theorem of_given? (h : s.given? a = some id) :
    id = s.vault.nextId ∧ id < (s.step a).vault.nextId := by
  cases a with
  | create provider =>
    rw [given?] at h
    cases hc : s.vault.create provider with
    | error e =>
      rw [hc] at h
      cases h
    | ok p =>
      obtain ⟨w, new⟩ := p
      rw [hc] at h
      cases h
      obtain ⟨-, hnext, rfl, rfl⟩ := Vault.create_eq_ok_iff.1 hc
      have hstep : s.step (.create provider) = { s with
          vault := { s.vault.putAccount s.vault.nextId { provider } with
            nextId := s.vault.nextId + 1 } } := by
        apply step_of_step?
        simp only [step?, hc]
        rfl
      rw [hstep]
      exact ⟨rfl, AccountId.lt_add_one hnext⟩
  | _ => cases h

/-- A run gives out ids from the next one on, and goes on above them. -/
theorem bounds_of_given (s : System) (as : List Action) :
    ∀ id ∈ s.given as, s.vault.nextId ≤ id ∧ id < (s.run as).vault.nextId := by
  induction as generalizing s with
  | nil => exact fun _ hid => absurd hid List.not_mem_nil
  | cons a as ih =>
    intro id hid
    have hstep : s.vault.nextId ≤ (s.step a).vault.nextId := nextId_le_run s [a]
    rcases List.mem_append.1 hid with hnow | hlater
    · obtain ⟨rfl, hlt⟩ := of_given? (Option.mem_toList.1 hnow)
      exact ⟨UInt64.le_refl _, UInt64.lt_of_lt_of_le hlt (nextId_le_run (s.step a) as)⟩
    · obtain ⟨hle, hlt⟩ := ih (s.step a) id hlater
      exact ⟨UInt64.le_trans hstep hle, hlt⟩

theorem pairwise_given (s : System) (as : List Action) : (s.given as).Pairwise (· < ·) := by
  induction as generalizing s with
  | nil => exact .nil
  | cons a as ih =>
    refine List.pairwise_append.2 ⟨?_, ih _, fun id hid later hlater => ?_⟩
    · cases s.given? a with
      | none => exact .nil
      | some id => exact List.pairwise_singleton ..
    · obtain ⟨-, hlt⟩ := of_given? (Option.mem_toList.1 hid)
      exact UInt64.lt_of_lt_of_le hlt (bounds_of_given (s.step a) as later hlater).1

/-- Once only the last id is left, nothing is given out any more. -/
theorem nextId_run_of_last (h : s.vault.nextId.toNat + 1 = UInt64.size) (later : List Action) :
    (s.run later).vault.nextId = s.vault.nextId := by
  have hle := UInt64.le_iff_toNat_le.1 (nextId_le_run s later)
  have hlt : (s.run later).vault.nextId.toNat < UInt64.size := (s.run later).vault.nextId.toNat_lt
  apply UInt64.toNat_inj.1
  omega

end System

namespace Contents

variable {c : Contents} {strays : List AccountId} {options : Options} {catalog : Catalog} {v : Vault}

/-! ### Storages that list more than they hold -/

/-- A storage that lists some ids beside those of its records. -/
def shelf (c : Contents) (strays : List AccountId) : Shelf := ⟨c, strays ++ c.ids⟩

theorem opens_of_shelf (hv : (c.shelf strays).opened options catalog = .ok v) : c.Opens v :=
  Shelf.opens_of_opened hv fun _ hid => List.mem_append_right strays hid

theorem opened_shelf_nil (c : Contents) (options : Options) (catalog : Catalog) :
    (c.shelf []).opened options catalog = c.opened options catalog := by
  rw [Shelf.opened_eq, opened_eq]
  rfl

/-- What a session leaves behind on such a storage; one that cannot open changes nothing. -/
def playAmong (strays : List AccountId) (c : Contents) (σ : Session) : Contents :=
  match (c.shelf strays).opened σ.options σ.catalog with
  | .ok v => ((System.start v c).run σ.actions).contents
  | .error _ => c

def playsAmong (strays : List AccountId) (c : Contents) (σs : List Session) : Contents :=
  σs.foldl (playAmong strays) c

/-- Every record is listed, so that all of them have to be readable. -/
theorem exists_shelf_opened_iff : (∃ v, (c.shelf strays).opened options catalog = .ok v) ↔
    catalog.checkKeys options.keyLimit = .ok () ∧ (∀ id, c.Readable id) ∧
      ∀ id ∈ strays ++ c.ids, id.toNat + 1 < UInt64.size := by
  rw [Shelf.exists_opened_iff_readable]
  refine and_congr_right fun _ => and_congr_left fun _ => ⟨fun h id bytes hbytes => ?_, fun h id _ => h id⟩
  have hid : id ∈ c.ids := mem_ids_iff.2 (Option.isSome_of_eq_some hbytes)
  exact h id (List.mem_append_right strays hid) bytes hbytes

/-- A storage that opens does so again after a session, whatever options and catalog that one had. -/
theorem exists_opened_playAmong (σ : Session)
    (h : ∃ v, (c.shelf strays).opened options catalog = .ok v) :
    ∃ v, ((c.playAmong strays σ).shelf strays).opened options catalog = .ok v := by
  rw [playAmong]
  split
  · next v hv =>
    have ho : c.Opens v := opens_of_shelf hv
    obtain ⟨hkeys, -, hnext⟩ := exists_shelf_opened_iff.1 h
    refine exists_shelf_opened_iff.2 ⟨hkeys, ho.readable_run σ.actions, fun id hid => ?_⟩
    rcases List.mem_append.1 hid with hstray | hid
    · exact hnext id (List.mem_append_left _ hstray)
    · exact ho.exists_next_run σ.actions hid
  · exact h

theorem exists_opened_playsAmong (σs : List Session)
    (h : ∃ v, (c.shelf strays).opened options catalog = .ok v) :
    ∃ v, ((c.playsAmong strays σs).shelf strays).opened options catalog = .ok v := by
  induction σs generalizing c with
  | nil => exact h
  | cons σ σs ih => exact ih (exists_opened_playAmong σ h)

/-- What has opened with one catalog opens with every other whose keys are short enough. -/
theorem exists_opened_of_checkKeys (h : ∃ v, (c.shelf strays).opened options catalog = .ok v)
    {options' : Options} {catalog' : Catalog} (hk : catalog'.checkKeys options'.keyLimit = .ok ()) :
    ∃ v, (c.shelf strays).opened options' catalog' = .ok v :=
  exists_shelf_opened_iff.2 ⟨hk, (exists_shelf_opened_iff.1 h).2⟩

/-- Once a storage has opened, it is never refused for want of ids. -/
theorem opened_ne_idsExhausted (h : ∃ v, (c.shelf strays).opened options catalog = .ok v)
    (options' : Options) (catalog' : Catalog) (id : AccountId) :
    (c.shelf strays).opened options' catalog' ≠ .error (.persistence (.idsExhausted id)) := by
  intro hrefused
  cases hk : catalog'.checkKeys options'.keyLimit with
  | ok u =>
    obtain ⟨v, hv⟩ := exists_opened_of_checkKeys h hk
    rw [hv] at hrefused
    cases hrefused
  | error e =>
    rw [Shelf.opened_eq, Shelf.outcome, hk] at hrefused
    cases hrefused
    unfold Catalog.checkKeys at hk
    split at hk <;> cases hk

end Contents

/-- A storage that opens is used for any sessions.  No later opening of it finds that the ids have run out.
In each session ids are given out in order, above all those that were listed when it began and below the
last one; an account of a provider that may be named so is refused exactly once only the last id is left,
and then from there on, without a change; and the stored mark is never above the next id. -/
theorem ids_never_run_out {c : Contents} {strays : List AccountId} {options : Options} {catalog : Catalog}
    {v : Vault} (hv : (c.shelf strays).opened options catalog = .ok v) (past : List Session) :
    let c' := c.playsAmong strays past
    (∀ options' catalog' id,
      (c'.shelf strays).opened options' catalog' ≠ .error (.persistence (.idsExhausted id))) ∧
    ∀ options' catalog' v', (c'.shelf strays).opened options' catalog' = .ok v' → ∀ as,
      let s := (System.start v' c').run as
      ((System.start v' c').given as).Pairwise (· < ·) ∧
      (∀ new ∈ (System.start v' c').given as,
        (∀ id ∈ (c'.shelf strays).listed, id < new) ∧ new.toNat + 1 < UInt64.size) ∧
      (∀ provider, Name.check "provider" provider = .ok () →
        ((∃ e, s.vault.create provider = .error e) ↔ s.vault.nextId.toNat + 1 = UInt64.size)) ∧
      (s.vault.nextId.toNat + 1 = UInt64.size → ∀ provider, s.step (.create provider) = s ∧
        ∀ later, (s.run later).vault.nextId = s.vault.nextId ∧
          ∃ e, (s.run later).vault.create provider = .error e) ∧
      ∀ m, s.contents.mark = some m → m ≤ s.vault.nextId := by
  intro c'
  have hopens : ∃ v, (c'.shelf strays).opened options catalog = .ok v :=
    Contents.exists_opened_playsAmong past ⟨v, hv⟩
  refine ⟨Contents.opened_ne_idsExhausted hopens, ?_⟩
  intro options' catalog' v' hv' as s
  obtain ⟨hmark, hle⟩ := Shelf.mark_of_opened hv'
  have hmarked := (Contents.opens_of_shelf hv').marked_run hmark hle as
  refine ⟨System.pairwise_given _ as, ?_, ?_, ?_, ?_⟩
  · intro new hnew
    obtain ⟨hfrom, hto⟩ := System.bounds_of_given _ as new hnew
    refine ⟨fun id hid => UInt64.lt_of_lt_of_le (Shelf.lt_nextId_of_listed hv' hid) hfrom, ?_⟩
    have hlt : new.toNat < s.vault.nextId.toNat := UInt64.lt_iff_toNat_lt.1 hto
    have hsize : s.vault.nextId.toNat < UInt64.size := s.vault.nextId.toNat_lt
    omega
  · intro provider hname
    exact Vault.exists_create_eq_error_iff hname
  · intro hlast provider
    obtain ⟨e, he⟩ := Vault.exists_create_eq_error hlast provider
    refine ⟨System.step_of_step?_eq_none ?_, fun later => ?_⟩
    · rw [System.step?, he]
      rfl
    · have hnext := System.nextId_run_of_last hlast later
      exact ⟨hnext, Vault.exists_create_eq_error (hnext ▸ hlast) provider⟩
  · intro m hm
    have hstored : s.vault.mark = m := hmarked.mark.trans (by rw [hm]; rfl)
    exact hstored ▸ hmarked.le_nextId

/-- A storage holds a record under the last id but two.  A session gives out the one after that and writes
it down; the next one can still be opened, and then only the last id is left, which is not given out. -/
theorem ids_never_run_out_of_last :
    let a : Account := { provider := "acme", state := .saved }
    let c := Contents.single 18446744073709551613 a none
    let last : Session := { actions := [.create "acme", .spawn 0 (.commit 18446744073709551614), .run 0,
      .run 0, .run 0, .answer 0 none, .answer 0 none] }
    let c' := c.playsAmong [] [last]
    (c'.record? 18446744073709551614).isSome ∧ c'.mark = some 18446744073709551615 ∧
      ∃ v', (c'.shelf []).opened {} {} = .ok v' ∧ v'.nextId.toNat + 1 = UInt64.size ∧
        ∃ e, v'.create "acme" = .error e := by
  intro a c last c'
  have ha : a.Tidy := Account.tidy_saved "acme"
  let v := Vault.ofAccounts {} {} ((∅ : Std.ExtTreeMap AccountId Account).insert 18446744073709551613 a)
    (18446744073709551613 + 1) none
  have hv : (c.shelf []).opened {} {} = .ok v :=
    (Contents.opened_shelf_nil c {} {}).trans (Contents.opened_single ha rfl (by decide) none)
  have hc' : c' = ((System.start v c).run last.actions).contents := by
    show Contents.playAmong [] c last = _
    rw [Contents.playAmong, hv]
  have hmark : c'.mark = some 18446744073709551615 := by
    rw [hc']
    decide +kernel
  have hrecord : (c'.record? 18446744073709551614).isSome := by
    rw [hc']
    decide +kernel
  obtain ⟨v', hv'⟩ := Contents.exists_opened_playsAmong [last] ⟨v, hv⟩
  have hlast : v'.nextId.toNat + 1 = UInt64.size := by
    have hgreatest : 18446744073709551615 ≤ v'.nextId.toNat :=
      (Shelf.isGreatest_nextId hv').2 (.inr (.inl (congrArg (Option.map UInt64.toNat) hmark)))
    have hsize : v'.nextId.toNat < 18446744073709551616 := v'.nextId.toNat_lt
    show v'.nextId.toNat + 1 = 18446744073709551616
    omega
  have hrefused := (ids_never_run_out hv [last]).2 {} {} v' hv' []
  exact ⟨hrecord, hmark, v', hv', hlast, (hrefused.2.2.1 "acme" (by decide +kernel)).2 hlast⟩

end AccountVault
