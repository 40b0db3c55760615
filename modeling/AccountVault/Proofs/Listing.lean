import AccountVault.Proofs.Record.Reached
import AccountVault.Proofs.Scope.Merged
import AccountVault.Proofs.Sessions
import AccountVault.Proofs.Stale
import AccountVault.Proofs.System.Frames

/-!
# Listed keys

Edits, overrides and the catalog bring accepted keys only, so that under a refused key an account holds
what the record it was loaded from holds, and no more (`System.Screens`).  A key that is listed is then
accepted, or comes from that record; such a key stays listed, and can be neither resolved nor removed.
Main statement: `listed_keys_are_accepted`.
-/

namespace AccountVault

/-- Whether the record that an account is loaded from holds a key at a scope. -/
def Contents.Holds (c : Contents) (id : AccountId) (scope : Scope) (key : String) : Prop :=
  ∃ a, c.loaded? id = some a ∧ (a.stored? scope key).isSome = true

/-! ### What an edit writes -/

theorem Edit.check_key {e : Edit} {scope : Scope} {key : String} {limit : Nat}
    (hslot : e.slot = .cell scope key) (he : e.check limit = .ok ()) :
    Key.check key limit = .ok () := by
  cases e with
  | write scope' key' value source =>
    cases hslot
    rw [Edit.check, except_bind_eq_ok_iff] at he
    obtain ⟨u, hkey, -⟩ := he
    exact hkey
  | remove scope' key' =>
    cases hslot
    exact he
  | _ => exact absurd hslot (by simp [Edit.slot])

theorem Vault.check_of_edit {v : Vault} {id : AccountId} {e : Edit} {r : Vault × Bool}
    (h : v.edit id e = .ok r) : e.check v.options.keyLimit = .ok () := by
  rw [edit] at h
  cases ha : v.account? id with
  | none =>
    rw [ha] at h
    exact absurd h (by simp)
  | some a =>
    rw [ha, except_bind_eq_ok_iff] at h
    obtain ⟨r, he, -⟩ := h
    exact (Account.exists_edit_iff.1 ⟨r, he⟩).1

/-- The raw cell that an account holds at a scope. -/
def Vault.cell? (v : Vault) (id : AccountId) (scope : Scope) (key : String) : Option Cell :=
  (v.account? id).bind (·.stored? scope key)

theorem Vault.SameData.cell?_eq {v v' : Vault} (h : v.SameData v') (id : AccountId) (scope : Scope)
    (key : String) : v'.cell? id scope key = v.cell? id scope key := by
  have hsettled : ∀ w : Vault, w.cell? id scope key =
      ((w.account? id).map Account.settled).bind (·.stored? scope key) := by
    intro w
    rw [cell?]
    cases w.account? id with
    | none => rfl
    | some a => cases scope <;> rfl
  rw [hsettled, hsettled, h.accounts]

/-! ### Along a run -/

namespace System

variable {c : Contents} {limit : Nat} {s s' : System} {a : Action}

/-- Under a key that is refused nothing is forced, and an account holds what its record holds. -/
structure Screens (c : Contents) (limit : Nat) (s : System) : Prop where
  options : s.vault.options.keyLimit = limit
  overrides : ∀ service key, Key.check key limit ≠ .ok () →
    s.vault.overrides.get? service key = none
  cells : ∀ id scope key, Key.check key limit ≠ .ok () →
    s.vault.cell? id scope key = (c.loaded? id).bind (·.stored? scope key)

namespace Screens

theorem congr (h : s.Screens c limit) (hoptions : s'.vault.options = s.vault.options)
    (hoverrides : s'.vault.overrides = s.vault.overrides)
    (hcells : ∀ id scope key, s'.vault.cell? id scope key = s.vault.cell? id scope key) :
    s'.Screens c limit := by
  refine ⟨hoptions ▸ h.options, fun service key hkey => ?_, fun id scope key hkey => ?_⟩
  · rw [hoverrides]
    exact h.overrides service key hkey
  · rw [hcells]
    exact h.cells id scope key hkey

theorem step (h : s.Screens c limit) (hsound : s.Sound) (hs : s.step? a = some s') :
    s'.Screens c limit := by
  cases a with
  | run | answer =>
    have hdata := sameData_of_task? hs rfl
    exact h.congr hdata.options hdata.overrides hdata.cell?_eq
  | spawn t op =>
    cases stepped hs with
    | quiet hq => exact absurd hq (by simp [Action.isQuiet])
    | spawn => exact h.congr rfl rfl fun _ _ _ => rfl
  | subscribe | unsubscribe | dispatch | cancel =>
    cases hs
    exact h.congr rfl rfl fun _ _ _ => rfl
  | create provider =>
    cases stepped hs with
    | quiet hq => exact absurd hq (by simp [Action.isQuiet])
    | create _ hn =>
      refine h.congr rfl rfl fun id scope key => ?_
      have hget : Vault.account? { s.vault.putAccount s.vault.nextId { provider } with
          nextId := s.vault.nextId + 1 } id = _ := Vault.account?_putAccount ..
      rw [Vault.cell?, Vault.cell?, hget]
      split
      · -- there was no account under this id, and the new one has no settings
        subst id
        have hnone : s.vault.account? s.vault.nextId = none := by
          rw [← Option.not_isSome_iff_eq_none]
          exact fun hsome => absurd (hsound.orderly.fresh _ hsome) (UInt64.lt_irrefl _)
        rw [hnone]
        cases scope <;> simp [Account.stored?, Account.settingsOf]
      · rfl
  | edit id e =>
    have hcheck : e.check limit = .ok () := by
      cases hv : s.vault.edit id e with
      | error p =>
        rw [step?, hv] at hs
        exact absurd hs (by simp [accept, Except.map])
      | ok r => exact h.options ▸ Vault.check_of_edit hv
    cases stepped hs with
    | quiet hq => exact absurd hq (by simp [Action.isQuiet])
    | @edit _ _ b b' hb _ he =>
      refine ⟨h.options, h.overrides, fun i scope key hkey => ?_⟩
      rw [← h.cells i scope key hkey, Vault.cell?, Vault.account?_putAccount, Vault.cell?]
      split
      · subst i
        rw [hb]
        exact he.stored?_eq fun hslot => hkey (Edit.check_key hslot hcheck)
      · rfl
  | setOverride service key value =>
    obtain ⟨hkey, rfl⟩ := eq_of_setOverride hs
    refine ⟨h.options, fun other key' hkey' => ?_, h.cells⟩
    rw [Overrides.get?, Overrides.table_set]
    split
    · have hne : key ≠ key' := by
        rintro rfl
        exact hkey' (h.options ▸ hkey)
      rw [Table.get?_set, if_neg hne]
      exact h.overrides service key' hkey'
    · exact h.overrides other key' hkey'
  | clearOverride service key =>
    cases hs
    refine ⟨h.options, fun other key' hkey' => ?_, h.cells⟩
    rw [Overrides.get?, Vault.clearOverride, Overrides.table_clear]
    split
    · rw [Table.get?_erase]
      split
      · rfl
      · exact h.overrides service key' hkey'
    · exact h.overrides other key' hkey'

theorem run (h : s.Screens c limit) (hsound : s.Sound) (as : List Action) :
    (s.run as).Screens c limit :=
  (run_induction (P := fun s => s.Sound ∧ s.Screens c limit)
    (fun _ _ _ h hs => ⟨h.1.step hs, h.2.step h.1 hs⟩) ⟨hsound, h⟩ as).2

end Screens

end System

theorem Contents.screens_run {c : Contents} {options : Options} {catalog : Catalog} {v : Vault}
    (hv : c.opened options catalog = .ok v) (as : List Action) :
    ((System.start v c).run as).Screens c options.keyLimit := by
  have h := opens_of_opened hv
  obtain ⟨hoptions, -, hoverrides⟩ := shared_of_opened hv
  have hstart : (System.start v c).Screens c options.keyLimit := by
    refine ⟨congrArg Options.keyLimit hoptions, fun service key _ => ?_, fun id scope key _ => ?_⟩
    · show v.overrides.get? service key = none
      rw [hoverrides]
      rfl
    · show (v.account? id).bind _ = _
      rw [h.account?]
  exact hstart.run (h.sound_start_run []) as

/-! ### What is listed -/

namespace Catalog

variable {c : Catalog} {key : String}

theorem mem_declaredKeys_of_provider {name : String}
    (h : key ∈ ((c.provider? name).map (·.defaults.keys)).getD []) : key ∈ c.declaredKeys := by
  refine mem_declaredKeys_iff.2 (.inr (.inl ⟨name, ?_⟩))
  unfold providerDefault?
  cases hp : c.provider? name with
  | none => simp [hp] at h
  | some p =>
    rw [hp] at h
    exact Table.mem_keys_iff.1 h

theorem mem_declaredKeys_of_template {service : String}
    (h : key ∈ ((c.template? service).map (·.defaults.keys)).getD []) : key ∈ c.declaredKeys := by
  refine mem_declaredKeys_iff.2 (.inr (.inr ⟨service, ?_⟩))
  unfold serviceDefault?
  cases ht : c.template? service with
  | none => simp [ht] at h
  | some t =>
    rw [ht] at h
    exact Table.mem_keys_iff.1 h

end Catalog

namespace Layers

variable {l : Layers} {scope : Scope} {key : String} {limit : Nat}

/-- A key that some layer defines is accepted, or the account itself holds it. -/
theorem check_or_stored_of_mem_definedKeys (hcatalog : l.catalog.checkKeys limit = .ok ())
    (hforced : ∀ service key, Key.check key limit ≠ .ok () → l.forced? service key = none)
    (hkey : key ∈ l.definedKeys scope) :
    Key.check key limit = .ok () ∨ (l.account.stored? .account key).isSome = true ∨
      (l.account.stored? scope key).isSome = true := by
  have hdeclared : key ∈ l.catalog.declaredKeys → Key.check key limit = .ok () :=
    Catalog.checkKeys_eq_ok_iff.1 hcatalog key
  have haccount : key ∈ l.definedKeys .account →
      Key.check key limit = .ok () ∨ (l.account.stored? .account key).isSome = true := by
    intro h
    rcases List.mem_append.1 h with h | h
    · rcases List.mem_append.1 h with h | h
      · exact Or.inl (hdeclared (List.mem_append_left _ (List.mem_append_left _ h)))
      · exact Or.inl (hdeclared (Catalog.mem_declaredKeys_of_provider h))
    · exact Or.inr (Table.mem_keys_iff.1 h)
  cases scope with
  | account => exact (haccount hkey).imp_right Or.inl
  | service name =>
    rcases List.mem_append.1 hkey with h | h
    · rcases List.mem_append.1 h with h | h
      · rcases List.mem_append.1 h with h | h
        · exact (haccount h).imp_right Or.inl
        · exact Or.inl (hdeclared (Catalog.mem_declaredKeys_of_template h))
      · exact Or.inr (Or.inr (Table.mem_keys_iff.1 h))
    · by_contra hrefused
      rw [not_or] at hrefused
      have hnone : (l.overrides.table name).get? key = none := hforced name key hrefused.1
      rw [Table.mem_keys_iff, hnone] at h
      simp at h

theorem mem_definedKeys_of_stored (h : (l.account.stored? scope key).isSome = true) :
    key ∈ l.definedKeys scope := by
  have hmem : key ∈ (l.account.settingsOf scope).keys := Table.mem_keys_iff.2 h
  cases scope with
  | account => exact List.mem_append_right _ hmem
  | service name => exact List.mem_append_left _ (List.mem_append_right _ hmem)

/-- Where the account holds a key under which nothing is forced, there is a cell to be seen. -/
theorem isSet_lookup_of_stored (ha : l.account.Tidy)
    (hforced : ∀ service, l.forced? service key = none)
    (hstored : (l.account.stored? .account key).isSome = true ∨
      (l.account.stored? scope key).isSome = true) : (l.lookup scope key).isSet = true := by
  have hset : ∀ {scope cell}, l.account.stored? scope key = some cell → cell.isSet = true :=
    fun h => ha.isSet_of_stored? h
  cases scope with
  | account =>
    obtain ⟨rest, hrest⟩ : ∃ rest, l.candidates .account key =
        [l.account.stored? .account key] ++ rest := ⟨_, rfl⟩
    rw [lookup, hrest]
    refine isSet_findSome? _ (fun cell hcell => hset (List.mem_singleton.1 hcell).symm) ?_
    obtain ⟨cell, hcell⟩ := Option.isSome_iff_exists.1 (hstored.elim id id)
    exact ⟨cell, by simp [hcell]⟩
  | service name =>
    -- what the account and the service hold comes before all that is declared
    obtain ⟨rest, hrest⟩ : ∃ rest, l.candidates (.service name) key =
        [l.forced? name key, (l.account.stored? (.service name) key).filter isStrong,
          l.account.stored? .account key, l.account.stored? (.service name) key] ++ rest := ⟨_, rfl⟩
    rw [lookup, hrest]
    refine isSet_findSome? _ (fun cell hcell => ?_) ?_
    · rw [hforced] at hcell
      rcases List.mem_cons.1 hcell with h | hcell
      · exact absurd h (by simp)
      rcases List.mem_cons.1 hcell with h | hcell
      · exact hset (Option.filter_eq_some_iff.1 h.symm).1
      rcases List.mem_cons.1 hcell with h | hcell
      · exact hset h.symm
      · exact hset (List.mem_singleton.1 hcell).symm
    · rcases hstored with h | h
      all_goals
        obtain ⟨cell, hcell⟩ := Option.isSome_iff_exists.1 h
        exact ⟨cell, by simp [hcell]⟩

end Layers

/-! ### What resolving and removing answer -/

theorem Layers.resolve_ne_invalid (l : Layers) (scope : Scope) (key : String) (t : ValueType)
    (fallback : t.Carrier) (cause : Invalid) :
    l.resolve scope key t fallback ≠ .error (.invalid cause) := by
  refine except_bind_ne_error ?_ fun found => ?_
  · cases l.lookup scope key with
    | unset => simp [Cell.read]
    | defined v layer =>
      rw [Cell.read]
      cases v.widen (some t) <;> simp
  · cases found with
    | none => exact except_pure_ne_error
    | some w =>
      cases hw : w.as? t <;> simp [hw, pure, Except.pure, throw, throwThe, MonadExceptOf.throw]

theorem Account.checkLive_ne_invalid (a : Account) (id : AccountId) (cause : Invalid) :
    a.checkLive id ≠ .error (.invalid cause) := by
  unfold checkLive
  split <;> simp

namespace Vault

variable {v : Vault} {id : AccountId} {a : Account} {scope : Scope} {key : String}

theorem ask_eq_ok_iff {q : Query} {x : q.Answer} : v.ask id q = .ok x ↔
    q.check v.options.keyLimit = .ok () ∧
      ∃ a, v.account? id = some a ∧ a.state ≠ .deleted ∧ q.answer (v.layers a) = .ok x := by
  simp only [ask, except_bind_eq_ok_iff, live_eq_ok_iff, and_assoc]
  constructor
  · rintro ⟨u, h⟩
    exact h
  · exact fun h => ⟨(), h⟩

theorem live_ne_invalid (v : Vault) (id : AccountId) (cause : Invalid) :
    v.live id ≠ .error (.invalid cause) := by
  rw [live]
  cases v.account? id with
  | none => simp
  | some a =>
    exact except_bind_ne_error (a.checkLive_ne_invalid id cause) fun _ => except_pure_ne_error

/-- Under an accepted key nothing is refused for what the key is. -/
theorem resolve_ne_invalid (hkey : Key.check key v.options.keyLimit = .ok ()) (t : ValueType)
    (fallback : t.Carrier) (cause : Invalid) :
    v.ask id (.resolve scope key t fallback) ≠ .error (.invalid cause) := by
  have hcheck : (Query.resolve scope key t fallback).check v.options.keyLimit ≠
      .error (.invalid cause) := by
    rw [Query.check, hkey]
    simp
  exact except_bind_ne_error hcheck fun _ => except_bind_ne_error (v.live_ne_invalid id cause)
    fun a => (v.layers a).resolve_ne_invalid scope key t fallback cause

theorem remove_ne_invalid (hkey : Key.check key v.options.keyLimit = .ok ()) (cause : Invalid) :
    v.edit id (.remove scope key) ≠ .error (.invalid cause) := by
  rw [edit]
  cases v.account? id with
  | none => simp
  | some a =>
    refine except_bind_ne_error ?_ fun _ => except_pure_ne_error
    refine except_bind_ne_error (by simp [hkey]) fun _ => ?_
    exact except_bind_ne_error (a.checkLive_ne_invalid id cause) fun _ => except_pure_ne_error

/-- Under a refused key nothing can be resolved, whatever there is. -/
theorem resolve_of_refused {e : Problem} (hkey : Key.check key v.options.keyLimit = .error e)
    (t : ValueType) (fallback : t.Carrier) :
    v.ask id (.resolve scope key t fallback) = .error e := by
  have hcheck : (Query.resolve scope key t fallback).check v.options.keyLimit = .error e := hkey
  rw [ask, hcheck]
  rfl

theorem remove_of_refused {e : Problem} (hkey : Key.check key v.options.keyLimit = .error e)
    (ha : v.account? id = some a) : v.edit id (.remove scope key) = .error e := by
  simp only [edit, ha, Account.edit, hkey]
  rfl

end Vault

/-! ### The statement -/

namespace System.Screens

variable {c : Contents} {limit : Nat} {s : System} {id : AccountId} {scope : Scope} {key : String}

/-- A refused key that an account holds is one that its record holds. -/
theorem holds_of_stored (h : s.Screens c limit) {a : Account} (ha : s.vault.account? id = some a)
    (hstored : (a.stored? scope key).isSome = true) :
    Key.check key limit = .ok () ∨ c.Holds id scope key := by
  by_cases hkey : Key.check key limit = .ok ()
  · exact Or.inl hkey
  · have hcell := h.cells id scope key hkey
    rw [Vault.cell?, ha, Option.bind_some] at hcell
    rw [hcell] at hstored
    obtain ⟨cell, hcell⟩ := Option.isSome_iff_exists.1 hstored
    obtain ⟨b, hb, hcell⟩ := Option.bind_eq_some_iff.1 hcell
    exact Or.inr ⟨b, hb, by rw [hcell]; rfl⟩

/-- What a record holds under a refused key stays. -/
theorem stored_of_holds (h : s.Screens c limit) {a : Account} (ha : s.vault.account? id = some a)
    (hkey : Key.check key limit ≠ .ok ()) (hholds : c.Holds id scope key) :
    (a.stored? scope key).isSome = true := by
  obtain ⟨b, hb, hstored⟩ := hholds
  have hcell := h.cells id scope key hkey
  rw [Vault.cell?, ha, hb, Option.bind_some, Option.bind_some] at hcell
  rw [hcell]
  exact hstored

end System.Screens

/-- In every state that a vault can come to, on whatever records it was opened, a key that is listed for
an account is accepted by the vault, or it is in the record that the account was loaded from; and under
an accepted key neither resolving nor removing fails for what the key is.  What a record holds under a key
that is refused stays listed while the account is there, and can be neither resolved nor removed. -/
theorem listed_keys_are_accepted {c : Contents} {options : Options} {catalog : Catalog} {v : Vault}
    (hv : c.opened options catalog = .ok v) (as : List Action) (id : AccountId) (scope : Scope)
    (lead : Option String) :
    let w := ((System.start v c).run as).vault
    (∀ keys, w.ask id (.keys scope lead) = .ok keys → ∀ key ∈ keys,
      Key.check key options.keyLimit = .ok () ∨ c.Holds id scope key) ∧
    (∀ t, w.ask id (.effective scope lead) = .ok t → ∀ key ∈ t.keys,
      Key.check key options.keyLimit = .ok () ∨ c.Holds id .account key ∨ c.Holds id scope key) ∧
    (∀ key cause, Key.check key options.keyLimit = .ok () →
      (∀ type fallback, w.ask id (.resolve scope key type fallback) ≠ .error (.invalid cause)) ∧
      w.edit id (.remove scope key) ≠ .error (.invalid cause)) ∧
    ∀ key e a, Key.check key options.keyLimit = .error e → c.Holds id scope key →
      w.account? id = some a → a.state ≠ .deleted → Table.hasPrefix lead key = true →
      (∃ keys, w.ask id (.keys scope lead) = .ok keys ∧ key ∈ keys) ∧
      (∃ t, w.ask id (.effective scope lead) = .ok t ∧ key ∈ t.keys) ∧
      (∀ type fallback, w.ask id (.resolve scope key type fallback) = .error e) ∧
      w.edit id (.remove scope key) = .error e := by
  intro w
  have hscreens := Contents.screens_run hv as
  have hlimit : w.options.keyLimit = options.keyLimit := hscreens.options
  have hcatalog : w.catalog = catalog := (System.catalog_run ..).trans (Contents.shared_of_opened hv).2.1
  have hchecked : w.catalog.checkKeys options.keyLimit = .ok () :=
    hcatalog ▸ Contents.checkKeys_of_opened hv
  refine ⟨fun keys hkeys key hkey => ?_, fun t ht key hkey => ?_, fun key cause hkey => ?_,
    fun key e a hrefused hholds ha hlive hlead => ?_⟩
  · obtain ⟨-, a, ha, -, hanswer⟩ := Vault.ask_eq_ok_iff.1 hkeys
    cases hanswer
    exact hscreens.holds_of_stored ha (Table.mem_keys_iff.1 (List.mem_filter.1 hkey).1)
  · obtain ⟨-, a, ha, -, hanswer⟩ := Vault.ask_eq_ok_iff.1 ht
    cases hanswer
    have hdefined := (Layers.mem_keys_effective.1 hkey).1
    rcases Layers.check_or_stored_of_mem_definedKeys (l := w.layers a) hchecked
      hscreens.overrides hdefined with haccepted | hstored | hstored
    · exact Or.inl haccepted
    · exact (hscreens.holds_of_stored ha hstored).imp_right Or.inl
    · exact (hscreens.holds_of_stored ha hstored).imp_right Or.inr
  · rw [← hlimit] at hkey
    exact ⟨fun type fallback => Vault.resolve_ne_invalid hkey type fallback cause,
      Vault.remove_ne_invalid hkey cause⟩
  · have hne : Key.check key options.keyLimit ≠ .ok () := by simp [hrefused]
    have hstored := hscreens.stored_of_holds ha hne hholds
    have htidy := (Contents.opens_of_opened hv).tidy_run as ha
    refine ⟨⟨_, Vault.ask_eq_ok_iff.2 ⟨rfl, a, ha, hlive, rfl⟩, ?_⟩,
      ⟨_, Vault.ask_eq_ok_iff.2 ⟨rfl, a, ha, hlive, rfl⟩, ?_⟩, fun type fallback => ?_, ?_⟩
    · exact List.mem_filter.2 ⟨Table.mem_keys_iff.2 hstored, hlead⟩
    · have hset := Layers.isSet_lookup_of_stored (l := w.layers a) htidy
        (fun service => hscreens.overrides service key hne) (Or.inr hstored)
      exact Layers.mem_keys_effective.2 ⟨Layers.mem_definedKeys_of_stored hstored, hlead, hset⟩
    · exact Vault.resolve_of_refused (hlimit ▸ hrefused) type fallback
    · exact Vault.remove_of_refused (hlimit ▸ hrefused) ha

/-- A key of eleven bytes is in the record, and the vault takes keys of up to eight: the key stays listed
beside one that is written, and is refused. -/
theorem listed_keys_are_accepted_of_long_key :
    let settings := Table.ofList [("server.host", .defined (.text "h") .account)]
    let c := Contents.single 1 { provider := "acme", settings, state := .saved } (some 2)
    let write : Edit := .write .account "color" (.text "red") (some .account)
    ∃ v, c.opened { keyLimit := 8 } {} = .ok v ∧
      let w := ((System.start v c).run [.edit 1 write]).vault
      (∃ keys, w.ask 1 (.keys .account none) = .ok keys ∧ "color" ∈ keys ∧ "server.host" ∈ keys ∧
        ∀ key ∈ keys, Key.check key 8 = .ok () ∨ c.Holds 1 .account key) ∧
      (∃ t, w.ask 1 (.effective .account none) = .ok t ∧ "server.host" ∈ t.keys) ∧
      w.ask 1 (.resolve .account "server.host" .text "x") =
        .error (.invalid (.longKey "server.host" 8)) ∧
      w.edit 1 (.remove .account "server.host") = .error (.invalid (.longKey "server.host" 8)) ∧
      w.edit 1 (.remove .account "color") ≠ .error (.invalid .emptyKey) := by
  intro settings c write
  let a : Account := { provider := "acme", settings, state := .saved }
  have ha : a.Tidy := ⟨Table.allSet_ofList _, (Account.tidy_new "acme").bindings⟩
  let v := Vault.ofAccounts { keyLimit := 8 } {} ((∅ : Std.ExtTreeMap AccountId Account).insert 1 a)
    (1 + 1) (some 2)
  have hv : c.opened { keyLimit := 8 } {} = .ok v :=
    Contents.opened_single_of_checkKeys rfl ha rfl (by decide) (some 2)
  have hloaded : c.loaded? 1 = some a := ((Contents.opens_of_opened hv).account? 1).symm.trans rfl
  have hholds : c.Holds 1 .account "server.host" := ⟨a, hloaded, by decide +kernel⟩
  have hrefused : Key.check "server.host" 8 = .error (.invalid (.longKey "server.host" 8)) := by
    decide +kernel
  obtain ⟨hkeys, -, haccepted, hlong⟩ :=
    listed_keys_are_accepted hv [.edit 1 write] 1 .account none
  let w := ((System.start v c).run [.edit 1 write]).vault
  obtain ⟨b, hb, hlive⟩ : ∃ b, w.account? 1 = some b ∧ b.state ≠ .deleted := by
    refine ⟨a.put .account "color" (.defined (.text "red") .account), ?_, ?_⟩ <;> decide +kernel
  obtain ⟨-, heffective, hresolve, hremove⟩ :=
    hlong "server.host" _ b hrefused hholds hb hlive rfl
  have hlisted : w.ask 1 (.keys .account none) = .ok ["color", "server.host"] := by decide +kernel
  refine ⟨v, hv, ⟨_, hlisted, by simp, by simp, hkeys _ hlisted⟩, heffective,
    hresolve .text "x", hremove, ?_⟩
  exact (haccepted "color" .emptyKey (by decide +kernel)).2

/-- A key is written under the default limit and saved.  Opened again with a limit of eight bytes, the
vault lists the key, and neither resolves nor removes it. -/
theorem long_key_is_listed_and_refused :
    let write : Edit := .write .account "server.host" (.text "h") (some .account)
    let first : Session := { actions := [.create "acme", .edit 1 write, .spawn 0 (.commit 1), .run 0,
      .run 0, .run 0, .answer 0 none, .answer 0 none] }
    ∃ w, (Contents.plays ∅ [first]).opened { keyLimit := 8 } {} = .ok w ∧
      w.ask 1 (.keys .account none) = .ok ["server.host"] ∧
      w.ask 1 (.resolve .account "server.host" .text "x") =
        .error (.invalid (.longKey "server.host" 8)) ∧
      w.edit 1 (.remove .account "server.host") =
        .error (.invalid (.longKey "server.host" 8)) := by
  intro write first
  let settings := Table.ofList [("server.host", .defined (.text "h") .account)]
  let a : Account := { provider := "acme", settings, state := .saved }
  have ha : a.Tidy := ⟨Table.allSet_ofList _, (Account.tidy_new "acme").bindings⟩
  have hc : Contents.plays ∅ [first] = Contents.single 1 a (some 2) := by
    have hfirst : (∅ : Contents).opened first.options first.catalog = .ok {} :=
      Contents.opened_empty {} {} rfl
    rw [Contents.plays, List.foldl_cons, List.foldl_nil, Contents.play, hfirst]
    decide +kernel
  have hrefused : Key.check "server.host" 8 = .error (.invalid (.longKey "server.host" 8)) := by
    decide +kernel
  rw [hc]
  exact ⟨_, Contents.opened_single_of_checkKeys rfl ha rfl (by decide) (some 2), by decide +kernel,
    Vault.resolve_of_refused hrefused .text "x",
    Vault.remove_of_refused hrefused (Std.ExtTreeMap.getElem?_insert_self : _ = some a)⟩

end AccountVault
