import AccountVault.Proofs.Durability
import AccountVault.Proofs.System.Closing

/-!
# Closing and opening again

A vault without overrides that was closed well, with its accounts flushed, and opened again on the same
storage shows the same accounts and gives the same answers (`reopened_answers_alike`).  The bindings of
services that are off and without settings may be lost, and this is not noticed.
-/

namespace AccountVault

namespace Account

/-- The enabled services are listed from the bindings that are on. -/
theorem enabledServices_eq (a : Account) : a.enabledServices =
    (a.bindings.filter fun _ b => b.enabled).toList.map fun p => p.2.name := by
  rw [enabledServices, List.filter_map, Std.ExtTreeMap.toList_filter, List.map_map]
  rfl

/-- A bare binding is not among the enabled services. -/
theorem Matches.enabledServices_eq {a b : Account} (h : a.Matches b) :
    b.enabledServices = a.enabledServices := by
  have hfilter : (b.bindings.filter fun _ c => c.enabled) =
      a.bindings.filter fun _ c => c.enabled := by
    refine Std.ExtTreeMap.ext_getElem? fun name => ?_
    simp only [Std.ExtTreeMap.getElem?_filter, Option.pfilter_eq_filter]
    rcases h.bindings name with hb | ⟨ha, c, hb, hoff, -⟩
    · rw [hb]
    · rw [ha, hb]
      simp [hoff]
  rw [Account.enabledServices_eq, Account.enabledServices_eq, hfilter]

/-- Accounts that differ at most in their life and their change log. -/
theorem matches_of_settled {a b : Account} (h : b.settled = a.settled) : a.Matches b := by
  have hsettled : ∀ x : Account, x.Matches x.settled := fun x =>
    ⟨rfl, rfl, rfl, rfl, fun _ => .inl rfl⟩
  have hunsettled : ∀ x : Account, x.settled.Matches x := fun x =>
    ⟨rfl, rfl, rfl, rfl, fun _ => .inl rfl⟩
  have hb := hsettled a
  rw [← h] at hb
  exact hb.trans (hunsettled b)

end Account

namespace Layers

/-- Lookups depend on the provider and the settings of an account, and on nothing else of it. -/
theorem resolve_congr {l l' : Layers} (hcatalog : l'.catalog = l.catalog)
    (hforced : ∀ service key, l'.forced? service key = l.forced? service key)
    (hprovider : l'.account.provider = l.account.provider)
    (hsettings : ∀ scope, l'.account.settingsOf scope = l.account.settingsOf scope)
    (scope : Scope) (key : String) (t : ValueType) (fallback : t.Carrier) :
    l'.resolve scope key t fallback = l.resolve scope key t fallback := by
  have haccount : l'.account.settings = l.account.settings := hsettings .account
  have hbound : ∀ service, l'.bound? service key = l.bound? service key := by
    intro service
    rw [bound?, bound?, Account.stored?, Account.stored?, hsettings]
  have hcandidates : l'.candidates scope key = l.candidates scope key := by
    cases scope <;> simp only [candidates, hcatalog, hforced, hprovider, haccount, hbound]
  rw [resolve, resolve, lookup, lookup, hcandidates]

end Layers

/-- Two vaults that share options and catalog and force nothing answer alike about accounts that match. -/
theorem Vault.ask_resolve_of_matches {v v' : Vault} {id : AccountId} {a b : Account}
    (hoptions : v'.options = v.options) (hcatalog : v'.catalog = v.catalog)
    (hnone : ∀ service key, v.overrides.get? service key = none)
    (hnone' : ∀ service key, v'.overrides.get? service key = none)
    (ha : v.account? id = some a) (hlive : a.state ≠ .deleted) (hb : v'.account? id = some b)
    (hlive' : b.state ≠ .deleted) (hm : b.Matches a) (scope : Scope) (key : String) (t : ValueType)
    (fallback : t.Carrier) :
    v'.ask id (.resolve scope key t fallback) = v.ask id (.resolve scope key t fallback) := by
  have hresolve : (v'.layers b).resolve scope key t fallback =
      (v.layers a).resolve scope key t fallback := by
    refine Layers.resolve_congr hcatalog (fun service key => ?_) hm.provider.symm
      (fun scope => (hm.settingsOf_eq scope).symm) scope key t fallback
    rw [Layers.forced?, Layers.forced?, layers, layers, hnone, hnone']
  rw [ask, ask, live_eq_ok_iff.2 ⟨ha, hlive⟩, live_eq_ok_iff.2 ⟨hb, hlive'⟩, hoptions]
  exact congrArg (((Query.resolve scope key t fallback).check v.options.keyLimit).bind fun _ => ·)
    hresolve

namespace Contents.Opens

variable {c : Contents} {v : Vault} {as : List Action} {id : AccountId} {v' : Vault}

/-- An account that is saved and has nothing to be saved is found when the storage is opened again. -/
theorem exists_reopened (h : c.Opens v) (h' : ((System.start v c).run as).contents.Opens v')
    {a : Account} (ha : ((System.start v c).run as).vault.account? id = some a)
    (hs : a.state = .saved) (hd : a.isDirty = false) :
    v'.finds id = true ∧ ∃ b, v'.account? id = some b ∧ b.state = .saved ∧ b.Matches a := by
  obtain ⟨S, hS, hm⟩ := (h.sound id as).kept_of_clean ha hs hd
  have hloaded : ((System.start v c).run as).contents.loaded? id = some S.account.settled := by
    have hkept : (v.history c id as).kept = some S := hS
    rw [h.loaded?_run, hkept]
    rfl
  have hsame : S.account.settled.Matches S.account := Account.matches_of_settled rfl
  refine ⟨?_, S.account.settled, ?_, rfl, hsame.trans hm⟩
  · rw [h'.finds, hloaded]
    rfl
  · rw [h'.account?, hloaded]

/-- What is not saved is not found when the storage is opened again. -/
theorem reopened_eq_none (h : c.Opens v) (h' : ((System.start v c).run as).contents.Opens v')
    (hn : ∀ a, ((System.start v c).run as).vault.account? id = some a → a.state ≠ .saved) :
    v'.account? id = none ∧ v'.finds id = false := by
  have hrecord : ((System.start v c).run as).contents.record? id = none := by
    rw [← Option.not_isSome_iff_eq_none, (h.sound_start_run as).isSome_record?_iff]
    rintro ⟨a, ha, hs⟩
    exact hn a ha hs
  have hloaded : ((System.start v c).run as).contents.loaded? id = none := by
    rw [Contents.loaded?, hrecord]
    rfl
  refine ⟨by rw [h'.account?, hloaded], ?_⟩
  rw [h'.finds, hloaded]
  rfl

end Contents.Opens

/-- A vault that forces nothing is closed, its accounts are flushed, and no other task does anything
meanwhile.  If that goes well, the storage can be opened again with the same options and catalog; every
account that was saved is found with what a handle shows of it, its enabled services among that, and every
question for a setting has the answer that it had before.  No other account is found. -/
theorem reopened_answers_alike {c : Contents} {options : Options} {catalog : Catalog} {v : Vault}
    (hv : c.opened options catalog = .ok v) (hflush : options.flushOnClose = true)
    (before during : List Action) (t : TaskId) (n : Nat)
    (hduring : ∀ a ∈ during, a = .dispatch ∨ a.task? = some t) :
    let s := (System.start v c).run before
    let s' := s.run (.spawn t .close :: during)
    (∀ service key, s.vault.overrides.get? service key = none) → s.tasks[t]? = none →
    s'.outcome? t = some (.ok n) →
    ∃ v', s'.contents.opened options catalog = .ok v' ∧ ∀ id,
      (∀ a, s.vault.account? id = some a → a.state = .saved →
        v'.finds id = true ∧ ∃ b, v'.account? id = some b ∧ b.provider = a.provider ∧
          b.displayName = a.displayName ∧ b.enabled = a.enabled ∧
          b.enabledServices = a.enabledServices ∧
          ∀ scope key type fallback, v'.ask id (.resolve scope key type fallback) =
            s.vault.ask id (.resolve scope key type fallback)) ∧
      ((∀ a, s.vault.account? id = some a → a.state ≠ .saved) →
        v'.account? id = none ∧ v'.finds id = false) := by
  intro s s' hnone ht hok
  have h := Contents.opens_of_opened hv
  obtain ⟨hoptions, hcatalog, -⟩ := Contents.shared_of_opened hv
  have hlimit : s.vault.options = options := (System.options_run _ before).trans hoptions
  have hdefaults : s.vault.catalog = catalog := (System.catalog_run _ before).trans hcatalog
  obtain ⟨hw, hsettled⟩ := System.settled_of_closed (h.sound_start_run before) (h.fitting_run before)
    (show s.vault.options.flushOnClose = true by rw [hlimit]; exact hflush) ht hduring hok
  have hs' : s' = (System.start v c).run (before ++ .spawn t .close :: during) :=
    (System.run_append ..).symm
  change s.vault.Rewritten s'.vault at hw
  change ∀ i, ¬ s'.vault.Unsettled i at hsettled
  rw [hs'] at hw hsettled ⊢
  obtain ⟨v', hv'⟩ := h.exists_opened_run (before ++ .spawn t .close :: during)
    (Contents.checkKeys_of_opened hv)
  have h' := Contents.opens_of_opened hv'
  obtain ⟨hoptions', hcatalog', hoverrides'⟩ := Contents.shared_of_opened hv'
  refine ⟨v', hv', fun id => ⟨fun a ha hs => ?_, fun hn => h.reopened_eq_none h' fun a' ha' hsaved => ?_⟩⟩
  · -- the account as it was when the vault had been closed
    obtain ⟨a', ha', hset⟩ := Option.map_eq_some_iff.1 ((hw.data.accounts id).trans (congrArg _ ha))
    have hstate := hw.states id
    rw [ha, ha', Option.map_some, Option.map_some, Option.some.injEq] at hstate
    have hclean : a'.isDirty = false := by
      rw [← Bool.not_eq_true]
      exact fun hd => hsettled id ⟨a', ha', hstate.trans hs, hd⟩
    obtain ⟨hfinds, b, hb, hbs, hm'⟩ := h.exists_reopened h' ha' (hstate.trans hs) hclean
    have hm : b.Matches a := hm'.trans (Account.matches_of_settled hset.symm)
    refine ⟨hfinds, b, hb, hm.provider.symm, hm.displayName.symm, hm.enabled.symm,
      hm.enabledServices_eq.symm, fun scope key type fallback => ?_⟩
    exact Vault.ask_resolve_of_matches (hoptions'.trans hlimit.symm) (hcatalog'.trans hdefaults.symm)
      hnone (by rw [hoverrides']; exact fun _ _ => rfl) ha (by simp [hs]) hb (by simp [hbs]) hm
      scope key type fallback
  · have hstate := hw.states id
    rw [ha', Option.map_some, hsaved, eq_comm, Option.map_eq_some_iff] at hstate
    obtain ⟨a, ha, hs⟩ := hstate
    exact hn a ha hs

/-- Closing a vault with an account that was changed after its first save, a service of it that is on, one
that is bound and nothing more, and an account that was never saved. -/
theorem reopened_answers_alike_of_change :
    let before : List Action := [.create "acme", .create "acme",
      .edit 1 (.write (.service "mail") "port" (.integer 7) (some .service)), .spawn 0 (.commit 1),
      .run 0, .run 0, .run 0, .answer 0 none, .answer 0 (some (.refused .save)), .spawn 1 (.commit 1),
      .run 1, .run 1, .run 1, .answer 1 none, .edit 1 (.setServiceEnabled "mail" true),
      .edit 1 (.bind "sync")]
    let during : List Action := [.run 2, .run 2, .run 2, .answer 2 none, .run 2, .dispatch, .dispatch,
      .run 2]
    let s' := ((System.start {} ∅).run before).run (.spawn 2 .close :: during)
    let q := Query.resolve (.service "mail") "port" .integer64 0
    s'.outcome? 2 = some (.ok 0) ∧ ∃ v' b, s'.contents.opened {} {} = .ok v' ∧
      v'.account? 1 = some b ∧ b.enabledServices = ["mail"] ∧
      v'.ask 1 q = .ok ⟨7, some .service⟩ ∧ v'.finds 2 = false := by
  intro before during s' q
  have hok : s'.outcome? 2 = some (.ok 0) := by decide +kernel
  have hduring : ∀ a ∈ during, a = .dispatch ∨ a.task? = some 2 := by
    intro a ha
    simp only [during, List.mem_cons, List.not_mem_nil, or_false] at ha
    rcases ha with rfl | rfl | rfl | rfl | rfl | rfl | rfl | rfl <;> simp [Action.task?]
  obtain ⟨v', hv', h⟩ := reopened_answers_alike (Contents.opened_empty {} {} rfl) rfl before during 2 0
    hduring (fun _ _ => rfl) rfl hok
  obtain ⟨-, b, hb, -, -, -, henabled, hask⟩ := (h 1).1 _ rfl rfl
  refine ⟨hok, v', b, hv', hb, ?_, ?_, ?_⟩
  · rw [henabled]
    decide +kernel
  · rw [hask]
    rfl
  · exact ((h 2).2 fun a ha => by cases ha; simp).2

end AccountVault
