import AccountVault.Proofs.Listing
import AccountVault.Proofs.Numbering
import AccountVault.Proofs.Record.Reached
import AccountVault.Proofs.Scope.Offering
import AccountVault.Proofs.System.Sweeping

/-!
# Listings and handles

A listing looks at the accounts themselves, a handle answers questions about one of them.  They agree: a
filter lists the accounts that are found and of which every given condition is what a handle reports
(`listings_agree_with_handles`).  Services are told apart by the names that they are kept under, so that
the two ways to ask for a service, or for a type of service, come to the same.
-/

namespace AccountVault

namespace Catalog

variable {c : Catalog} {provider type service : String}

/-! ### Services of a type -/

/-- The services of a type are the names that the templates which supply it are kept under. -/
theorem Named.servicesOfType_eq (h : c.Named) : c.servicesOfType provider type =
    (c.templates.filter fun _ t => t.supplies provider type).keys := by
  have hnames : ((c.templates.filter fun _ t => t.supplies provider type).toList.map
      fun p => p.2.name) = (c.templates.filter fun _ t => t.supplies provider type).keys := by
    rw [← Std.ExtTreeMap.map_fst_toList_eq_keys]
    refine List.map_congr_left fun p hp => ?_
    rw [Std.ExtTreeMap.toList_filter, List.mem_filter] at hp
    exact h p.1 p.2 (Std.ExtTreeMap.mem_toList_iff_getElem?_eq_some.1 hp.1)
  rw [Catalog.servicesOfType_eq, hnames]
  exact List.mergeSort_of_pairwise (Std.ExtTreeMap.ordered_keys.imp Ordering.isLE_of_eq_lt)

/-- They are listed in order, each once. -/
theorem Named.pairwise_servicesOfType (h : c.Named) (provider type : String) :
    (c.servicesOfType provider type).Pairwise (· < ·) := by
  have hkeys : (c.servicesOfType provider type).Pairwise fun n m => compare n m = .lt := by
    rw [h.servicesOfType_eq]
    exact Std.ExtTreeMap.ordered_keys
  exact hkeys.imp fun hlt => compareOfLessAndEq_eq_lt.1 hlt

theorem Named.mem_servicesOfType_iff (h : c.Named) : service ∈ c.servicesOfType provider type ↔
    ∃ t, c.template? service = some t ∧ t.supplies provider type = true := by
  rw [h.servicesOfType_eq, Std.ExtTreeMap.mem_keys, ← Std.ExtTreeMap.isSome_getElem?_iff_mem,
    Std.ExtTreeMap.getElem?_filter, Option.pfilter_eq_filter, Option.isSome_filter, Option.any_eq_true]
  rfl

/-- A type is supported exactly if some service of it is offered. -/
theorem Named.supports_iff (h : c.Named) :
    c.supports provider type = true ↔ c.servicesOfType provider type ≠ [] := by
  unfold supports
  rw [List.any_eq_true]
  constructor
  · rintro ⟨⟨service, t⟩, ht, hsupplies⟩
    have htemplate := Std.ExtTreeMap.mem_toList_iff_getElem?_eq_some.1 ht
    exact List.ne_nil_of_mem (h.mem_servicesOfType_iff.2 ⟨t, htemplate, hsupplies⟩)
  · intro hne
    obtain ⟨service, hmem⟩ := List.exists_mem_of_ne_nil _ hne
    obtain ⟨t, htemplate, hsupplies⟩ := h.mem_servicesOfType_iff.1 hmem
    exact ⟨(service, t), Std.ExtTreeMap.mem_toList_iff_getElem?_eq_some.2 htemplate, hsupplies⟩

end Catalog

/-- A service is listed among the enabled ones exactly if it is enabled. -/
theorem Account.Tidy.mem_enabledServices_iff {a : Account} (h : a.Tidy) {service : String} :
    service ∈ a.enabledServices ↔ a.isServiceEnabled service = true := by
  unfold Account.enabledServices Account.isServiceEnabled
  rw [Option.any_eq_true]
  constructor
  · intro hmem
    obtain ⟨b, hb, rfl⟩ := List.mem_map.1 hmem
    obtain ⟨hb, hon⟩ := List.mem_filter.1 hb
    obtain ⟨⟨name, b⟩, hp, rfl⟩ := List.mem_map.1 hb
    have hget := Std.ExtTreeMap.mem_toList_iff_getElem?_eq_some.1 hp
    obtain ⟨rfl, -⟩ := h.bindings name b hget
    exact ⟨b, hget, hon⟩
  · rintro ⟨b, hget, hon⟩
    obtain ⟨rfl, -⟩ := h.bindings service b hget
    have hp := Std.ExtTreeMap.mem_toList_iff_getElem?_eq_some.2 hget
    exact List.mem_map_of_mem (List.mem_filter.2 ⟨List.mem_map_of_mem hp, hon⟩)

/-- What a filter demands of an account that is there. -/
theorem AccountFilter.accepts_iff {f : AccountFilter} {catalog : Catalog} {a : Account}
    (hlive : a.state ≠ .deleted) : f.accepts catalog a = true ↔
      (∀ p, f.provider = some p → a.provider = p) ∧ (∀ b, f.enabled = some b → a.enabled = b) ∧
      (∀ n, f.service = some n → a.isServiceEnabled n = true) ∧
      ∀ t, f.serviceType = some t → catalog.supports a.provider t = true := by
  unfold AccountFilter.accepts
  simp only [Bool.and_eq_true, decide_eq_true_eq, Option.all_eq_true, hlive, ne_eq, not_false_eq_true,
    decide_true, true_and, eq_comm (b := a.provider), eq_comm (b := a.enabled)]
  constructor
  · rintro ⟨⟨⟨hprovider, henabled⟩, htype⟩, hservice⟩
    exact ⟨hprovider, henabled, hservice, htype⟩
  · rintro ⟨hprovider, henabled, hservice, htype⟩
    exact ⟨⟨⟨hprovider, henabled⟩, htype⟩, hservice⟩

namespace Vault

variable {v : Vault} {id : AccountId} {a : Account}

/-- A question that is in order is answered of an account that is there. -/
theorem ask_of_live (ha : v.account? id = some a) (hlive : a.state ≠ .deleted) {q : Query}
    (hq : q.check v.options.keyLimit = .ok ()) : v.ask id q = q.answer (v.layers a) := by
  rw [ask, hq, live_eq_ok_iff.2 ⟨ha, hlive⟩]
  rfl

/-- A filter accepts an account exactly if a handle reports every condition that is given. -/
theorem accepts_iff_reported (hnamed : v.catalog.Named) (htidy : a.Tidy) (ha : v.account? id = some a)
    (hlive : a.state ≠ .deleted) {f : AccountFilter} : f.accepts v.catalog a = true ↔
      (∀ p, f.provider = some p → (v.account? id).map (·.provider) = some p) ∧
      (∀ b, f.enabled = some b → v.ask id (.isEnabled .account) = .ok b) ∧
      (∀ n, f.service = some n → ∃ names, v.ask id .enabledServices = .ok names ∧ n ∈ names) ∧
      ∀ t, f.serviceType = some t → ∃ names, v.ask id (.servicesOfType t) = .ok names ∧ names ≠ [] := by
  have hprovider : ∀ p, a.provider = p ↔ (v.account? id).map (·.provider) = some p := by
    intro p
    rw [ha]
    exact ⟨fun h => congrArg some h, Option.some.inj⟩
  have henabled : ∀ b, a.enabled = b ↔ v.ask id (.isEnabled .account) = .ok b := by
    intro b
    rw [ask_of_live ha hlive rfl]
    exact ⟨fun h => congrArg Except.ok h, Except.ok.inj⟩
  have hservice : ∀ n, a.isServiceEnabled n = true ↔
      ∃ names, v.ask id .enabledServices = .ok names ∧ n ∈ names := by
    intro n
    rw [ask_of_live ha hlive rfl, ← htidy.mem_enabledServices_iff]
    exact ⟨fun h => ⟨_, rfl, h⟩, fun ⟨_, hn, h⟩ => Except.ok.inj hn ▸ h⟩
  have htype : ∀ t, v.catalog.supports a.provider t = true ↔
      ∃ names, v.ask id (.servicesOfType t) = .ok names ∧ names ≠ [] := by
    intro t
    rw [ask_of_live ha hlive rfl, hnamed.supports_iff]
    exact ⟨fun h => ⟨_, rfl, h⟩, fun ⟨_, hn, h⟩ => Except.ok.inj hn ▸ h⟩
  rw [AccountFilter.accepts_iff hlive]
  simp only [hprovider, henabled, hservice, htype]

end Vault

/-- A vault is opened with a catalog and used in any way.  What is found are the saved accounts.  A filter
lists them in the order of their ids, each once: those of which a handle reports every condition that is
given, the provider, the switch, the service among the enabled ones, and some service of the type.  The
services of a type are listed in order, and there are some exactly if the type is said to be supported. -/
theorem listings_agree_with_handles {c : Contents} {strays : List AccountId} {options : Options}
    {catalog : Catalog} {v : Vault} (hcatalog : catalog.Declared)
    (hv : (c.shelf strays).opened options catalog = .ok v) (as : List Action) :
    let w := ((System.start v c).run as).vault
    (∀ id, w.finds id = true ↔ ∃ a, w.account? id = some a ∧ a.state = .saved) ∧
    (∀ f : AccountFilter, (w.list f).Pairwise (· < ·) ∧ ∀ id, id ∈ w.list f ↔
      w.finds id = true ∧
      (∀ p, f.provider = some p → (w.account? id).map (·.provider) = some p) ∧
      (∀ b, f.enabled = some b → w.ask id (.isEnabled .account) = .ok b) ∧
      (∀ n, f.service = some n → ∃ names, w.ask id .enabledServices = .ok names ∧ n ∈ names) ∧
      ∀ t, f.serviceType = some t → ∃ names, w.ask id (.servicesOfType t) = .ok names ∧ names ≠ []) ∧
    ∀ id t names, w.ask id (.servicesOfType t) = .ok names →
      names.Pairwise (· < ·) ∧ w.ask id (.supports t) = .ok (!names.isEmpty) := by
  intro w
  have ho : c.Opens v := Contents.opens_of_shelf hv
  have hsound : ((System.start v c).run as).Sound := ho.sound_start_run as
  have hnamed : w.catalog.Named := by
    rw [System.catalog_run]
    obtain ⟨-, accounts, free, -, -, rfl⟩ := Shelf.opened_eq_ok_iff.1 hv
    exact hcatalog.named
  refine ⟨fun id => hsound.finds_iff, fun f => ⟨System.pairwise_rosterWhere .., fun id => ?_⟩, ?_⟩
  · unfold Vault.list
    rw [Vault.mem_rosterWhere_iff]
    refine and_congr_right fun hfinds => ?_
    obtain ⟨a, ha, hsaved⟩ := hsound.finds_iff.1 hfinds
    have hlive : a.state ≠ .deleted := by
      rw [hsaved]
      decide
    have htidy : a.Tidy := ho.tidy_run as ha
    rw [← Vault.accepts_iff_reported hnamed htidy ha hlive]
    exact ⟨fun ⟨b, hb, h⟩ => Option.some.inj (ha.symm.trans hb) ▸ h, fun h => ⟨a, ha, h⟩⟩
  · intro id t names hnames
    obtain ⟨-, a, ha, hlive, hanswer⟩ := Vault.ask_eq_ok_iff.1 hnames
    cases hanswer
    refine ⟨hnamed.pairwise_servicesOfType .., ?_⟩
    rw [Vault.ask_of_live ha hlive rfl, Query.answer]
    refine congrArg Except.ok (Bool.eq_iff_iff.2 ?_)
    rw [Bool.not_eq_true', List.isEmpty_eq_false_iff]
    exact hnamed.supports_iff

/-- Of two accounts one has a service enabled that is of the type that is asked for. -/
theorem listings_agree_with_handles_of_service :
    let ds : List Declaration := [.serviceType "mail" "email"]
    let catalog := (({} : Catalog).declareAll ds).toOption.getD {}
    let as : List Action := [.create "acme", .create "acme",
      .edit 1 (.setServiceEnabled "mail" true), .spawn 0 (.commit 1), .run 0, .run 0, .run 0,
      .answer 0 none, .answer 0 none, .spawn 1 (.commit 2), .run 1, .run 1, .run 1, .answer 1 none]
    let w := ((System.start { catalog } ∅).run as).vault
    let f : AccountFilter :=
      { provider := some "acme", service := some "mail", serviceType := some "email" }
    w.list {} = [1, 2] ∧ w.list f = [1] ∧
      (∃ names, w.ask 1 .enabledServices = .ok names ∧ "mail" ∈ names) ∧
      ∃ names, w.ask 1 (.servicesOfType "email") = .ok names ∧ names ≠ [] := by
  intro ds catalog as w f
  have hdeclared : catalog.Declared := ⟨{}, ds, .inl rfl, by decide +kernel⟩
  have hv : ((∅ : Contents).shelf []).opened {} catalog = .ok { catalog } :=
    (Contents.opened_shelf_nil ∅ {} catalog).trans (Contents.opened_empty {} catalog (by decide +kernel))
  have hlist : w.list f = [1] := by decide +kernel
  have hmem : 1 ∈ w.list f := by
    rw [hlist]
    exact List.mem_singleton.2 rfl
  obtain ⟨-, -, -, hservice, htype⟩ := (((listings_agree_with_handles hdeclared hv as).2.1 f).2 1).1 hmem
  exact ⟨by decide +kernel, hlist, hservice "mail" rfl, htype "email" rfl⟩

end AccountVault
