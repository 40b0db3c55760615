import AccountVault.Proofs.Scope.Isolation
import AccountVault.Proofs.Scope.Tags

/-!
# Templates of other providers

A template may name the one provider that offers its service.  Questions for services by type honour
that: to the accounts of other providers such a template might as well not be there.  Lookups do not: at
the scope of the service its defaults are seen by every account, wherever nothing is forced or written
under the key (`Layers.Supplied`).  Main statement: `foreign_template_is_seen_by_lookups`.
-/

namespace AccountVault

namespace Catalog

variable {c : Catalog} {service provider : String} {t : Template}

/-- The catalog without the template of a service. -/
def withoutTemplate (c : Catalog) (service : String) : Catalog :=
  { c with templates := c.templates.erase service }

theorem template?_withoutTemplate (c : Catalog) (service name : String) :
    (c.withoutTemplate service).template? name =
      if service = name then none else c.template? name := by
  simp [template?, withoutTemplate, Std.ExtTreeMap.getElem?_erase]

theorem serviceDefault?_withoutTemplate (c : Catalog) (service key : String) :
    (c.withoutTemplate service).serviceDefault? service key = none := by
  rw [serviceDefault?, template?_withoutTemplate, if_pos rfl]
  rfl

theorem alikeOutside_withoutTemplate (c : Catalog) (service : String) :
    c.AlikeOutside service (c.withoutTemplate service) := by
  refine ⟨rfl, rfl, fun name hn => ?_⟩
  rw [template?_withoutTemplate, if_neg hn.symm]

/-- A template that does not supply a type is not among those that do. -/
theorem filter_withoutTemplate (ht : c.template? service = some t) {supplies : Template → Bool}
    (hnot : supplies t = false) :
    ((c.withoutTemplate service).templates.filter fun _ t => supplies t) =
      c.templates.filter fun _ t => supplies t := by
  refine Std.ExtTreeMap.ext_getElem? fun name => ?_
  have herase := c.template?_withoutTemplate service name
  rw [template?, template?] at herase
  rw [template?] at ht
  simp only [Std.ExtTreeMap.getElem?_filter, Option.pfilter_eq_filter, herase]
  split
  · next hname =>
    subst hname
    rw [ht, Option.filter_some, hnot]
    rfl
  · rfl

theorem servicesOfType_eq (c : Catalog) (provider type : String) :
    c.servicesOfType provider type =
      (((c.templates.filter fun _ t => t.supplies provider type).toList.map fun p => p.2.name)
        |>.mergeSort fun a b => (compare a b).isLE) := by
  rw [servicesOfType, List.filter_map, Std.ExtTreeMap.toList_filter, List.map_map]
  rfl

theorem supports_eq (c : Catalog) (provider type : String) :
    c.supports provider type =
      (c.templates.filter fun _ t => t.supplies provider type).toList.any
        fun p => p.2.supplies provider type := by
  rw [supports, Std.ExtTreeMap.toList_filter, List.any_filter]
  simp only [Bool.and_self]

end Catalog

namespace Layers

variable {l : Layers} {service key : String} {scope : Scope} {lead : Option String}

def withoutTemplate (l : Layers) (service : String) : Layers :=
  { l with catalog := l.catalog.withoutTemplate service }

theorem alikeOutside_withoutTemplate (l : Layers) (service : String) :
    l.AlikeOutside service (l.withoutTemplate service) :=
  ⟨l.catalog.alikeOutside_withoutTemplate service, fun _ _ => rfl, ⟨rfl, fun _ _ => rfl⟩⟩

/-- At the scope of the service one table is missing. -/
theorem cell?_withoutTemplate (l : Layers) (service key : String) (layer : Layer) :
    (l.withoutTemplate service).cell? (.service service) key layer =
      if layer = .template then none else l.cell? (.service service) key layer := by
  cases layer with
  | template =>
    have hnone := l.catalog.serviceDefault?_withoutTemplate service key
    show ((l.catalog.withoutTemplate service).serviceDefault? service key).map _ = none
    rw [hnone]
    rfl
  | _ => rfl

/-- The template of a service has a default under a key, and nothing is forced or written there. -/
structure Supplied (l : Layers) (service key : String) : Prop where
  declared : (l.cell? (.service service) key .template).isSome
  forced : l.cell? (.service service) key .application = none
  bound : l.cell? (.service service) key .service = none
  written : l.cell? (.service service) key .account = none

namespace Supplied

theorem exists_lookup_eq (h : l.Supplied service key) (hl : l.catalog.AllSet) :
    ∃ v, l.lookup (.service service) key = .defined v .template := by
  obtain ⟨c, hc⟩ := Option.isSome_iff_exists.1 h.declared
  obtain ⟨v, rfl⟩ := exists_of_declared hl (by decide) hc
  refine ⟨v, lookup_eq_of_first hc fun layer hsome => ?_⟩
  rw [standing_of_ne_service (show Layer.template ≠ .service by decide)]
  have hle := l.standing_le (.service service) key layer
  cases layer with
  | application => simp [h.forced] at hsome
  | service => simp [h.bound] at hsome
  | account => simp [h.written] at hsome
  | _ => exact Nat.le_trans hle (by decide)

/-- Without the template the service sees what the account's scope sees, which is another default or
nothing. -/
theorem lookup_withoutTemplate (h : l.Supplied service key) :
    (l.withoutTemplate service).lookup (.service service) key = l.lookup .account key := by
  have hforced : l.forced? service key = none := h.forced
  have hbound : l.bound? service key = none := h.bound
  have hwritten : l.account.settings.get? key = none := h.written
  have htemplate := l.catalog.serviceDefault?_withoutTemplate service key
  have hlayers : (l.withoutTemplate service).candidates (.service service) key =
      [none, none, none, none, none] ++ (l.candidates .account key).tail := by
    show [l.forced? service key, (l.bound? service key).filter isStrong, l.account.settings.get? key,
      l.bound? service key, ((l.catalog.withoutTemplate service).serviceDefault? service key).map _] ++
        _ = _
    rw [hforced, hbound, hwritten, htemplate]
    rfl
  have haccount : l.candidates .account key = none :: (l.candidates .account key).tail := by
    show l.account.settings.get? key :: _ = _
    rw [hwritten]
    rfl
  rw [lookup, lookup, hlayers, haccount]
  rfl

theorem source_lookup_account_ne (h : l.Supplied service key) (hl : l.catalog.AllSet) :
    (l.lookup .account key).source ≠ some .template := by
  by_cases hnone : l.defining .account key = []
  · rw [lookup_of_defining_eq_nil hnone]
    simp [Cell.source]
  · obtain ⟨layer, hc, -⟩ := exists_first hnone
    intro hsource
    cases layer with
    | application => exact absurd hc (by simp [cell?, Scope.service?])
    | service => exact absurd hc (by simp [cell?, Scope.service?])
    | template => exact absurd hc (by simp [cell?, Scope.service?])
    | account => exact absurd (h.written.symm.trans hc) (by simp)
    | _ =>
      obtain ⟨v, hv⟩ := exists_of_declared hl (by decide) hc
      rw [hv] at hsource
      exact absurd hsource (by simp [Cell.source])

theorem lookup_ne (h : l.Supplied service key) (hl : l.catalog.AllSet) :
    (l.withoutTemplate service).lookup (.service service) key ≠ l.lookup (.service service) key := by
  intro heq
  obtain ⟨v, hv⟩ := h.exists_lookup_eq hl
  rw [h.lookup_withoutTemplate, hv] at heq
  exact h.source_lookup_account_ne hl (by rw [heq]; rfl)

end Supplied

/-- Where the template does not supply the key, nothing is missed. -/
theorem lookup_withoutTemplate_of_not (h : ¬ l.Supplied service key) :
    (l.withoutTemplate service).lookup (.service service) key = l.lookup (.service service) key := by
  by_cases hnone : l.defining (.service service) key = []
  · have hnone' : (l.withoutTemplate service).defining (.service service) key = [] := by
      refine defining_eq_nil_iff.2 fun layer => ?_
      rw [cell?_withoutTemplate, defining_eq_nil_iff.1 hnone layer, ite_self]
    rw [lookup_of_defining_eq_nil hnone, lookup_of_defining_eq_nil hnone']
  · obtain ⟨layer, hc, hfirst⟩ := exists_first hnone
    -- were it the template's default that is found, nothing that is asked before would be there
    have hlayer : layer ≠ .template := by
      rintro rfl
      have hearlier : ∀ {earlier}, Layer.template.rank < earlier.rank →
          l.cell? (.service service) key earlier = none := by
        intro earlier hlt
        rw [← Option.not_isSome_iff_eq_none]
        intro hsome
        exact Nat.not_le_of_lt hlt (rank_le_of_declared (by decide) (hfirst earlier hsome))
      exact h ⟨by rw [hc]; rfl, hearlier (by decide), hearlier (by decide), hearlier (by decide)⟩
    have hc' : (l.withoutTemplate service).cell? (.service service) key layer =
        some (l.lookup (.service service) key) := by
      rw [cell?_withoutTemplate, if_neg hlayer, hc]
    refine lookup_eq_of_first hc' fun layer' hsome => hfirst layer' ?_
    rw [cell?_withoutTemplate] at hsome
    split at hsome
    · exact absurd hsome (by simp)
    · exact hsome

theorem lookup_withoutTemplate_eq_iff (hl : l.catalog.AllSet) :
    (l.withoutTemplate service).lookup (.service service) key = l.lookup (.service service) key ↔
      ¬ l.Supplied service key :=
  ⟨fun heq h => h.lookup_ne hl heq, lookup_withoutTemplate_of_not⟩

/-- A cell of the merged view is what a lookup finds, if that is set. -/
theorem get?_effective_eq_some_iff {c : Cell} : (l.effective scope lead).get? key = some c ↔
    Table.hasPrefix lead key = true ∧ l.lookup scope key = c ∧ c.isSet = true := by
  rw [effective, Table.get?_ofList_map]
  constructor
  · intro h
    split at h
    · next hkey =>
      cases h
      exact ⟨(List.mem_filter.1 hkey.1).2, rfl, hkey.2⟩
    · exact absurd h (by simp)
  · rintro ⟨hlead, rfl, hset⟩
    exact if_pos ⟨List.mem_filter.2 ⟨mem_definedKeys_of_isSet hset, hlead⟩, hset⟩

/-- The merged views differ exactly where the template supplies a key of the view. -/
theorem effective_withoutTemplate_eq_iff (hl : l.catalog.AllSet) :
    (l.withoutTemplate service).effective (.service service) lead =
        l.effective (.service service) lead ↔
      ∀ key, l.Supplied service key → Table.hasPrefix lead key = false := by
  constructor
  · intro heq key hkey
    rw [← Bool.not_eq_true]
    intro hlead
    obtain ⟨v, hv⟩ := hkey.exists_lookup_eq hl
    have hget : (l.effective (.service service) lead).get? key = some (.defined v .template) :=
      get?_effective_eq_some_iff.2 ⟨hlead, hv, rfl⟩
    rw [← heq, get?_effective_eq_some_iff] at hget
    exact hkey.lookup_ne hl (hget.2.1.trans hv.symm)
  · intro hkeys
    refine Table.ext fun key => Option.ext fun c => ?_
    rw [get?_effective_eq_some_iff, get?_effective_eq_some_iff]
    refine and_congr_right fun hlead => ?_
    have hnot : ¬ l.Supplied service key := by
      intro hkey
      rw [hkeys key hkey] at hlead
      exact absurd hlead (by simp)
    rw [lookup_withoutTemplate_of_not hnot]

/-- Credentials are made of three settings and of the views under their lead. -/
theorem credentials_withoutTemplate (hl : l.catalog.AllSet)
    (hkeys : ∀ key, l.Supplied service key →
      key ≠ Credentials.idKey ∧ Table.hasPrefix (some "auth.") key = false) :
    (l.withoutTemplate service).credentials service = l.credentials service := by
  have hresolve : ∀ key (t : ValueType) (fallback : t.Carrier), ¬ l.Supplied service key →
      (l.withoutTemplate service).resolve (.service service) key t fallback =
        l.resolve (.service service) key t fallback := by
    intro key t fallback hnot
    rw [resolve, resolve, lookup_withoutTemplate_of_not hnot]
  have hauth : ∀ key, Table.hasPrefix (some "auth.") key = true → ¬ l.Supplied service key := by
    intro key hlead hkey
    rw [(hkeys key hkey).2] at hlead
    exact absurd hlead (by simp)
  have hmethod := hresolve Credentials.methodKey .text "" (hauth _ (by decide +kernel))
  have hmechanism := hresolve Credentials.mechanismKey .text "" (hauth _ (by decide +kernel))
  have hid := hresolve Credentials.idKey .integer64 0 fun hkey => (hkeys _ hkey).1 rfl
  have hview : ∀ c : Credentials, (l.withoutTemplate service).effective (.service service) (some c.lead) =
      l.effective (.service service) (some c.lead) := by
    intro c
    refine (effective_withoutTemplate_eq_iff hl).2 fun key hkey => ?_
    rw [← Bool.not_eq_true]
    intro hlead
    refine hauth key ?_ hkey
    rw [Table.hasPrefix_iff] at hlead ⊢
    rintro p ⟨⟩
    refine List.IsPrefix.trans ?_ (hlead _ rfl)
    rw [Credentials.lead]
    simp only [String.toList_append, List.append_assoc]
    exact List.prefix_append _ _
  have haccount : ∀ lead, (l.withoutTemplate service).effective .account lead = l.effective .account lead :=
    (l.alikeOutside_withoutTemplate service).effective_eq (by simp)
  simp only [credentials, hmethod, hmechanism, hid, hview, haccount]

end Layers

/-- A template that another provider offers can be taken away without a difference to questions for the
account's services by type, and to the scopes of the account and of other services.  At the scope of its
own service it is seen all the same: the lookups that change are those of the keys that it has a default
for, where nothing is forced or written, and they fall back to what the account's scope sees.  The merged
views that change are those with such a key, and the credentials stay what they are where no such key is
one of theirs. -/
theorem foreign_template_is_seen_by_lookups {l : Layers} (hl : l.catalog.AllSet) {service : String}
    {t : Template} (ht : l.catalog.template? service = some t)
    (hforeign : t.offeredBy l.account.provider = false) :
    let l' := l.withoutTemplate service
    (∀ type, l'.catalog.servicesOfType l.account.provider type =
          l.catalog.servicesOfType l.account.provider type ∧
        l'.catalog.supports l.account.provider type = l.catalog.supports l.account.provider type) ∧
    (∀ scope, scope ≠ .service service →
      (∀ key, l'.lookup scope key = l.lookup scope key) ∧
        ∀ lead, l'.effective scope lead = l.effective scope lead) ∧
    (∀ other, other ≠ service → l'.credentials other = l.credentials other) ∧
    (∀ key, (l'.lookup (.service service) key = l.lookup (.service service) key ↔
          ¬ l.Supplied service key) ∧
        (l.Supplied service key →
          (∃ v, l.lookup (.service service) key = .defined v .template) ∧
            l'.lookup (.service service) key = l.lookup .account key)) ∧
    (∀ lead, l'.effective (.service service) lead = l.effective (.service service) lead ↔
      ∀ key, l.Supplied service key → Table.hasPrefix lead key = false) ∧
    ((∀ key, l.Supplied service key →
        key ≠ "credentials_id" ∧ Table.hasPrefix (some "auth.") key = false) →
      l'.credentials service = l.credentials service) := by
  intro l'
  have halike := l.alikeOutside_withoutTemplate service
  refine ⟨fun type => ?_, fun scope hscope => ⟨halike.lookup_eq hscope, halike.effective_eq hscope⟩,
    fun other hother => halike.credentials_eq hother,
    fun key => ⟨Layers.lookup_withoutTemplate_eq_iff hl,
      fun h => ⟨h.exists_lookup_eq hl, h.lookup_withoutTemplate⟩⟩,
    fun lead => Layers.effective_withoutTemplate_eq_iff hl, Layers.credentials_withoutTemplate hl⟩
  have hnot : t.supplies l.account.provider type = false := by
    rw [Template.supplies, hforeign, Bool.and_false]
  have hfilter : (l'.catalog.templates.filter fun _ t => t.supplies l.account.provider type) =
      l.catalog.templates.filter fun _ t => t.supplies l.account.provider type :=
    Catalog.filter_withoutTemplate ht hnot
  constructor
  · rw [Catalog.servicesOfType_eq, Catalog.servicesOfType_eq, hfilter]
  · rw [Catalog.supports_eq, Catalog.supports_eq, hfilter]

/-- An account of another provider than the template's sees the interval of the template, and not the
general one.  The address is the account's own, so that the template does not supply it. -/
theorem foreign_template_is_seen_by_lookups_of_defaults :
    let settings : Std.ExtTreeMap String Yaml.Datum :=
      ((∅ : Std.ExtTreeMap String Yaml.Datum).insert "interval" (.integer 300)).insert "host"
        (.text "sync.test")
    let d : Definitions :=
      { defaults := (∅ : Std.ExtTreeMap String Yaml.Datum).insert "interval" (.integer 900)
        services := (∅ : Std.ExtTreeMap String ServiceDefinition).insert "sync"
          { provider := some "twitter", type := some "sync", settings } }
    let catalog := (Catalog.ofDefinitions d).toOption.getD {}
    let as : List Action := [.create "google",
      .edit 1 (.write .account "host" (.text "own.test") (some .account))]
    let s := (System.start { catalog } ∅).run as
    let l := s.vault.layers ((s.vault.account? 1).getD { provider := "" })
    let l' := l.withoutTemplate "sync"
    l'.catalog.supports "google" "sync" = l.catalog.supports "google" "sync" ∧
      l.lookup (.service "sync") "interval" = .defined (.integer 300) .template ∧
      l'.lookup (.service "sync") "interval" = .defined (.integer 900) .globalDefault ∧
      l'.lookup (.service "sync") "host" = l.lookup (.service "sync") "host" := by
  intro settings d catalog as s l l'
  have hd : Catalog.ofDefinitions d = .ok catalog := by decide +kernel
  have ht : l.catalog.template? "sync" =
      some ((l.catalog.template? "sync").getD { name := "" }) := by decide +kernel
  obtain ⟨htypes, -, -, hlookups, -⟩ :=
    foreign_template_is_seen_by_lookups (l := l) (Catalog.allSet_ofDefinitions hd) ht (by decide +kernel)
  have hinterval : l.Supplied "sync" "interval" :=
    ⟨by decide +kernel, by decide +kernel, by decide +kernel, by decide +kernel⟩
  have hhost : ¬ l.Supplied "sync" "host" := by
    intro h
    exact absurd h.written (by decide +kernel)
  refine ⟨(htypes "sync").2, by decide +kernel, ?_, (hlookups "host").1.2 hhost⟩
  rw [((hlookups "interval").2 hinterval).2]
  decide +kernel

/-- Without a template that is offered to accounts of another provider only, an account sees another
value, another view, and has no credentials any more. -/
theorem foreign_template_supplies_credentials :
    let settings : Std.ExtTreeMap String Yaml.Datum :=
      ((∅ : Std.ExtTreeMap String Yaml.Datum).insert "auth.method" (.text "password")).insert
        "auth.mechanism" (.text "plain")
    let d : Definitions :=
      { services := (∅ : Std.ExtTreeMap String ServiceDefinition).insert "sync"
          { provider := some "twitter", settings } }
    let catalog := (Catalog.ofDefinitions d).toOption.getD {}
    let s := (System.start { catalog } ∅).run [.create "google"]
    let l := s.vault.layers ((s.vault.account? 1).getD { provider := "" })
    let l' := l.withoutTemplate "sync"
    (l.catalog.template? "sync").map (·.offeredBy l.account.provider) = some false ∧
      l'.lookup (.service "sync") "auth.method" ≠ l.lookup (.service "sync") "auth.method" ∧
      l'.effective (.service "sync") none ≠ l.effective (.service "sync") none ∧
      (l.credentials "sync").toOption.join.isSome = true ∧
      (l'.credentials "sync").toOption.join.isSome = false := by
  intro settings d catalog s l l'
  exact ⟨by decide +kernel, by decide +kernel, by decide +kernel, by decide +kernel, by decide +kernel⟩

end AccountVault
