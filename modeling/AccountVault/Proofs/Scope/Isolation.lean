import AccountVault.Proofs.Account.Edits
import AccountVault.Proofs.Catalog.Declared
import AccountVault.Vault.Query

/-!
# Isolation of scopes

A change to the scope of one service can be made through an account, an override or a template
(`ServiceChange`).  Two vaults that differ in the scope of one service only (`Vault.AlikeOutside`) look
alike from the scope of an account and from those of other services, and such a change leads from one to
the other; an edit of one account leaves all that the others see.  Main statement:
`scopes_are_isolated`.
-/

namespace AccountVault

/-! ### Templates and their names -/

namespace Catalog

/-- Every template is kept under its own name. -/
def Named (c : Catalog) : Prop := ∀ service t, c.template? service = some t → t.name = service

variable {c c' : Catalog}

theorem Named.putTemplate (h : c.Named) (t : Template) : (c.putTemplate t).Named := by
  intro service u hu
  rw [template?_putTemplate] at hu
  split at hu
  · cases hu
    assumption
  · exact h service u hu

theorem Named.name_templateOrNew (h : c.Named) (service : String) :
    (c.templateOrNew service).name = service := by
  rw [templateOrNew]
  cases ht : c.template? service with
  | none => rfl
  | some t => exact h service t ht

theorem Named.declare (h : c.Named) {d : Declaration} (hd : c.declare d = .ok c') : c'.Named := by
  obtain ⟨-, rfl⟩ := declare_eq_ok_iff.1 hd
  cases d with
  | globalDefault key value => exact h
  | providerDefault provider key value => exact h
  | serviceDefault service key value => exact h.putTemplate _
  | serviceType service type => exact h.putTemplate _

/-- A definition of a service puts one template, under the name of the service. -/
theorem exists_of_defineService {name : String} {s : ServiceDefinition}
    (hd : c.defineService name s = .ok c') :
    ∃ t : Template, t.name = name ∧ c' = c.putTemplate t := by
  obtain ⟨-, -, defaults, -, rfl⟩ := defineService_eq_ok_iff.1 hd
  exact ⟨_, rfl, rfl⟩

theorem Declared.named (h : c.Declared) : c.Named :=
  fun service t ht => (h.regular.templates service t ht).name_eq

/-- Two catalogs that differ in the template of one service at most. -/
structure AlikeOutside (service : String) (c c' : Catalog) : Prop where
  globals : c'.globals = c.globals
  providers : c'.providers = c.providers
  templates : ∀ name, name ≠ service → c'.template? name = c.template? name

theorem AlikeOutside.refl (service : String) (c : Catalog) : c.AlikeOutside service c :=
  ⟨rfl, rfl, fun _ _ => rfl⟩

theorem AlikeOutside.trans {service : String} {c'' : Catalog} (h : c.AlikeOutside service c')
    (h' : c'.AlikeOutside service c'') : c.AlikeOutside service c'' :=
  ⟨h'.globals.trans h.globals, h'.providers.trans h.providers,
    fun name hn => (h'.templates name hn).trans (h.templates name hn)⟩

theorem alikeOutside_putTemplate (c : Catalog) (t : Template) :
    c.AlikeOutside t.name (c.putTemplate t) := by
  refine ⟨rfl, rfl, fun name hn => ?_⟩
  rw [template?_putTemplate, if_neg hn.symm]

end Catalog

/-! ### What is seen -/

/-- Two accounts that differ in the settings of one service at most, as far as lookups go. -/
structure Account.AlikeOutside (service : String) (a a' : Account) : Prop where
  provider : a'.provider = a.provider
  settings : ∀ scope, scope ≠ .service service → a'.settingsOf scope = a.settingsOf scope

/-- What lookups consult, before and after the scope of one service has changed. -/
structure Layers.AlikeOutside (service : String) (l l' : Layers) : Prop where
  catalog : l.catalog.AlikeOutside service l'.catalog
  overrides : ∀ name, name ≠ service → l'.overrides.table name = l.overrides.table name
  account : l.account.AlikeOutside service l'.account

namespace Layers.AlikeOutside

variable {service : String} {l l' : Layers} {scope : Scope}

theorem lookup_eq (h : l.AlikeOutside service l') (hscope : scope ≠ .service service)
    (key : String) : l'.lookup scope key = l.lookup scope key := by
  have hsettings : l'.account.settings = l.account.settings :=
    h.account.settings .account (by simp)
  have hprovider : ∀ name, l'.catalog.provider? name = l.catalog.provider? name := fun name =>
    congrArg (·[name]?) h.catalog.providers
  have hcandidates : l'.candidates scope key = l.candidates scope key := by
    cases scope with
    | account =>
      simp only [candidates, Catalog.providerDefault?, Catalog.globalDefault?, hprovider, hsettings,
        h.account.provider, h.catalog.globals]
    | service name =>
      have hname : name ≠ service := fun hn => hscope (hn ▸ rfl)
      simp only [candidates, Catalog.providerDefault?, Catalog.globalDefault?,
        Catalog.serviceDefault?, forced?, bound?, Overrides.get?, Account.stored?, hprovider,
        hsettings, h.account.provider, h.catalog.globals, h.catalog.templates name hname,
        h.overrides name hname, h.account.settings _ hscope]
  rw [lookup, hcandidates, lookup]

theorem definedKeys_eq (h : l.AlikeOutside service l') (hscope : scope ≠ .service service) :
    l'.definedKeys scope = l.definedKeys scope := by
  have hsettings : l'.account.settings = l.account.settings :=
    h.account.settings .account (by simp)
  have hprovider : ∀ name, l'.catalog.provider? name = l.catalog.provider? name := fun name =>
    congrArg (·[name]?) h.catalog.providers
  cases scope with
  | account =>
    simp only [definedKeys, hprovider, hsettings, h.account.provider, h.catalog.globals]
  | service name =>
    have hname : name ≠ service := fun hn => hscope (hn ▸ rfl)
    simp only [definedKeys, hprovider, hsettings, h.account.provider, h.catalog.globals,
      h.catalog.templates name hname, h.overrides name hname, h.account.settings _ hscope]

theorem effective_eq (h : l.AlikeOutside service l') (hscope : scope ≠ .service service)
    (lead : Option String) : l'.effective scope lead = l.effective scope lead := by
  simp only [effective, h.definedKeys_eq hscope, h.lookup_eq hscope]

theorem resolve_eq (h : l.AlikeOutside service l') (hscope : scope ≠ .service service)
    (key : String) (t : ValueType) (fallback : t.Carrier) :
    l'.resolve scope key t fallback = l.resolve scope key t fallback := by
  rw [resolve, resolve, h.lookup_eq hscope]

theorem credentials_eq (h : l.AlikeOutside service l') {other : String} (hother : other ≠ service) :
    l'.credentials other = l.credentials other := by
  have hscope : Scope.service other ≠ .service service := fun hs => hother (by cases hs; rfl)
  have haccount : Scope.account ≠ .service service := by simp
  simp only [credentials, h.resolve_eq hscope, h.effective_eq hscope, h.effective_eq haccount]

end Layers.AlikeOutside

/-! ### Changes -/

/-- A change that is confined to the scope of one service. -/
inductive ServiceChange
  | write (id : AccountId) (key : String) (value : Value) (source : Source)
  | remove (id : AccountId) (key : String)
  | setEnabled (id : AccountId) (on : Bool)
  | bind (id : AccountId)
  | setOverride (key : String) (value : Value)
  | clearOverride (key : String)
  | declareDefault (key : String) (value : Value)
  | declareType (type : String)
  /-- The template is replaced by the one that a document defines. -/
  | define (s : ServiceDefinition)

namespace Vault

/-- The vault after something that was asked of it; what is refused changes nothing. -/
def orSame (v : Vault) : Except Problem Vault → Vault
  | .ok v' => v'
  | .error _ => v

def tryEdit (v : Vault) (id : AccountId) (e : Edit) : Vault := v.orSame ((v.edit id e).map (·.1))

/-- The vault with another catalog, if that could be made. -/
def tryCatalog (v : Vault) (r : Except Problem Catalog) : Vault :=
  v.orSame (r.map fun catalog => { v with catalog })

def change (v : Vault) (service : String) : ServiceChange → Vault
  | .write id key value source => v.tryEdit id (.write (.service service) key value source)
  | .remove id key => v.tryEdit id (.remove (.service service) key)
  | .setEnabled id on => v.tryEdit id (.setServiceEnabled service on)
  | .bind id => v.tryEdit id (.bind service)
  | .setOverride key value => v.orSame (v.setOverride service key value)
  | .clearOverride key => (v.clearOverride service key).1
  | .declareDefault key value => v.tryCatalog (v.catalog.declare (.serviceDefault service key value))
  | .declareType type => v.tryCatalog (v.catalog.declare (.serviceType service type))
  | .define s => v.tryCatalog (v.catalog.defineService service s)

/-- What can be told of an account from all that its lookups consult. -/
def seen {α : Type} (v : Vault) (id : AccountId) (f : Layers → α) : Option α :=
  (v.account? id).map fun a => f (v.layers a)

variable {v v' v'' : Vault} {service : String} {id : AccountId} {e : Edit}

/-- An edit that is accepted puts another account in the place of the one that was there. -/
theorem exists_edited_of_edit {found : Bool} (h : v.edit id e = .ok (v', found)) :
    ∃ a a', v.account? id = some a ∧ a.Edited e a' ∧ v' = v.putAccount id a' := by
  rw [edit] at h
  cases ha : v.account? id with
  | none =>
    rw [ha] at h
    exact absurd h (by simp)
  | some a =>
    simp only [ha, except_bind_eq_ok_iff] at h
    obtain ⟨⟨a', found'⟩, he, h⟩ := h
    cases h
    exact ⟨a, a', rfl, (Account.edited_of_edit he).2, rfl⟩

theorem tryEdit_cases (v : Vault) (id : AccountId) (e : Edit) :
    v.tryEdit id e = v ∨
      ∃ a a', v.account? id = some a ∧ a.Edited e a' ∧ v.tryEdit id e = v.putAccount id a' := by
  rw [tryEdit]
  cases he : v.edit id e with
  | error e => exact Or.inl rfl
  | ok r => exact Or.inr (exists_edited_of_edit he)

/-- Two vaults that differ in the scope of one service at most, as far as lookups go. -/
structure AlikeOutside (service : String) (v v' : Vault) : Prop where
  catalog : v.catalog.AlikeOutside service v'.catalog
  overrides : ∀ name, name ≠ service → v'.overrides.table name = v.overrides.table name
  accounts : ∀ id, (v.account? id).Rel (Account.AlikeOutside service) (v'.account? id)

namespace AlikeOutside

theorem of_accounts (hc : v.catalog.AlikeOutside service v'.catalog)
    (ho : ∀ name, name ≠ service → v'.overrides.table name = v.overrides.table name)
    (ha : ∀ id, v'.account? id = v.account? id) : v.AlikeOutside service v' := by
  refine ⟨hc, ho, fun id => ?_⟩
  rw [ha]
  cases v.account? id with
  | none => exact .none
  | some a => exact .some ⟨rfl, fun _ _ => rfl⟩

theorem refl (service : String) (v : Vault) : v.AlikeOutside service v :=
  of_accounts (.refl service _) (fun _ _ => rfl) fun _ => rfl

theorem trans (h : v.AlikeOutside service v') (h' : v'.AlikeOutside service v'') :
    v.AlikeOutside service v'' := by
  refine ⟨h.catalog.trans h'.catalog,
    fun name hn => (h'.overrides name hn).trans (h.overrides name hn), fun id => ?_⟩
  have hid := h.accounts id
  have hid' := h'.accounts id
  generalize v.account? id = o at hid
  generalize v'.account? id = o' at hid hid'
  generalize v''.account? id = o'' at hid'
  cases hid with
  | none => exact hid'
  | some ha =>
    cases hid' with
    | some ha' =>
      exact .some ⟨ha'.provider.trans ha.provider,
        fun scope hs => (ha'.settings scope hs).trans (ha.settings scope hs)⟩

theorem seen_eq {α : Type} {f : Layers → α} (h : v.AlikeOutside service v')
    (hf : ∀ l l', l.AlikeOutside service l' → f l' = f l) (id : AccountId) :
    v'.seen id f = v.seen id f := by
  have hid := h.accounts id
  rw [seen, seen]
  generalize v.account? id = o at hid
  generalize v'.account? id = o' at hid
  cases hid with
  | none => rfl
  | some ha => exact congrArg some (hf _ _ ⟨h.catalog, h.overrides, ha⟩)

/-- An edit of the service's own scope. -/
theorem tryEdit (he : ∀ scope key, scope ≠ .service service → e.slot ≠ .cell scope key)
    (id : AccountId) : v.AlikeOutside service (v.tryEdit id e) := by
  rcases v.tryEdit_cases id e with hsame | ⟨a, a', ha, hedited, hput⟩
  · rw [hsame]
    exact .refl service v
  · rw [hput]
    refine ⟨.refl service _, fun _ _ => rfl, fun i => ?_⟩
    rw [account?_putAccount]
    split
    · subst i
      rw [ha]
      exact .some ⟨hedited.fields.2.1, fun scope hs => Table.ext fun key =>
        hedited.stored?_eq (he scope key hs)⟩
    · cases v.account? i with
      | none => exact .none
      | some b => exact .some ⟨rfl, fun _ _ => rfl⟩

theorem tryCatalog {r : Except Problem Catalog}
    (hr : ∀ c, r = .ok c → v.catalog.AlikeOutside service c) :
    v.AlikeOutside service (v.tryCatalog r) := by
  cases r with
  | error e => exact .refl service v
  | ok c => exact .of_accounts (hr c rfl) (fun _ _ => rfl) fun _ => rfl

end AlikeOutside

theorem named_tryCatalog {r : Except Problem Catalog} (hv : v.catalog.Named)
    (hr : ∀ c, r = .ok c → c.Named) : (v.tryCatalog r).catalog.Named := by
  cases r with
  | error e => exact hv
  | ok c => exact hr c rfl

/-- A change of a service's scope leaves the vault alike outside it. -/
theorem alikeOutside_change (hv : v.catalog.Named) (service : String) (c : ServiceChange) :
    v.AlikeOutside service (v.change service c) ∧ (v.change service c).catalog.Named := by
  have hedit : ∀ id e, (v.tryEdit id e).catalog.Named := by
    intro id e
    rcases v.tryEdit_cases id e with hsame | ⟨a, a', -, -, hput⟩
    · rwa [hsame]
    · rwa [hput]
  have hdeclare : ∀ d c', v.catalog.declare d = .ok c' → c'.Named := fun d c' hd => hv.declare hd
  cases c with
  | write id key value source =>
    refine ⟨.tryEdit (fun scope key' hs => ?_) id, hedit id _⟩
    intro hslot
    cases hslot
    exact hs rfl
  | remove id key =>
    refine ⟨.tryEdit (fun scope key' hs => ?_) id, hedit id _⟩
    intro hslot
    cases hslot
    exact hs rfl
  | setEnabled id on => exact ⟨.tryEdit (fun _ _ _ => by simp [Edit.slot]) id, hedit id _⟩
  | bind id => exact ⟨.tryEdit (fun _ _ _ => by simp [Edit.slot]) id, hedit id _⟩
  | setOverride key value =>
    rw [change]
    cases hset : v.setOverride service key value with
    | error e => exact ⟨.refl service v, hv⟩
    | ok v' =>
      simp only [setOverride, except_bind_eq_ok_iff] at hset
      obtain ⟨-, -, -, -, hset⟩ := hset
      cases hset
      refine ⟨.of_accounts (.refl service _) (fun name hn => ?_) fun _ => rfl, hv⟩
      exact (Overrides.table_set ..).trans (if_neg hn.symm)
  | clearOverride key =>
    refine ⟨.of_accounts (.refl service _) (fun name hn => ?_) fun _ => rfl, hv⟩
    exact (Overrides.table_clear ..).trans (if_neg hn.symm)
  | declareDefault key value =>
    refine ⟨.tryCatalog fun c' hd => ?_, named_tryCatalog hv (hdeclare _)⟩
    obtain ⟨-, rfl⟩ := Catalog.declare_eq_ok_iff.1 hd
    have halike := v.catalog.alikeOutside_putTemplate { v.catalog.templateOrNew service with
      defaults := (v.catalog.templateOrNew service).defaults.set key (.defined value .template) }
    rwa [hv.name_templateOrNew service] at halike
  | declareType type =>
    refine ⟨.tryCatalog fun c' hd => ?_, named_tryCatalog hv (hdeclare _)⟩
    obtain ⟨-, rfl⟩ := Catalog.declare_eq_ok_iff.1 hd
    have halike := v.catalog.alikeOutside_putTemplate
      { v.catalog.templateOrNew service with type := some type }
    rwa [hv.name_templateOrNew service] at halike
  | define s =>
    refine ⟨.tryCatalog fun c' hd => ?_, named_tryCatalog hv fun c' hd => ?_⟩
    · obtain ⟨t, rfl, rfl⟩ := Catalog.exists_of_defineService hd
      exact v.catalog.alikeOutside_putTemplate t
    · obtain ⟨t, -, rfl⟩ := Catalog.exists_of_defineService hd
      exact hv.putTemplate t

theorem alikeOutside_changes (hv : v.catalog.Named) (service : String) (cs : List ServiceChange) :
    v.AlikeOutside service (cs.foldl (·.change service) v) := by
  induction cs generalizing v with
  | nil => exact .refl service v
  | cons c cs ih =>
    obtain ⟨halike, hnamed⟩ := alikeOutside_change hv service c
    exact halike.trans (ih hnamed)

/-- Edits of one account leave the options, the catalog, the overrides and the other accounts. -/
theorem tryEdits_eq (v : Vault) (id : AccountId) (es : List Edit) :
    let v' := es.foldl (·.tryEdit id) v
    v'.options = v.options ∧ v'.catalog = v.catalog ∧ v'.overrides = v.overrides ∧
      ∀ i, i ≠ id → v'.account? i = v.account? i := by
  induction es generalizing v with
  | nil => exact ⟨rfl, rfl, rfl, fun _ _ => rfl⟩
  | cons e es ih =>
    obtain ⟨hoptions, hcatalog, hoverrides, haccounts⟩ := ih (v.tryEdit id e)
    rcases v.tryEdit_cases id e with hsame | ⟨a, a', -, -, hput⟩
    · rw [hsame] at hoptions hcatalog hoverrides haccounts
      rw [List.foldl_cons, hsame]
      exact ⟨hoptions, hcatalog, hoverrides, haccounts⟩
    · rw [hput] at hoptions hcatalog hoverrides haccounts
      rw [List.foldl_cons, hput]
      refine ⟨hoptions, hcatalog, hoverrides, fun i hi => (haccounts i hi).trans ?_⟩
      rw [account?_putAccount, if_neg hi.symm]

end Vault

/-- Changes that are confined to the scope of one service leave what every account sees at its own scope
and at those of other services, under single keys and under any beginning, and the credentials of other
services.  Edits of one account leave all that the others see, and every answer about them. -/
theorem scopes_are_isolated {v : Vault} (hc : v.catalog.Declared) :
    (∀ service (cs : List ServiceChange) id,
      let v' := cs.foldl (·.change service) v
      (∀ scope, scope ≠ .service service →
        (∀ key, v'.seen id (·.lookup scope key) = v.seen id (·.lookup scope key)) ∧
          ∀ lead, v'.seen id (·.effective scope lead) = v.seen id (·.effective scope lead)) ∧
      ∀ other, other ≠ service → v'.seen id (·.credentials other) = v.seen id (·.credentials other)) ∧
    ∀ id (es : List Edit) other, other ≠ id →
      let v' := es.foldl (·.tryEdit id) v
      (∀ scope,
        (∀ key, v'.seen other (·.lookup scope key) = v.seen other (·.lookup scope key)) ∧
          ∀ lead, v'.seen other (·.effective scope lead) = v.seen other (·.effective scope lead)) ∧
      (∀ service, v'.seen other (·.credentials service) = v.seen other (·.credentials service)) ∧
      ∀ q, v'.ask other q = v.ask other q := by
  refine ⟨fun service cs id => ?_, fun id es other hother => ?_⟩
  · have halike := Vault.alikeOutside_changes hc.named service cs
    refine ⟨fun scope hscope => ⟨fun key => ?_, fun lead => ?_⟩, fun other hother => ?_⟩
    · exact halike.seen_eq (fun _ _ h => h.lookup_eq hscope key) id
    · exact halike.seen_eq (fun _ _ h => h.effective_eq hscope lead) id
    · exact halike.seen_eq (fun _ _ h => h.credentials_eq hother) id
  · obtain ⟨hoptions, hcatalog, hoverrides, haccounts⟩ := v.tryEdits_eq id es
    have hlayers : ∀ a, (es.foldl (·.tryEdit id) v).layers a = v.layers a := by
      intro a
      rw [Vault.layers, hcatalog, hoverrides, Vault.layers]
    have hseen : ∀ {α : Type} (f : Layers → α),
        (es.foldl (·.tryEdit id) v).seen other f = v.seen other f := by
      intro α f
      simp only [Vault.seen, haccounts other hother, hlayers]
    refine ⟨fun scope => ⟨fun key => hseen _, fun lead => hseen _⟩, fun service => hseen _,
      fun q => ?_⟩
    simp only [Vault.ask, Vault.live, hoptions, haccounts other hother, hlayers]

/-- What is written, forced and declared for one service is seen there, and another service of the same
account sees what it saw. -/
theorem scopes_are_isolated_of_override :
    let ds : List Declaration :=
      [.serviceDefault "mail" "host" (.text "a"), .serviceDefault "chat" "host" (.text "b")]
    let catalog := (({} : Catalog).declareAll ds).toOption.getD {}
    let cs : List ServiceChange := [.bind 1, .write 1 "port" (.integer 25) (some .account),
      .declareDefault "size" (.integer 9), .setOverride "host" (.text "c")]
    let v := Vault.putAccount { catalog } 1 { provider := "acme" }
    let v' := cs.foldl (·.change "mail") v
    v'.seen 1 (·.lookup (.service "mail") "host") = some (.defined (.text "c") .application) ∧
      v'.seen 1 (·.lookup (.service "chat") "host") = some (.defined (.text "b") .template) ∧
      v'.seen 1 (·.lookup (.service "chat") "port") = some .unset ∧
      (v'.tryEdit 2 (.rename "x")).seen 1 (·.lookup (.service "mail") "host") =
        some (.defined (.text "c") .application) := by
  intro ds catalog cs v v'
  have hc : v.catalog.Declared := ⟨{}, ds, .inl rfl, by decide +kernel⟩
  have hc' : v'.catalog.Declared :=
    ⟨{}, ds ++ [.serviceDefault "mail" "size" (.integer 9)], .inl rfl, by decide +kernel⟩
  obtain ⟨hother, -⟩ := (scopes_are_isolated hc).1 "mail" cs 1
  obtain ⟨hchat, -⟩ := hother (.service "chat") (by decide)
  obtain ⟨hedit, -⟩ := (scopes_are_isolated hc').2 2 [.rename "x"] 1 (by decide)
  have hmail : v'.seen 1 (·.lookup (.service "mail") "host") =
      some (.defined (.text "c") .application) := by decide +kernel
  refine ⟨hmail, ?_, ?_, ?_⟩
  · exact (hchat "host").trans (by decide +kernel)
  · exact (hchat "port").trans (by decide +kernel)
  · exact ((hedit (.service "mail")).1 "host").trans hmail

end AccountVault
