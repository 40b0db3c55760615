import AccountVault.Proofs.Sessions
import AccountVault.Proofs.Setting.Making
import AccountVault.Proofs.System.Filling

/-!
# What tables hold

No table ever holds an unset cell, however it is made (`Proofs.Setting.Making`) and wherever it lies.
A vault that opens holds only tables whose cells are set, and so it does after every run
(`Vault.Filled.allSet_of_holds`).  So the record of a table keeps all of it.  Of the records that are read,
one with a value from nowhere is refused as a whole (`Record.toAccount_of_not_allSourced`), and every other
is rebuilt with its keys.  Main statement: `tables_hold_set_cells`.
-/

namespace AccountVault

/-! ### Records that are refused -/

section

variable {ε α β : Type} {e : ε}

theorem mapM_ne_error {f : α → Except ε β} (h : ∀ a, f a ≠ .error e) (l : List α) :
    l.mapM f ≠ .error e := by
  induction l with
  | nil => exact except_pure_ne_error
  | cons a l ih =>
    rw [List.mapM_cons]
    refine except_bind_ne_error (h a) fun b => ?_
    exact except_bind_ne_error ih fun _ => except_pure_ne_error

theorem foldlM_ne_error {f : β → α → Except ε β} (h : ∀ b a, f b a ≠ .error e) (l : List α) (b : β) :
    l.foldlM f b ≠ .error e := by
  induction l generalizing b with
  | nil => exact except_pure_ne_error
  | cons a l ih =>
    rw [List.foldlM_cons]
    exact except_bind_ne_error (h b a) ih

end

namespace Record

variable {e : Problem}

theorem toTable_ne_error (he : e ≠ .persistence .corrupt) (m : Std.ExtTreeMap String StoredCell) :
    toTable m ≠ .error e := by
  have hcell : ∀ s : StoredCell, s.toCell ≠ .error e := by
    intro s hs
    rw [StoredCell.toCell] at hs
    split at hs <;> cases hs
    exact he rfl
  have hpair : ∀ p : String × StoredCell,
      (do return (p.1, ← p.2.toCell) : Except Problem (String × Cell)) ≠ .error e := fun p =>
    except_bind_ne_error (hcell p.2) fun _ => except_pure_ne_error
  exact except_bind_ne_error (mapM_ne_error hpair _) fun _ => except_pure_ne_error

/-- A record is refused for one reason only. -/
theorem toAccount_ne_error (he : e ≠ .persistence .corrupt) (r : Record) : r.toAccount ≠ .error e := by
  have hadd : ∀ m p, addBinding m p ≠ .error e := by
    intro m p
    refine except_bind_ne_error ?_ fun _ => except_pure_ne_error
    exact except_bind_ne_error (toTable_ne_error he p.2.settings) fun _ => except_pure_ne_error
  rw [toAccount_eq]
  refine except_bind_ne_error (toTable_ne_error he r.settings) fun settings => ?_
  exact except_bind_ne_error (foldlM_ne_error hadd _ _) fun _ => except_pure_ne_error

/-- A record with a value from nowhere is corrupt, and nothing is rebuilt from it. -/
theorem toAccount_of_not_allSourced {r : Record} (h : ¬ r.AllSourced) :
    r.toAccount = .error (.persistence .corrupt) := by
  cases hr : r.toAccount with
  | ok a => exact absurd (toAccount_eq_ok_iff.1 hr).1 h
  | error e =>
    by_contra hne
    exact toAccount_ne_error (fun he => hne (congrArg Except.error he)) r hr

/-- An account that is rebuilt has the keys of the record in each of its tables, and its services. -/
theorem exists_toAccount_keys {r : Record} (h : r.AllSourced) : ∃ a, r.toAccount = .ok a ∧
    a.settings.keys = r.settings.keys ∧ a.services = r.services.keys ∧
    ∀ (name : String) (b : BindingRecord), r.services[name]? = some b →
      (a.settingsOf (.service name)).keys = b.settings.keys := by
  refine ⟨r.account, toAccount_of_allSourced h, Std.ExtTreeMap.keys_map, Std.ExtTreeMap.keys_map, ?_⟩
  intro name b hb
  have hbound : r.account.bindings[name]? = some (binding name b) := by
    rw [account, Std.ExtTreeMap.getElem?_map, hb]
    rfl
  rw [Account.settingsOf, hbound]
  exact Std.ExtTreeMap.keys_map

end Record

/-! ### Tables that lie in a vault -/

/-- A table of declared defaults. -/
inductive Catalog.Holds (c : Catalog) : Table → Prop
  | globals : Holds c c.globals
  | provider {name : String} {p : Provider} (h : c.provider? name = some p) : Holds c p.defaults
  | template {service : String} {t : Template} (h : c.template? service = some t) : Holds c t.defaults

/-- A table that lies in a vault, or the merged view of a scope of one of its accounts. -/
inductive Vault.Holds (v : Vault) : Table → Prop
  | declared {t : Table} (h : v.catalog.Holds t) : Holds v t
  | forced {service : String} {t : Table} (h : v.overrides.tables[service]? = some t) : Holds v t
  | account {id : AccountId} {a : Account} (h : v.account? id = some a) : Holds v a.settings
  | service {id : AccountId} {a : Account} {name : String} {b : Binding} (h : v.account? id = some a)
    (hb : a.bindings[name]? = some b) : Holds v b.settings
  | merged {id : AccountId} {a : Account} (h : v.account? id = some a) (scope : Scope)
    (lead : Option String) : Holds v ((v.layers a).effective scope lead)

theorem Catalog.AllSet.of_holds {c : Catalog} (h : c.AllSet) {t : Table} (ht : c.Holds t) : t.AllSet := by
  cases ht with
  | globals => exact h.globals
  | provider hp => exact h.providers _ _ hp
  | template ht => exact h.templates _ _ ht

theorem Vault.Filled.allSet_of_holds {v : Vault} (h : v.Filled) {t : Table} (ht : v.Holds t) :
    t.AllSet := by
  cases ht with
  | declared ht => exact h.catalog.of_holds ht
  | @forced service t ht =>
    have htable : v.overrides.table service = t := by rw [Overrides.table, ht, Option.getD_some]
    exact htable ▸ h.forced service
  | account ha => exact (h.accounts _ _ ha).settings
  | service ha hb => exact ((h.accounts _ _ ha).bindings _ _ hb).2
  | merged => exact Table.allSet_ofList _

/-- Cells and tables are made on a bench by any steps, of loose cells and of cells alike: a loose cell has
no value exactly if it has no source, and every cell of a table has both.  Of the tables of declared
defaults, of those that lie in a vault after any run, whatever storage it was opened on, and of the merged
views of its accounts, every cell has a value and a source, and the record of the table keeps all of it.  A
record is rebuilt with its own keys in each table, or, with a value from nowhere anywhere in it, not at
all. -/
theorem tables_hold_set_cells :
    (∀ steps : List Bench.Step,
      let b := Craft.loose.run steps
      let firm := Craft.firm.run steps
      (∀ i, b.cells i = (firm.cells i).loosen ∧
        ((b.cells i).value = none ↔ (b.cells i).source = none)) ∧
      ∀ i, b.tables i = (firm.tables i).loosen ∧
        (∀ (key : String) (c : LooseCell), (b.tables i)[key]? = some c →
          c.value ≠ none ∧ c.source ≠ none) ∧
        LooseTable.toRecord (b.tables i) = Record.ofTable (firm.tables i) ∧ (firm.tables i).Solid) ∧
    (∀ catalog : Catalog, catalog.Declared → ∀ t, catalog.Holds t → t.Solid) ∧
    (∀ {σ : Type} (ask : Request → StateM σ (Except Fault Reply)) (before : σ) (options : Options)
      (catalog : Catalog) (v : Vault), catalog.Declared →
      ((Vault.opening ask options catalog).run before).1 = .ok v →
      ∀ (c : Contents) (as : List Action) (t : Table),
        ((System.start v c).run as).vault.Holds t → t.Solid) ∧
    ∀ r : Record,
      (r.AllSourced → ∃ a, r.toAccount = .ok a ∧ a.settings.keys = r.settings.keys ∧
        a.services = r.services.keys ∧
        ∀ (name : String) (b : BindingRecord), r.services[name]? = some b →
          (a.settingsOf (.service name)).keys = b.settings.keys) ∧
      (¬ r.AllSourced → r.toAccount = .error (.persistence .corrupt)) := by
  refine ⟨fun steps => ?_, ?_, ?_, fun r => ⟨Record.exists_toAccount_keys, ?_⟩⟩
  · intro b firm
    have hloose : b = firm.loosen := (Bench.loosen_run steps).symm
    rw [hloose]
    refine ⟨fun i => ⟨rfl, Cell.value_loosen_eq_none_iff _⟩, fun i => ?_⟩
    have hset : (firm.tables i).AllSet := Bench.allSet_run steps i
    exact ⟨rfl, fun key c hc => hset.of_loosen hc, Table.toRecord_loosen _, hset.solid⟩
  · intro catalog hc t ht
    exact (hc.allSet.of_holds ht).solid
  · intro σ ask before options catalog v hc hv c as t ht
    have hfilled : v.Filled := Vault.filled_of_opening hc before v hv
    have hrun : ((System.start v c).run as).vault.Filled := System.filled_run hfilled as
    exact (hrun.allSet_of_holds ht).solid
  · exact Record.toAccount_of_not_allSourced

/-- On a bench a write without a source is refused, and setting a cell that was retagged as from nowhere
removes the key.  In a vault with declared defaults, an override and a loaded account the merged view of a
service shows what each layer has, and the record of what was written to the service keeps it.  A record
with one value from nowhere is refused. -/
theorem tables_hold_set_cells_of_run :
    let steps : List Bench.Step := [.write 0 (.integer 1) (some .account), .set 0 "a" 0, .set 0 "b" 0,
      .write 0 (.text "x") none, .retag 1 0 none, .set 0 "a" 1]
    let made := (Craft.firm.run steps).tables 0
    let ds : List Declaration :=
      [.providerDefault "acme" "size" (.integer 1), .serviceDefault "mail" "port" (.integer 465)]
    let catalog := (({} : Catalog).declareAll ds).toOption.getD {}
    let settings := Table.ofList [("color", .defined (.text "red") .account), ("shape", .unset)]
    let loaded : Account := { provider := "acme", state := .saved, settings }
    let c := Contents.single 3 loaded none
    let as : List Action := [.setOverride "mail" "host" (.text "h"),
      .edit 3 (.write (.service "mail") "port" (.integer 9) (some .template))]
    let stored := (∅ : Std.ExtTreeMap String StoredCell).insert "k" ⟨none, .boolean true⟩
    let corrupt : Record := { id := 3, provider := "acme", enabled := false, settings := stored }
    made.keys = ["b"] ∧ made.Solid ∧
      (∃ v, c.opened {} catalog = .ok v ∧
        let s := (System.start v c).run as
        ∃ a b, s.vault.account? 3 = some a ∧ a.bindings["mail"]? = some b ∧
          (Record.ofTable b.settings).keys = ["port"] ∧
          ((s.vault.layers a).effective (.service "mail") none).keys =
            ["color", "host", "port", "size"] ∧
          ((s.vault.layers a).effective (.service "mail") none).Solid) ∧
      corrupt.toAccount = .error (.persistence .corrupt) := by
  intro steps made ds catalog settings loaded c as stored corrupt
  obtain ⟨hbench, -, hvault, hrecord⟩ := tables_hold_set_cells
  have hdeclared : catalog.Declared := ⟨{}, ds, .inl rfl, by decide +kernel⟩
  have htidy : loaded.Tidy := ⟨Table.allSet_ofList _, (Account.tidy_saved "acme").bindings⟩
  let v := Vault.ofAccounts {} catalog ((∅ : Std.ExtTreeMap AccountId Account).insert 3 loaded) (3 + 1) none
  have hv : c.opened {} catalog = .ok v :=
    Contents.opened_single_of_checkKeys (by decide +kernel) htidy rfl (by decide) none
  have ha : ((System.start v c).run as).vault.account? 3 = some _ := rfl
  have hsolid := hvault Contents.ask c {} catalog v hdeclared hv c as
  have hkept := (hsolid _ (@Vault.Holds.service _ _ _ "mail" _ ha rfl)).keys
  have hcorrupt : ¬ corrupt.AllSourced := fun h =>
    h.settings "k" ⟨none, .boolean true⟩ Std.ExtTreeMap.getElem?_insert_self rfl
  refine ⟨by decide +kernel, ((hbench steps).2 0).2.2.2, ⟨v, hv, _, _, ha, rfl, ?_, ?_, ?_⟩,
    (hrecord corrupt).2 hcorrupt⟩
  · rw [hkept]
    decide +kernel
  · decide +kernel
  · exact hsolid _ (.merged ha (.service "mail") none)

end AccountVault
