import AccountVault.Proofs.Scope.SignIn

/-!
# Sources and the order of the tables

Whoever writes a setting names its source, so that a table can hold cells that say they come from
another layer.  A lookup goes by the tables (`Layers.asked`) and looks at a source in one place only:
what a service holds from a layer below its own is asked for after what the account holds.  So the
cell that is found has the highest source of all that define the key, but for three ways in which one
table hides another (`Layers.Overruled`).  Main statement: `source_is_highest_unless_overruled`.
-/

namespace AccountVault

theorem Layer.rank_le_application (layer : Layer) : layer.rank ≤ Layer.application.rank := by
  cases layer <;> decide

theorem Cell.rank_source_le (c : Cell) : Source.rank c.source ≤ Layer.application.rank := by
  cases c with
  | unset => exact Nat.zero_le _
  | defined v layer => exact layer.rank_le_application

theorem Cell.exists_of_source {c : Cell} {layer : Layer} (h : c.source = some layer) :
    ∃ v, c = .defined v layer := by
  cases c with
  | unset => exact absurd h (by simp [source])
  | defined v layer' =>
    cases h
    exact ⟨v, rfl⟩

namespace Layers

variable {l : Layers} {scope : Scope} {key : String} {layer layer' : Layer} {c c' : Cell}

/-- What the table of a layer has under a key for a scope.  What is forced or written keeps its own
source, and what is declared has the layer for its source. -/
def cell? (l : Layers) (scope : Scope) (key : String) : Layer → Option Cell
  | .application => scope.service?.bind (l.forced? · key)
  | .service => scope.service?.bind (l.bound? · key)
  | .account => l.account.stored? .account key
  | .template => (scope.service?.bind (l.catalog.serviceDefault? · key)).map (Cell.retag .template)
  | .providerDefault =>
    (l.catalog.providerDefault? l.account.provider key).map (Cell.retag .providerDefault)
  | .globalDefault => (l.catalog.globalDefault? key).map (Cell.retag .globalDefault)

/-- The cells that define a key for a scope, one for each table that has the key. -/
def defining (l : Layers) (scope : Scope) (key : String) : List Cell :=
  Layer.descending.filterMap (l.cell? scope key)

theorem mem_defining_iff : c ∈ l.defining scope key ↔ ∃ layer, l.cell? scope key layer = some c := by
  rw [defining, List.mem_filterMap]
  exact exists_congr fun layer => and_iff_right layer.mem_descending

theorem defining_eq_nil_iff : l.defining scope key = [] ↔ ∀ layer, l.cell? scope key layer = none := by
  rw [defining, List.filterMap_eq_nil_iff]
  exact forall_congr' fun layer => forall_prop_of_true layer.mem_descending

/-! ### The order of the tables -/

/-- Whether what a service holds is asked for after what the account holds. -/
def givesWay (l : Layers) (scope : Scope) (key : String) : Bool :=
  (l.cell? scope key .service).any fun c => !isStrong c

/-- The layers in the order in which they are asked. -/
def asked (givesWay : Bool) : List Layer :=
  if givesWay then
    [.application, .account, .service, .template, .providerDefault, .globalDefault]
  else Layer.descending

/-- How early a layer is asked: by its rank, but for a service that gives way, which comes just after
the account. -/
def standing (l : Layers) (scope : Scope) (key : String) (layer : Layer) : Nat :=
  if layer = .service ∧ l.givesWay scope key = true then 2 * Layer.account.rank - 1
  else 2 * layer.rank

theorem mem_asked (givesWay : Bool) (layer : Layer) : layer ∈ asked givesWay := by
  cases givesWay <;> cases layer <;> decide

theorem pairwise_asked (l : Layers) (scope : Scope) (key : String) :
    (asked (l.givesWay scope key)).Pairwise fun layer layer' =>
      l.standing scope key layer' < l.standing scope key layer := by
  unfold standing
  cases l.givesWay scope key <;> decide

/-- A lookup finds the first cell in that order. -/
theorem lookup_eq_first (l : Layers) (scope : Scope) (key : String) :
    l.lookup scope key =
      ((asked (l.givesWay scope key)).findSome? (l.cell? scope key)).getD .unset := by
  rw [lookup]
  congr 1
  cases scope with
  | account =>
    show _ = Layer.descending.findSome? _
    simp only [candidates, Layer.descending, List.findSome?_cons, cell?, Scope.service?,
      Option.bind_none, Option.map_none]
    rfl
  | service name =>
    have hway : l.givesWay (.service name) key = (l.bound? name key).any fun c => !isStrong c := rfl
    rw [hway]
    -- the cell of the service is met once in either order, early or late
    cases hc : l.bound? name key with
    | none =>
      show _ = Layer.descending.findSome? _
      simp only [candidates, hc, Layer.descending, List.cons_append, List.nil_append,
        List.findSome?_cons, cell?, Scope.service?, Option.bind_some]
      rfl
    | some c =>
      cases hstrong : isStrong c <;>
        simp only [candidates, hc, hstrong, Option.any_some, Bool.not_true, Bool.not_false, asked,
          if_true, Bool.false_eq_true, if_false, Layer.descending, List.cons_append, List.nil_append,
          List.findSome?_cons, cell?, Scope.service?, Option.bind_some, Option.filter_some]
      · rfl
      · rfl

theorem standing_le (l : Layers) (scope : Scope) (key : String) (layer : Layer) :
    l.standing scope key layer ≤ 2 * layer.rank := by
  unfold standing
  split
  · next h =>
    rw [h.1]
    decide
  · exact Nat.le_refl _

theorem standing_of_ne_service (h : layer ≠ .service) :
    l.standing scope key layer = 2 * layer.rank :=
  if_neg fun hs => h hs.1

theorem standing_service_of_strong (hc : l.cell? scope key .service = some c)
    (hstrong : isStrong c = true) : l.standing scope key .service = 2 * Layer.service.rank := by
  simp [standing, givesWay, hc, hstrong]

theorem standing_service_of_weak (hc : l.cell? scope key .service = some c)
    (hweak : isStrong c = false) : l.standing scope key .service = 2 * Layer.account.rank - 1 := by
  simp [standing, givesWay, hc, hweak]

/-- Nothing but a weaker default is asked after a default. -/
theorem rank_le_of_declared (hlayer : layer.rank < Layer.account.rank)
    (hle : l.standing scope key layer' ≤ l.standing scope key layer) :
    layer'.rank ≤ layer.rank := by
  have hstanding := l.standing_le scope key layer
  have haccount : Layer.account.rank = 4 := rfl
  by_cases hs : layer' = .service
  · subst hs
    have hservice : 2 * Layer.account.rank - 1 ≤ l.standing scope key .service := by
      unfold standing
      split <;> decide
    omega
  · rw [standing_of_ne_service hs] at hle
    omega

theorem standing_injective (h : l.standing scope key layer = l.standing scope key layer') :
    layer = layer' := by
  revert h
  unfold standing
  cases l.givesWay scope key <;> cases layer <;> cases layer' <;> decide

theorem lookup_of_defining_eq_nil (h : l.defining scope key = []) :
    l.lookup scope key = .unset := by
  have hnone : (asked (l.givesWay scope key)).findSome? (l.cell? scope key) = none :=
    List.findSome?_eq_none_iff.2 fun layer _ => defining_eq_nil_iff.1 h layer
  rw [lookup_eq_first, hnone]
  rfl

/-- Where some table has the key, a lookup finds the cell of the one that is asked first. -/
theorem exists_first (h : l.defining scope key ≠ []) :
    ∃ layer, l.cell? scope key layer = some (l.lookup scope key) ∧
      ∀ layer', (l.cell? scope key layer').isSome →
        l.standing scope key layer' ≤ l.standing scope key layer := by
  cases hfound : (asked (l.givesWay scope key)).findSome? (l.cell? scope key) with
  | none =>
    refine absurd (defining_eq_nil_iff.2 fun layer => ?_) h
    exact List.findSome?_eq_none_iff.1 hfound layer (mem_asked _ layer)
  | some c =>
    obtain ⟨layer, -, hc, hfirst⟩ := exists_highest_of_findSome? (l.pairwise_asked scope key) hfound
    rw [lookup_eq_first, hfound]
    exact ⟨layer, hc, fun layer' => hfirst layer' (mem_asked _ layer')⟩

theorem lookup_eq_of_first (hc : l.cell? scope key layer = some c)
    (hfirst : ∀ layer', (l.cell? scope key layer').isSome →
      l.standing scope key layer' ≤ l.standing scope key layer) :
    l.lookup scope key = c := by
  have hsome : l.defining scope key ≠ [] := List.ne_nil_of_mem (mem_defining_iff.2 ⟨layer, hc⟩)
  obtain ⟨layer', hc', hfirst'⟩ := exists_first hsome
  have hle := hfirst layer' (by rw [hc']; rfl)
  have hge := hfirst' layer (by rw [hc]; rfl)
  obtain rfl := standing_injective (Nat.le_antisymm hge hle)
  rw [hc, Option.some.injEq] at hc'
  exact hc'.symm

theorem lookup_mem_defining (h : l.defining scope key ≠ []) :
    l.lookup scope key ∈ l.defining scope key := by
  obtain ⟨layer, hc, -⟩ := exists_first h
  exact mem_defining_iff.2 ⟨layer, hc⟩

/-! ### Sources -/

/-- Defaults have their layer for their source. -/
theorem exists_of_declared (h : l.catalog.AllSet) (hlayer : layer.rank < Layer.account.rank)
    (hc : l.cell? scope key layer = some c) : ∃ v, c = .defined v layer := by
  have hretag : ∀ {o : Option Cell}, (∀ c, o = some c → c.isSet = true) →
      o.map (Cell.retag layer) = some c → ∃ v, c = .defined v layer := by
    intro o ho heq
    obtain ⟨c', rfl, rfl⟩ := Option.map_eq_some_iff.1 heq
    cases c' with
    | unset => exact absurd (ho .unset rfl) (by simp)
    | defined v layer' => exact ⟨v, rfl⟩
  cases layer with
  | globalDefault => exact hretag (fun _ => h.isSet_globalDefault) hc
  | providerDefault => exact hretag (fun _ => h.isSet_providerDefault) hc
  | template =>
    refine hretag (fun c' hc' => ?_) hc
    obtain ⟨name, -, hc'⟩ := Option.bind_eq_some_iff.1 hc'
    exact h.isSet_serviceDefault hc'
  | account => exact absurd hlayer (by decide)
  | service => exact absurd hlayer (by decide)
  | application => exact absurd hlayer (by decide)

theorem AllSet.isSet_of_cell? (h : l.AllSet) (hc : l.cell? scope key layer = some c) : c.isSet = true := by
  cases layer with
  | application =>
    obtain ⟨service, -, hc⟩ := Option.bind_eq_some_iff.1 hc
    exact h.forced service key c hc
  | service =>
    obtain ⟨service, -, hc⟩ := Option.bind_eq_some_iff.1 hc
    exact h.stored (.service service) key c hc
  | account => exact h.stored .account key c hc
  | _ =>
    obtain ⟨v, rfl⟩ := exists_of_declared h.catalog (by decide) hc
    rfl

theorem AllSet.isSet_lookup_of_defining (h : l.AllSet) (hsome : l.defining scope key ≠ []) :
    (l.lookup scope key).isSet = true := by
  obtain ⟨layer, hc, -⟩ := exists_first hsome
  exact h.isSet_of_cell? hc

/-- A lookup finds nothing exactly where no table has the key. -/
theorem AllSet.lookup_eq_unset_iff (h : l.AllSet) :
    l.lookup scope key = .unset ↔ l.defining scope key = [] := by
  refine ⟨fun hunset => ?_, lookup_of_defining_eq_nil⟩
  by_contra hsome
  have hset := h.isSet_lookup_of_defining hsome
  rw [hunset] at hset
  exact absurd hset (by simp)

/-- Every cell is set, and what is forced has the application for its source.  What an account and its
services hold may be from any layer. -/
structure Tagged (l : Layers) : Prop extends l.AllSet where
  application : ∀ service key c, l.forced? service key = some c → c.source = some .application

namespace Tagged

theorem source_of_forced (h : l.Tagged) (hc : l.cell? scope key .application = some c) :
    c.source = some .application := by
  obtain ⟨service, -, hc⟩ := Option.bind_eq_some_iff.1 hc
  exact h.application service key c hc

theorem source_of_declared (h : l.Tagged) (hlayer : layer.rank < Layer.account.rank)
    (hc : l.cell? scope key layer = some c) : c.source = some layer := by
  obtain ⟨v, rfl⟩ := exists_of_declared h.catalog hlayer hc
  rfl

end Tagged

/-- The ways in which a table that is asked early hides a cell of a higher source.  What is forced is
never hidden, and hides nothing. -/
inductive Overruled (l : Layers) (scope : Scope) (key : String) : Prop
  /-- What the service holds as its own, over what the account holds as the application's. -/
  | service {v v' : Value} (hforced : l.cell? scope key .application = none)
      (hservice : l.cell? scope key .service = some (.defined v .service))
      (haccount : l.cell? scope key .account = some (.defined v' .application))
  /-- What the account holds, over what the service holds from a layer below its own, or a default. -/
  | account {layer : Layer} {c c' : Cell} (hforced : l.cell? scope key .application = none)
      (hservice : ∀ own, l.cell? scope key .service = some own → isStrong own = false)
      (haccount : l.cell? scope key .account = some c) (hother : l.cell? scope key layer = some c')
      (hlt : Source.rank c.source < Source.rank c'.source)
  /-- What the service holds from a layer below its own, over a default. -/
  | weak {layer : Layer} {c c' : Cell} (hforced : l.cell? scope key .application = none)
      (haccount : l.cell? scope key .account = none)
      (hservice : l.cell? scope key .service = some c) (hweak : isStrong c = false)
      (hother : l.cell? scope key layer = some c')
      (hlt : Source.rank c.source < Source.rank c'.source)

/-- What is found where a cell of a higher source is hidden. -/
theorem Overruled.exists_higher (h : l.Overruled scope key) :
    ∃ c ∈ l.defining scope key,
      Source.rank (l.lookup scope key).source < Source.rank c.source := by
  cases h with
  | @service v v' hforced hservice haccount =>
    have hlookup : l.lookup scope key = .defined v .service := by
      refine lookup_eq_of_first hservice fun layer hsome => ?_
      rw [standing_service_of_strong hservice rfl]
      have hle := l.standing_le scope key layer
      cases layer with
      | application => simp [hforced] at hsome
      | _ => exact Nat.le_trans hle (by decide)
    rw [hlookup]
    exact ⟨_, mem_defining_iff.2 ⟨.account, haccount⟩, Nat.lt_succ_self _⟩
  | @account layer c c' hforced hservice haccount hother hlt =>
    have hlookup : l.lookup scope key = c := by
      refine lookup_eq_of_first haccount fun layer hsome => ?_
      rw [standing_of_ne_service (show Layer.account ≠ .service by decide)]
      have hle := l.standing_le scope key layer
      cases layer with
      | application => simp [hforced] at hsome
      | service =>
        obtain ⟨own, hown⟩ := Option.isSome_iff_exists.1 hsome
        rw [standing_service_of_weak hown (hservice own hown)]
        decide
      | _ => exact Nat.le_trans hle (by decide)
    rw [hlookup]
    exact ⟨c', mem_defining_iff.2 ⟨layer, hother⟩, hlt⟩
  | @weak layer c c' hforced haccount hservice hweak hother hlt =>
    have hlookup : l.lookup scope key = c := by
      refine lookup_eq_of_first hservice fun layer hsome => ?_
      rw [standing_service_of_weak hservice hweak]
      have hle := l.standing_le scope key layer
      cases layer with
      | application => simp [hforced] at hsome
      | account => simp [haccount] at hsome
      | service => exact Nat.le_of_eq (standing_service_of_weak hservice hweak)
      | _ => exact Nat.le_trans hle (by decide)
    rw [hlookup]
    exact ⟨c', mem_defining_iff.2 ⟨layer, hother⟩, hlt⟩

/-- Nothing of a higher source is hidden in any other way. -/
theorem Tagged.overruled (h : l.Tagged) (hc' : l.cell? scope key layer' = some c')
    (hlt : Source.rank (l.lookup scope key).source < Source.rank c'.source) :
    l.Overruled scope key := by
  have hsome : l.defining scope key ≠ [] := List.ne_nil_of_mem (mem_defining_iff.2 ⟨layer', hc'⟩)
  obtain ⟨layer, hc, hfirst⟩ := exists_first hsome
  generalize l.lookup scope key = c at hc hlt
  have hle := hfirst layer' (by rw [hc']; rfl)
  have hmax := c'.rank_source_le
  have htop : Layer.application.rank = 6 := rfl
  -- a table that would have been asked before has nothing
  have hnone : ∀ {earlier}, l.standing scope key layer < l.standing scope key earlier →
      l.cell? scope key earlier = none := by
    intro earlier hearlier
    rw [← Option.not_isSome_iff_eq_none]
    exact fun hsome => Nat.not_le_of_lt hearlier (hfirst earlier hsome)
  have hforced : layer ≠ .application → l.cell? scope key .application = none := by
    intro hne
    refine hnone ?_
    have hstanding := l.standing_le scope key layer
    have hrank : layer.rank < Layer.application.rank :=
      Nat.lt_of_le_of_ne layer.rank_le_application fun heq => hne (Layer.rank_injective heq)
    rw [standing_of_ne_service (show Layer.application ≠ .service by decide)]
    omega
  have hdefault : layer.rank < Layer.account.rank → l.Overruled scope key := by
    intro hlayer
    have hrank := rank_le_of_declared hlayer hle
    rw [h.source_of_declared hlayer hc,
      h.source_of_declared (Nat.lt_of_le_of_lt hrank hlayer) hc'] at hlt
    exact absurd hrank (Nat.not_le_of_lt hlt)
  cases layer with
  | application =>
    rw [h.source_of_forced hc] at hlt
    exact absurd hmax (Nat.not_le_of_lt hlt)
  | service =>
    cases hstrong : isStrong c with
    | false =>
      refine .weak (hforced (by decide)) (hnone ?_) hc hstrong hc' hlt
      rw [standing_service_of_weak hc hstrong, standing_of_ne_service (by decide)]
      decide
    | true =>
      have hservice : Source.rank (some .service) ≤ Source.rank c.source := of_decide_eq_true hstrong
      have hrank : Source.rank (some .service) = 5 := rfl
      have happlication : Source.rank (some .application) = 6 := rfl
      have hown : c.source = some .service := Source.rank_injective (by omega)
      have hother : c'.source = some .application := Source.rank_injective (by omega)
      obtain ⟨v, rfl⟩ := Cell.exists_of_source hown
      obtain ⟨v', rfl⟩ := Cell.exists_of_source hother
      have hwritten : ¬ layer'.rank < Layer.account.rank := by
        intro hlayer'
        have hsource := h.source_of_declared hlayer' hc'
        rw [Cell.source, Option.some.injEq] at hsource
        subst hsource
        exact absurd hlayer' (by decide)
      cases layer' with
      | account => exact .service (hforced (by decide)) hc hc'
      | service => simp [hc] at hc'
      | application => simp [hforced (by decide)] at hc'
      | _ => exact absurd (by decide) hwritten
  | account =>
    refine .account (hforced (by decide)) (fun own hown => ?_) hc hc' hlt
    cases hstrong : isStrong own with
    | false => rfl
    | true =>
      have hbefore := hfirst .service (by rw [hown]; rfl)
      rw [standing_service_of_strong hown hstrong, standing_of_ne_service (by decide)] at hbefore
      exact absurd hbefore (by decide)
  | template => exact hdefault (by decide)
  | providerDefault => exact hdefault (by decide)
  | globalDefault => exact hdefault (by decide)

end Layers

/-- What is forced in a vault has the application for its source, whatever the tables of its accounts
hold. -/
theorem Contents.tagged_layers_run {c : Contents} {options : Options} {catalog : Catalog} {v : Vault}
    (hv : c.opened options catalog = .ok v) (hc : catalog.Declared) (as : List Action) {id : AccountId}
    {a : Account} (ha : ((System.start v c).run as).vault.account? id = some a) :
    (((System.start v c).run as).vault.layers a).Tagged := by
  refine ⟨allSet_layers_run hv hc as ha, ?_⟩
  refine forced_run (P := fun t => ∀ key cell, t.get? key = some cell → cell.source = some .application)
    hv ?_ ?_ ?_ as
  · intro key cell hcell
    exact absurd hcell (by simp)
  · intro t key value ht other cell hcell
    rw [Table.get?_set] at hcell
    split at hcell
    · cases hcell
      rfl
    · exact ht other cell hcell
  · intro t key ht other cell hcell
    rw [Table.get?_erase] at hcell
    split at hcell
    · exact absurd hcell (by simp)
    · exact ht other cell hcell

/-- A lookup finds nothing exactly where no table has the key, and else what the table has that is asked
first of those that have it.  The source of what is found is the highest of all cells that define the key
for the scope, unless a table hides a cell of a higher source in one of three ways, and then it is not. -/
theorem source_is_highest_unless_overruled {l : Layers} (h : l.Tagged) (scope : Scope) (key : String) :
    (l.lookup scope key = .unset ↔ l.defining scope key = []) ∧
    (l.defining scope key ≠ [] →
      ∃ layer, l.cell? scope key layer = some (l.lookup scope key) ∧
        ∀ layer', (l.cell? scope key layer').isSome →
          l.standing scope key layer' ≤ l.standing scope key layer) ∧
    ((∀ c ∈ l.defining scope key, Source.rank c.source ≤ Source.rank (l.lookup scope key).source) ↔
      ¬ l.Overruled scope key) := by
  refine ⟨h.lookup_eq_unset_iff, Layers.exists_first, ?_⟩
  constructor
  · intro hhighest hoverruled
    obtain ⟨c, hc, hlt⟩ := hoverruled.exists_higher
    exact Nat.not_le_of_lt hlt (hhighest c hc)
  · intro hnot c hc
    obtain ⟨layer, hlayer⟩ := Layers.mem_defining_iff.1 hc
    by_contra hle
    exact hnot (h.overruled hlayer (Nat.lt_of_not_le hle))

/-- What the account holds is of a higher source than what the service holds from the template's layer.
Under another key it is from the lowest layer, and hides the template's default. -/
theorem source_is_highest_unless_overruled_of_weak :
    let ds : List Declaration := [.serviceDefault "mail" "size" (.integer 1)]
    let catalog := (({} : Catalog).declareAll ds).toOption.getD {}
    let as : List Action := [.create "acme",
      .edit 1 (.write (.service "mail") "port" (.integer 10) (some .template)),
      .edit 1 (.write .account "port" (.integer 20) (some .account)),
      .edit 1 (.write .account "size" (.integer 2) (some .globalDefault))]
    let s := (System.start { catalog } ∅).run as
    let l := s.vault.layers ((s.vault.account? 1).getD { provider := "" })
    let scope := Scope.service "mail"
    l.lookup scope "port" = .defined (.integer 20) .account ∧ ¬ l.Overruled scope "port" ∧
      l.lookup scope "size" = .defined (.integer 2) .globalDefault ∧ l.Overruled scope "size" := by
  intro ds catalog as s l scope
  have hc : catalog.Declared := ⟨{}, ds, .inl rfl, by decide +kernel⟩
  have hv := Contents.opened_empty {} catalog (by decide +kernel)
  have ha : s.vault.account? 1 = some ((s.vault.account? 1).getD { provider := "" }) := rfl
  have htagged : l.Tagged := Contents.tagged_layers_run hv hc as ha
  obtain ⟨-, -, hport⟩ := source_is_highest_unless_overruled htagged scope "port"
  obtain ⟨-, -, hsize⟩ := source_is_highest_unless_overruled htagged scope "size"
  have hhidden : ¬ ∀ c ∈ l.defining scope "size",
      Source.rank c.source ≤ Source.rank (l.lookup scope "size").source := by decide +kernel
  refine ⟨by decide +kernel, hport.1 (by decide +kernel), by decide +kernel, ?_⟩
  by_contra hnot
  exact hhidden (hsize.2 hnot)

/-- What a service holds as its own is found, although the account holds a value under the key that has
the application for its source. -/
theorem source_is_below_application :
    let as : List Action := [.create "acme",
      .edit 1 (.write .account "port" (.integer 1) (some .application)),
      .edit 1 (.write (.service "mail") "port" (.integer 2) (some .service))]
    let s := (System.start {} ∅).run as
    let l := s.vault.layers ((s.vault.account? 1).getD { provider := "" })
    let scope := Scope.service "mail"
    l.Tagged ∧
      l.defining scope "port" =
        [.defined (.integer 2) .service, .defined (.integer 1) .application] ∧
      ¬ ∀ c ∈ l.defining scope "port",
        Source.rank c.source ≤ Source.rank (l.lookup scope "port").source := by
  intro as s l scope
  have hc : ({} : Catalog).Declared := ⟨{}, [], .inl rfl, rfl⟩
  have hv := Contents.opened_empty {} {} (by decide +kernel)
  have ha : s.vault.account? 1 = some ((s.vault.account? 1).getD { provider := "" }) := rfl
  exact ⟨Contents.tagged_layers_run hv hc as ha, by decide +kernel, by decide +kernel⟩

end AccountVault
