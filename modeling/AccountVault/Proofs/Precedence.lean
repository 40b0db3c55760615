import AccountVault.Proofs.Desk.Life
import AccountVault.Proofs.Scope.Ranking
import AccountVault.Proofs.System.Frames

/-!
# Layers over runs

The writes of a run are what its actions put under keys, on an account and in the overrides, or took away
(`System.writes`).  As long as every write on the account is from the layer of its own scope, the account
and the overrides hold what was written last (`System.Recorded`).  Main statement:
`resolve_finds_strongest`, by which a question finds what was written last to the strongest layer, and
the removal of that uncovers the layer below.
-/

namespace AccountVault

/-- Where a value can be written. -/
inductive Target
  /-- On a scope of an account. -/
  | own (scope : Scope)
  /-- Among what the application forces for a service. -/
  | forced (service : String)
  deriving DecidableEq, Repr

/-- A value put at a target under a key, or the removal of what is there. -/
structure Write where
  target : Target
  key : String
  value : Option Value
  deriving DecidableEq, Repr

namespace Action

/-- What an action writes that matters to an account. -/
def write? (id : AccountId) : Action → Option Write
  | edit i (.write scope key value _) => if i = id then some ⟨.own scope, key, some value⟩ else none
  | edit i (.remove scope key) => if i = id then some ⟨.own scope, key, none⟩ else none
  | setOverride service key value => some ⟨.forced service, key, some value⟩
  | clearOverride service key => some ⟨.forced service, key, none⟩
  | _ => none

/-- An action that writes on an account does so from the layer of the scope. -/
def IsPlain (id : AccountId) (a : Action) : Prop :=
  ∀ scope key value source, a = .edit id (.write scope key value source) → source = some scope.layer

end Action

/-- The value that was written last at a target under a key, unless it was removed after that. -/
def lastWrite (ws : List Write) (target : Target) (key : String) : Option Value :=
  (ws.reverse.find? fun w => w.target = target ∧ w.key = key).bind (·.value)

/-- What each layer holds under a key for a scope after some writes: the defaults of a catalog, the
account's provider's among them, and what was written last. -/
def heldAfter (catalog : Catalog) (provider : String) (ws : List Write) (scope : Scope)
    (key : String) : Layer → Option Value
  | .application => scope.service?.bind fun service => lastWrite ws (.forced service) key
  | .service => scope.service?.bind fun service => lastWrite ws (.own (.service service)) key
  | .account => lastWrite ws (.own .account) key
  | .template => (scope.service?.bind (catalog.serviceDefault? · key)).bind Cell.value?
  | .providerDefault => (catalog.providerDefault? provider key).bind Cell.value?
  | .globalDefault => (catalog.globalDefault? key).bind Cell.value?

/-- The action that takes away what a layer holds under a key for a scope; defaults stay. -/
def Layer.removal? (id : AccountId) (scope : Scope) (key : String) : Layer → Option Action
  | .application => scope.service?.map (.clearOverride · key)
  | .service => scope.service?.map fun service => .edit id (.remove (.service service) key)
  | .account => some (.edit id (.remove .account key))
  | _ => none

theorem lastWrite_concat (ws : List Write) (w : Write) (target : Target) (key : String) :
    lastWrite (ws ++ [w]) target key =
      if w.target = target ∧ w.key = key then w.value else lastWrite ws target key := by
  rw [lastWrite, List.reverse_append, List.reverse_singleton, List.singleton_append,
    List.find?_cons]
  by_cases h : w.target = target ∧ w.key = key <;> simp [h, lastWrite]

namespace System

/-- The writes that matter to an account along a run, of the actions that are possible. -/
def writes (id : AccountId) : System → List Action → List Write
  | _, [] => []
  | s, a :: as =>
    (if (s.step? a).isSome then (a.write? id).toList else []) ++ (s.step a).writes id as

variable {s s' : System} {id : AccountId} {ws : List Write} {a : Action}

/-- An account and the overrides hold what was written last. -/
structure Recorded (id : AccountId) (s : System) (ws : List Write) : Prop where
  forced : ∀ service key, s.vault.overrides.get? service key =
    (lastWrite ws (.forced service) key).map (.defined · .application)
  own : ∀ a, s.vault.account? id = some a → ∀ scope key,
    a.stored? scope key = (lastWrite ws (.own scope) key).map (.defined · scope.layer)
  absent : s.vault.account? id = none → ∀ scope key, lastWrite ws (.own scope) key = none

namespace Recorded

/-- A step that writes nothing, and leaves the overrides and all cells of the account as they are. -/
theorem congr (h : s.Recorded id ws) (hf : s'.vault.overrides = s.vault.overrides)
    (ha : ∀ b, s'.vault.account? id = some b → ∃ a, s.vault.account? id = some a ∧
      ∀ scope key, b.stored? scope key = a.stored? scope key)
    (hn : s'.vault.account? id = none → s.vault.account? id = none) : s'.Recorded id ws := by
  refine ⟨fun service key => ?_, fun b hb scope key => ?_, fun hb => h.absent (hn hb)⟩
  · rw [hf]
    exact h.forced service key
  · obtain ⟨a, hacc, hcells⟩ := ha b hb
    rw [hcells]
    exact h.own a hacc scope key

theorem of_accounts (h : s.Recorded id ws) (hf : s'.vault.overrides = s.vault.overrides)
    (ha : s'.vault.account? id = s.vault.account? id) : s'.Recorded id ws :=
  h.congr hf (fun b hb => ⟨b, ha ▸ hb, fun _ _ => rfl⟩) fun hn => ha ▸ hn

theorem of_sameData (h : s.Recorded id ws) (hv : s.vault.SameData s'.vault) :
    s'.Recorded id ws := by
  have hacc := hv.accounts id
  refine h.congr hv.overrides (fun b hb => ?_) fun hn => ?_
  · rw [hb, Option.map_some, eq_comm, Option.map_eq_some_iff] at hacc
    obtain ⟨a, ha, hset⟩ := hacc
    refine ⟨a, ha, fun scope key => ?_⟩
    have hcells : b.settled.stored? scope key = a.settled.stored? scope key := by rw [hset]
    cases scope <;> exact hcells
  · rw [hn, Option.map_none, eq_comm, Option.map_eq_none_iff] at hacc
    exact hacc

/-- A value is forced or lifted for a service. -/
theorem force (h : s.Recorded id ws) {service key : String} {o : Option Value}
    (hv : ∀ other key', s'.vault.overrides.get? other key' =
      if service = other ∧ key = key' then o.map (.defined · .application)
      else s.vault.overrides.get? other key')
    (ha : s'.vault.account? id = s.vault.account? id) :
    s'.Recorded id (ws ++ [⟨.forced service, key, o⟩]) := by
  have hown : ∀ scope key',
      lastWrite (ws ++ [⟨.forced service, key, o⟩]) (.own scope) key' =
        lastWrite ws (.own scope) key' := by
    intro scope key'
    rw [lastWrite_concat, if_neg (by simp)]
  refine ⟨fun other key' => ?_, fun a hacc scope key' => ?_, fun hn scope key' => ?_⟩
  · rw [hv, lastWrite_concat, h.forced]
    by_cases hk : service = other ∧ key = key'
    · rw [if_pos hk, if_pos ⟨by rw [hk.1], hk.2⟩]
    · rw [if_neg hk, if_neg (by simpa using hk)]
  · rw [hown]
    exact h.own a (ha ▸ hacc) scope key'
  · rw [hown]
    exact h.absent (ha ▸ hn) scope key'

/-- A value is written on the account, or removed. -/
theorem write (h : s.Recorded id ws) {a a' : Account} {scope : Scope} {key : String}
    {o : Option Value} (hacc : s.vault.account? id = some a)
    (hacc' : s'.vault.account? id = some a') (hf : s'.vault.overrides = s.vault.overrides)
    (hv : ∀ other key', a'.stored? other key' =
      if scope = other ∧ key = key' then o.map (.defined · scope.layer)
      else a.stored? other key') :
    s'.Recorded id (ws ++ [⟨.own scope, key, o⟩]) := by
  refine ⟨fun service key' => ?_, fun b hb other key' => ?_, fun hn => ?_⟩
  · rw [hf, lastWrite_concat, if_neg (by simp)]
    exact h.forced service key'
  · obtain rfl := Option.some.inj (hacc'.symm.trans hb)
    rw [hv, lastWrite_concat, h.own a hacc]
    by_cases hk : scope = other ∧ key = key'
    · rw [if_pos hk, if_pos ⟨by rw [hk.1], hk.2⟩, hk.1]
    · rw [if_neg hk, if_neg (by simpa using hk)]
  · exact absurd (hacc'.symm.trans hn) (by simp)

/-- What an edit writes is recorded. -/
theorem edit (h : s.Recorded id ws) {e : Edit} {b b' : Account}
    (hacc : s.vault.account? id = some b) (he : b.Edited e b')
    (hplain : (Action.edit id e).IsPlain id) :
    Recorded id { s with vault := s.vault.putAccount id b' }
      (ws ++ ((Action.edit id e).write? id).toList) := by
  have hacc' : (s.vault.putAccount id b').account? id = some b' := by
    rw [Vault.account?_putAccount, if_pos rfl]
  -- an edit of no cell leaves all cells as they are
  have hother : (∀ scope key, e.slot ≠ .cell scope key) →
      Recorded id { s with vault := s.vault.putAccount id b' } ws := by
    intro hslot
    refine h.congr rfl (fun c hc => ⟨b, hacc, fun scope key => ?_⟩) fun hn => ?_
    · obtain rfl := Option.some.inj (hacc'.symm.trans hc)
      exact he.stored?_eq (hslot scope key)
    · exact absurd (hacc'.symm.trans hn) (by simp)
  cases he with
  | rename | setEnabled | bind | setServiceEnabled =>
    refine (List.append_nil ws).symm ▸ hother fun scope key => ?_
    simp [Edit.slot]
  | write scope key value layer =>
    obtain rfl := Option.some.inj (hplain scope key value _ rfl)
    rw [Action.write?, if_pos rfl]
    refine h.write hacc hacc' rfl fun other key' => ?_
    rw [Account.stored?, Account.settingsOf_put]
    by_cases hs : other = scope
    · subst other
      rw [if_pos rfl, Table.get?_set, Account.stored?]
      simp
    · rw [if_neg hs, if_neg fun hk => hs hk.1.symm, Account.stored?]
  | remove scope key =>
    rw [Action.write?, if_pos rfl]
    refine h.write hacc hacc' rfl fun other key' => ?_
    rw [Account.stored?, Account.settingsOf_remove]
    by_cases hs : other = scope
    · subst other
      rw [if_pos rfl, Table.get?_erase, Account.stored?]
      simp
    · rw [if_neg hs, if_neg fun hk => hs hk.1.symm, Account.stored?]

theorem step (h : s.Recorded id ws) (hsound : s.Sound) (hplain : a.IsPlain id)
    (hs : s.step? a = some s') : s'.Recorded id (ws ++ (a.write? id).toList) := by
  -- an action that writes nothing adds nothing
  have hnil : s'.Recorded id ws → a.write? id = none →
      s'.Recorded id (ws ++ (a.write? id).toList) := by
    intro h' hw
    rw [hw, Option.toList_none, List.append_nil]
    exact h'
  cases a with
  | run | answer => exact hnil (h.of_sameData (sameData_of_task? hs rfl)) rfl
  | spawn t op =>
    cases stepped hs with
    | quiet hq => exact absurd hq (by simp [Action.isQuiet])
    | spawn => exact hnil (h.of_accounts rfl rfl) rfl
  | subscribe | unsubscribe | dispatch | cancel =>
    cases hs
    exact hnil (h.of_accounts rfl rfl) rfl
  | create provider =>
    refine hnil ?_ rfl
    cases stepped hs with
    | quiet hq => exact absurd hq (by simp [Action.isQuiet])
    | create _ hn =>
      have hget : ∀ i, Vault.account? { s.vault.putAccount s.vault.nextId { provider } with
          nextId := s.vault.nextId + 1 } i = _ := fun i => Vault.account?_putAccount ..
      by_cases hi : s.vault.nextId = id
      · -- an account under this id is new, and nothing was written on it
        have hacc : s.vault.account? id = none := by
          rw [← Option.not_isSome_iff_eq_none, ← hi]
          exact fun hsome => absurd (hsound.orderly.fresh _ hsome) (UInt64.lt_irrefl _)
        refine ⟨h.forced, fun b hb scope key => ?_, fun _ => h.absent hacc⟩
        have hnew := (hget id).symm.trans hb
        rw [if_pos hi] at hnew
        obtain rfl := Option.some.inj hnew
        rw [h.absent hacc]
        cases scope <;> simp [Account.stored?, Account.settingsOf]
      · refine h.of_accounts rfl ?_
        rw [hget, if_neg hi]
  | edit i e =>
    cases stepped hs with
    | quiet hq => exact absurd hq (by simp [Action.isQuiet])
    | @edit _ _ b b' hacc _ he =>
      by_cases hi : i = id
      · subst i
        exact h.edit hacc he hplain
      · refine hnil (h.of_accounts rfl ?_) ?_
        · rw [Vault.account?_putAccount, if_neg hi]
        · cases e with
          | write | remove => exact if_neg hi
          | _ => rfl
  | setOverride service key value =>
    obtain ⟨-, rfl⟩ := eq_of_setOverride hs
    refine h.force (fun other key' => ?_) rfl
    rw [Overrides.get?, Overrides.table_set]
    by_cases hk : service = other
    · subst other
      rw [if_pos rfl, Table.get?_set, Overrides.get?]
      simp
    · rw [if_neg hk, if_neg fun hk' => hk hk'.1, Overrides.get?]
  | clearOverride service key =>
    cases hs
    refine h.force (fun other key' => ?_) rfl
    rw [Overrides.get?, Vault.clearOverride, Overrides.table_clear]
    by_cases hk : service = other
    · subst other
      rw [if_pos rfl, Table.get?_erase, Overrides.get?]
      simp
    · rw [if_neg hk, if_neg fun hk' => hk hk'.1, Overrides.get?]

theorem run (h : s.Recorded id ws) (hsound : s.Sound) {as : List Action}
    (hplain : ∀ a ∈ as, a.IsPlain id) : (s.run as).Recorded id (ws ++ s.writes id as) := by
  induction as generalizing s ws with
  | nil =>
    rw [run_nil, writes, List.append_nil]
    exact h
  | cons a as ih =>
    rw [run_cons, writes, ← List.append_assoc]
    obtain ⟨ha, has⟩ := List.forall_mem_cons.1 hplain
    cases hs : s.step? a with
    | none =>
      rw [step_of_step?_eq_none hs]
      simpa using ih h hsound has
    | some s' =>
      rw [step_of_step? hs]
      exact ih (h.step hsound ha hs) (hsound.step hs) has

end Recorded

/-- The layers that a question about an account consults hold what the run has left in them. -/
theorem Recorded.held_eq (h : s.Recorded id ws) {b : Account} (hb : s.vault.account? id = some b)
    (scope : Scope) (key : String) :
    (s.vault.layers b).held scope key =
      heldAfter s.vault.catalog b.provider ws scope key := by
  have hvalue : ∀ (o : Option Value) (layer : Layer),
      (o.map (Cell.defined · layer)).bind Cell.value? = o := by
    intro o layer
    cases o <;> rfl
  have hforced : ∀ service, ((s.vault.layers b).forced? service key).bind Cell.value? =
      lastWrite ws (.forced service) key := by
    intro service
    rw [Layers.forced?, Vault.layers, h.forced, hvalue]
  have hown : ∀ own, (b.stored? own key).bind Cell.value? = lastWrite ws (.own own) key := by
    intro own
    rw [h.own b hb, hvalue]
  funext layer
  cases layer with
  | application =>
    cases scope with
    | account => rfl
    | service name => exact hforced name
  | service =>
    cases scope with
    | account => rfl
    | service name => exact hown (.service name)
  | account => exact hown .account
  | template | providerDefault | globalDefault => rfl

theorem Recorded.layered (h : s.Recorded id ws) (hc : s.vault.catalog.AllSet) {b : Account}
    (hb : s.vault.account? id = some b) : (s.vault.layers b).Layered := by
  refine ⟨fun service key c hcell => ?_, fun scope key c hcell => ?_, hc⟩
  · rw [Layers.forced?, Vault.layers, h.forced] at hcell
    obtain ⟨v, -, rfl⟩ := Option.map_eq_some_iff.1 hcell
    exact ⟨v, rfl⟩
  · have hstored := (h.own b hb scope key).symm.trans hcell
    obtain ⟨v, -, rfl⟩ := Option.map_eq_some_iff.1 hstored
    exact ⟨v, rfl⟩

end System

theorem Vault.ask_resolve {v : Vault} {id : AccountId} {b : Account} (hb : v.account? id = some b)
    (hlive : b.state ≠ .deleted) (scope : Scope) {key : String}
    (hkey : Key.check key v.options.keyLimit = .ok ()) (t : ValueType) (fallback : t.Carrier) :
    v.ask id (.resolve scope key t fallback) = (v.layers b).resolve scope key t fallback := by
  have hcheck : (Query.resolve scope key t fallback).check v.options.keyLimit = .ok () := hkey
  rw [ask, hcheck, live_eq_ok_iff.2 ⟨hb, hlive⟩]
  rfl

/-- What an account's scope sees is what was written last to the strongest layer. -/
theorem System.Recorded.finds {s : System} {id : AccountId} {ws : List Write}
    (h : s.Recorded id ws) (hc : s.vault.catalog.AllSet) {b : Account}
    (hb : s.vault.account? id = some b) (hlive : b.state ≠ .deleted) (scope : Scope) {key : String}
    (hkey : Key.check key s.vault.options.keyLimit = .ok ()) (t : ValueType) (fallback : t.Carrier) :
    Finds (heldAfter s.vault.catalog b.provider ws scope key) key t fallback
      (s.vault.ask id (.resolve scope key t fallback)) := by
  rw [Vault.ask_resolve hb hlive scope hkey, ← h.held_eq hb]
  exact (h.layered hc hb).resolve_finds scope key t fallback

/-! ### Removals -/

/-- What is left without the strongest layer is what the layers below it hold. -/
theorem below_eq_of_wins {held : Layer → Option Value} {l : Layer} {v : Value} (h : Wins held l v)
    (l' : Layer) : below l held l' = if l' = l then none else held l' := by
  rw [below]
  by_cases hlt : l'.rank < l.rank
  · have hne : l' ≠ l := by
      rintro rfl
      exact absurd hlt (Nat.lt_irrefl _)
    rw [if_pos hlt, if_neg hne]
  · rw [if_neg hlt]
    split
    · rfl
    · rename_i hne
      -- a stronger layer would have won
      refine (Option.not_isSome_iff_eq_none.1 fun hsome => ?_).symm
      have hrank : l'.rank = l.rank := Nat.le_antisymm (h.2 l' hsome) (Nat.le_of_not_lt hlt)
      exact hne (Layer.rank_injective hrank)

/-- What can be removed is an override of the scope's service, or what is written on a scope: on the
service, or on the account. -/
theorem Layer.of_removal? {id : AccountId} {scope : Scope} {key : String} {l : Layer} {r : Action}
    (h : l.removal? id scope key = some r) :
    (∃ name, scope = .service name ∧ l = .application ∧ r = .clearOverride name key) ∨
      ∃ own, (own = scope ∨ own = .account) ∧ l = own.layer ∧ r = .edit id (.remove own key) := by
  cases l with
  | application =>
    obtain ⟨name, hname, rfl⟩ := Option.map_eq_some_iff.1 h
    cases scope with
    | account => exact absurd hname (by simp [Scope.service?])
    | service =>
      cases hname
      exact .inl ⟨name, rfl, rfl, rfl⟩
  | service =>
    obtain ⟨name, hname, rfl⟩ := Option.map_eq_some_iff.1 h
    cases scope with
    | account => exact absurd hname (by simp [Scope.service?])
    | service =>
      cases hname
      exact .inr ⟨.service name, .inl rfl, rfl, rfl⟩
  | account =>
    obtain rfl := Option.some.inj h
    exact .inr ⟨.account, .inr rfl, rfl, rfl⟩
  | template | providerDefault | globalDefault => exact absurd h (by simp [removal?])

/-- Removing what a layer holds takes away that and nothing else. -/
theorem heldAfter_removal {id : AccountId} {scope : Scope} {key : String} {l : Layer} {r : Action}
    (hr : l.removal? id scope key = some r) (catalog : Catalog) (provider : String)
    (ws : List Write) (l' : Layer) :
    heldAfter catalog provider (ws ++ (r.write? id).toList) scope key l' =
      if l' = l then none else heldAfter catalog provider ws scope key l' := by
  rcases Layer.of_removal? hr with ⟨name, rfl, rfl, rfl⟩ | ⟨own, hown, rfl, rfl⟩
  · cases l' <;> simp [heldAfter, Action.write?, Scope.service?, lastWrite_concat]
  · have hw : ((Action.edit id (.remove own key)).write? id).toList = [⟨.own own, key, none⟩] := by
      simp [Action.write?]
    rw [hw]
    rcases hown with rfl | rfl
    · cases own <;> cases l' <;> simp [heldAfter, Scope.service?, Scope.layer, lastWrite_concat]
    · cases scope <;> cases l' <;> simp [heldAfter, Scope.service?, Scope.layer, lastWrite_concat]

/-- Under an accepted key every removal is possible, and the account stays. -/
theorem System.exists_step?_removal {s : System} {id : AccountId} {b : Account}
    (hb : s.vault.account? id = some b) (hlive : b.state ≠ .deleted) {scope : Scope} {key : String}
    (hkey : Key.check key s.vault.options.keyLimit = .ok ()) {l : Layer} {r : Action}
    (hr : l.removal? id scope key = some r) :
    ∃ s' b', s.step? r = some s' ∧ s'.vault.account? id = some b' ∧ b'.state ≠ .deleted ∧
      b'.provider = b.provider ∧ r.IsPlain id := by
  rcases Layer.of_removal? hr with ⟨name, -, -, rfl⟩ | ⟨own, -, -, rfl⟩
  · exact ⟨_, b, rfl, hb, hlive, rfl, fun _ _ _ _ h => absurd h (by simp)⟩
  · have hstep : s.step? (.edit id (.remove own key)) =
        some { s with vault := s.vault.putAccount id (b.remove own key).1 } := by
      rw [step?, Vault.edit, hb]
      simp only [Account.edit, hkey, Account.checkLive_eq_ok_iff.2 hlive]
      rfl
    have hb' : (s.vault.putAccount id (b.remove own key).1).account? id =
        some (b.remove own key).1 := by
      rw [Vault.account?_putAccount, if_pos rfl]
    obtain ⟨hstate, hprovider, -⟩ := (Account.Edited.remove (a := b) own key).fields
    refine ⟨_, _, hstep, hb', ?_, hprovider, fun _ _ _ _ h => absurd h (by simp)⟩
    rw [hstate]
    exact hlive

/-- From a vault that has just been opened, without settings on the account, a run records its
writes. -/
theorem Contents.recorded_run {c : Contents} {options : Options} {catalog : Catalog} {v : Vault}
    (hv : c.opened options catalog = .ok v) {id : AccountId}
    (hempty : ∀ a, v.account? id = some a → ∀ scope, a.settingsOf scope = ∅) {as : List Action}
    (hplain : ∀ a ∈ as, a.IsPlain id) :
    ((System.start v c).run as).Recorded id ((System.start v c).writes id as) := by
  obtain ⟨-, -, hoverrides⟩ := shared_of_opened hv
  have hstart : (System.start v c).Recorded id [] := by
    refine ⟨fun service key => ?_, fun a ha scope key => ?_, fun _ _ _ => rfl⟩
    · show v.overrides.get? service key = none
      rw [hoverrides]
      rfl
    · rw [Account.stored?, hempty a ha, Table.get?_empty]
      rfl
  exact hstart.run ((opens_of_opened hv).sound_start_run []) hplain

/-- A question for a setting under an accepted key finds what was written last to the strongest layer that
holds anything for the scope, and names that layer; it is the caller's default where no layer does.  What
the strongest layer holds can be removed unless it is a default of the catalog, and then the question
finds what the layers below it hold.  A key that is not accepted is refused. -/
theorem resolve_finds_strongest {c : Contents} {options : Options} {catalog : Catalog} {v : Vault}
    (hv : c.opened options catalog = .ok v) (hc : catalog.Declared) {id : AccountId}
    (hempty : ∀ a, v.account? id = some a → ∀ scope, a.settingsOf scope = ∅) {as : List Action}
    (hplain : ∀ a ∈ as, a.IsPlain id) {a : Account}
    (ha : ((System.start v c).run as).vault.account? id = some a) (hlive : a.state ≠ .deleted)
    (scope : Scope) (key : String) (t : ValueType) (fallback : t.Carrier) :
    let s := (System.start v c).run as
    let held := heldAfter catalog a.provider ((System.start v c).writes id as) scope key
    let q := Query.resolve scope key t fallback
    (∀ e, Key.check key options.keyLimit = .error e → s.vault.ask id q = .error e) ∧
    (Key.check key options.keyLimit = .ok () →
      Finds held key t fallback (s.vault.ask id q) ∧
      ((∃ l value, Wins held l value) ∨ ∀ l, held l = none) ∧
      ∀ l value removal, Wins held l value → l.removal? id scope key = some removal →
        ∃ s', s.step? removal = some s' ∧
          Finds (below l held) key t fallback (s'.vault.ask id q)) := by
  intro s held q
  have hsound : s.Sound := (Contents.opens_of_opened hv).sound_start_run as
  have hrecorded : s.Recorded id _ := Contents.recorded_run hv hempty hplain
  obtain ⟨hoptions, hcatalog, -⟩ := Contents.shared_of_opened hv
  have hlimit : s.vault.options = options := (System.options_run _ as).trans hoptions
  have hdefaults : s.vault.catalog = catalog := (System.catalog_run _ as).trans hcatalog
  refine ⟨fun e he => ?_, fun hkey => ⟨?_, exists_wins_or held, ?_⟩⟩
  · have hcheck : q.check s.vault.options.keyLimit = .error e := by
      rw [hlimit]
      exact he
    rw [Vault.ask, hcheck]
    rfl
  · rw [← hlimit] at hkey
    have hfinds := hrecorded.finds (hdefaults ▸ hc.allSet) ha hlive scope hkey t fallback
    rwa [hdefaults] at hfinds
  · intro l value removal hwins hremoval
    rw [← hlimit] at hkey
    obtain ⟨s', b, hstep, hb, hlive', hprovider, hplain'⟩ :=
      System.exists_step?_removal ha hlive hkey hremoval
    obtain ⟨hlimit', hdefaults'⟩ := System.shared_step hstep
    rw [← hlimit'] at hkey
    rw [hdefaults] at hdefaults'
    have hfinds := (hrecorded.step hsound hplain' hstep).finds (hdefaults' ▸ hc.allSet) hb hlive'
      scope hkey t fallback
    have hbelow : heldAfter s'.vault.catalog b.provider
        ((System.start v c).writes id as ++ (removal.write? id).toList) scope key = below l held := by
      funext l'
      rw [hdefaults', hprovider, heldAfter_removal hremoval, below_eq_of_wins hwins]
    rw [hbelow] at hfinds
    exact ⟨s', hstep, hfinds⟩

/-- An application's override wins over what the account and the template say; once it is lifted, what the
account says is found, and not the template's default, nor what was removed from the service. -/
theorem resolve_finds_strongest_of_override :
    let defaults := (∅ : Table).set "port" (.defined (.integer 465) .template)
    let catalog := ({} : Catalog).putTemplate { name := "mail", defaults }
    let c : Contents := ∅
    let v : Vault := { catalog }
    let as : List Action := [.create "acme", .setOverride "mail" "port" (.integer 1),
      .edit 1 (.write .account "port" (.integer 7) (some .account)),
      .edit 1 (.write (.service "mail") "port" (.text "8") (some .service)),
      .edit 1 (.remove (.service "mail") "port")]
    let s := (System.start v c).run as
    let q := Query.resolve (.service "mail") "port" .integer64 0
    s.vault.ask 1 q = .ok ⟨1, some .application⟩ ∧
      ∃ s', s.step? (.clearOverride "mail" "port") = some s' ∧
        s'.vault.ask 1 q = .ok ⟨7, some .account⟩ := by
  intro defaults catalog c v as s q
  have hdeclared : catalog.Declared :=
    ⟨{}, [.serviceDefault "mail" "port" (.integer 465)], .inl rfl, rfl⟩
  have hv : c.opened {} catalog = .ok v := Contents.opened_empty {} catalog (by decide +kernel)
  have hplain : ∀ a ∈ as, a.IsPlain 1 := by
    intro a ha scope key value source h
    subst h
    simp only [as, List.mem_cons, List.not_mem_nil, or_false, reduceCtorEq, false_or,
      Action.edit.injEq, Edit.write.injEq, true_and] at ha
    rcases ha with ⟨rfl, -, -, rfl⟩ | ⟨rfl, -, -, rfl⟩ <;> rfl
  have hempty : ∀ a, v.account? 1 = some a → ∀ scope, a.settingsOf scope = ∅ := fun a ha =>
    absurd ha (by simp [v, Vault.account?])
  have ha : s.vault.account? 1 = some _ := rfl
  obtain ⟨-, h⟩ := resolve_finds_strongest hv hdeclared hempty hplain ha (by decide +kernel)
    (.service "mail") "port" .integer64 0
  obtain ⟨hfinds, -, hremoval⟩ := h (by decide +kernel)
  let held := heldAfter catalog "acme" ((System.start v c).writes 1 as) (.service "mail") "port"
  have hwins : Wins held .application (.integer 1) := by
    refine ⟨by decide +kernel, fun l _ => ?_⟩
    cases l <;> decide
  have hwins' : Wins (below .application held) .account (.integer 7) := by
    refine ⟨by decide +kernel, fun l hl => ?_⟩
    have hservice : (below .application held .service).isSome = false := by decide +kernel
    cases l with
    | application => exact absurd hl (by decide)
    | service => rw [hservice] at hl; exact absurd hl (by simp)
    | _ => decide
  obtain ⟨s', hstep, hfinds'⟩ := hremoval .application _ _ hwins rfl
  exact ⟨hfinds.strongest _ _ hwins, s', hstep, hfinds'.strongest _ _ hwins'⟩

end AccountVault
