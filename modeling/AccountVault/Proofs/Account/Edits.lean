import AccountVault.Account.Edit
import AccountVault.Proofs.Account.Touches

/-!
# What edits do

An edit that is accepted changes an account by one of six operations (`Account.Edited`).  It logs what
it touches (`Edit.touch?`), it shows afterwards (`Edit.ShownIn`) until another edit of the same slot
supersedes it, and one that logs nothing at most binds services that have nothing to them
(`Account.Matches`).
-/

namespace AccountVault

def Scope.service? : Scope → Option String
  | .account => none
  | .service name => some name

namespace Edit

/-- What an edit changes about an account, if it makes a difference that is to be saved. -/
def touch? (a : Account) : Edit → Option Touch
  | rename name => if a.displayName = some name then none else some {}
  | setEnabled on => if a.enabled = on then none else some {}
  | write scope key _ _ => some { key := some key, service := scope.service? }
  | remove scope key =>
    if (a.settingsOf scope).contains key then some { key := some key, service := scope.service? }
    else none
  | bind _ => none
  | setServiceEnabled service on =>
    if a.isServiceEnabled service = on then none else some { service := some service }

/-- The part of an account that an edit sets. -/
inductive Slot
  | name
  | switch
  | cell (scope : Scope) (key : String)
  | binding (service : String)
  | serviceSwitch (service : String)
  deriving DecidableEq, Repr

def slot : Edit → Slot
  | rename _ => .name
  | setEnabled _ => .switch
  | write scope key _ _ => .cell scope key
  | remove scope key => .cell scope key
  | bind service => .binding service
  | setServiceEnabled service _ => .serviceSwitch service

/-- Whether an account is as an edit set it. -/
def ShownIn (a : Account) : Edit → Prop
  | rename name => a.displayName = some name
  | setEnabled on => a.enabled = on
  | write scope key value source =>
    ∃ c, Cell.define value source = .ok c ∧ a.stored? scope key = some c
  | remove scope key => a.stored? scope key = none
  | bind service => a.bindings[service]?.isSome
  | setServiceEnabled service on => a.isServiceEnabled service = on

end Edit

/-- A service that is off and has no settings. -/
def Binding.Bare (b : Binding) : Prop := b.enabled = false ∧ b.settings = ∅

namespace Account

/-- What becomes of an account by an edit that is accepted. -/
inductive Edited (a : Account) : Edit → Account → Prop
  | rename (name : String) : Edited a (.rename name) (a.rename name)
  | setEnabled (on : Bool) : Edited a (.setEnabled on) (a.setEnabled on)
  | write (scope : Scope) (key : String) (value : Value) (layer : Layer) :
    Edited a (.write scope key value (some layer)) (a.put scope key (.defined value layer))
  | remove (scope : Scope) (key : String) : Edited a (.remove scope key) (a.remove scope key).1
  | bind (service : String) : Edited a (.bind service) (a.bind service)
  | setServiceEnabled (service : String) (on : Bool) :
    Edited a (.setServiceEnabled service on) (a.setServiceEnabled service on)

theorem checkLive_bind {α : Type} {a : Account} {id : AccountId} {f : Unit → Except Problem α}
    {x : α} (h : (a.checkLive id >>= f) = .ok x) : a.state ≠ .deleted ∧ f () = .ok x := by
  cases hc : a.checkLive id with
  | error e => rw [hc] at h; exact absurd h (by simp [Bind.bind, Except.bind])
  | ok u =>
    rw [hc] at h
    exact ⟨checkLive_eq_ok_iff.1 hc, h⟩

/-- Only an account that is not deleted accepts an edit. -/
theorem edited_of_edit {a a' : Account} {limit : Nat} {id : AccountId} {e : Edit} {found : Bool}
    (h : a.edit limit id e = .ok (a', found)) : a.state ≠ .deleted ∧ a.Edited e a' := by
  cases e with
  | rename name =>
    obtain ⟨hs, h⟩ := checkLive_bind h
    cases h
    exact ⟨hs, .rename name⟩
  | setEnabled on =>
    obtain ⟨hs, h⟩ := checkLive_bind h
    cases h
    exact ⟨hs, .setEnabled on⟩
  | write scope key value source =>
    rw [edit] at h
    cases hk : Key.check key limit with
    | error e => rw [hk] at h; exact absurd h (by simp [Bind.bind, Except.bind])
    | ok u =>
      cases source with
      | none => rw [hk] at h; exact absurd h (by simp [Bind.bind, Except.bind, Cell.define])
      | some layer =>
        rw [hk] at h
        obtain ⟨hs, h⟩ := checkLive_bind h
        cases h
        exact ⟨hs, .write scope key value layer⟩
  | remove scope key =>
    rw [edit] at h
    cases hk : Key.check key limit with
    | error e => rw [hk] at h; exact absurd h (by simp [Bind.bind, Except.bind])
    | ok u =>
      rw [hk] at h
      obtain ⟨hs, h⟩ := checkLive_bind h
      obtain rfl : (a.remove scope key).1 = a' := by rw [Except.ok.inj h]
      exact ⟨hs, .remove scope key⟩
  | bind service =>
    rw [edit] at h
    cases hk : Name.check "service" service with
    | error e => rw [hk] at h; exact absurd h (by simp [Bind.bind, Except.bind])
    | ok u =>
      rw [hk] at h
      obtain ⟨hs, h⟩ := checkLive_bind h
      cases h
      exact ⟨hs, .bind service⟩
  | setServiceEnabled service on =>
    obtain ⟨hs, h⟩ := checkLive_bind h
    cases h
    exact ⟨hs, .setServiceEnabled service on⟩

section

variable {a a' : Account} {e : Edit}

/-! ### Bindings -/

theorem getElem?_putBinding (a : Account) (service : String) (b : Binding) (name : String) :
    (a.putBinding service b).bindings[name]? =
      if service = name then some b else a.bindings[name]? := by
  simp [putBinding, Std.ExtTreeMap.getElem?_insert]

theorem enabled_bindingOrNew (a : Account) (service : String) :
    (a.bindingOrNew service).enabled = a.isServiceEnabled service := by
  cases h : a.bindings[service]? <;> simp [bindingOrNew, isServiceEnabled, h]

theorem isServiceEnabled_putBinding (a : Account) (service : String) (b : Binding) (name : String) :
    (a.putBinding service b).isServiceEnabled name =
      if service = name then b.enabled else a.isServiceEnabled name := by
  rw [isServiceEnabled, getElem?_putBinding]
  split <;> rfl

theorem isServiceEnabled_bind (a : Account) (service name : String) :
    (a.bind service).isServiceEnabled name = a.isServiceEnabled name := by
  rw [bind, isServiceEnabled_putBinding, enabled_bindingOrNew]
  split
  · simp [*]
  · rfl

theorem remove_account_eq (a : Account) (key : String) :
    (a.remove .account key).1 =
      if (a.settingsOf .account).contains key then
        { a with settings := a.settings.erase key, changes := a.changes.touchKey key }
      else a := by
  rw [remove, settingsOf]
  split <;> rfl

theorem remove_service_eq (a : Account) (name key : String) :
    (a.remove (.service name) key).1 =
      if (a.settingsOf (.service name)).contains key then
        { a.putBinding name { a.bindingOrNew name with
            settings := (a.bindingOrNew name).settings.erase key } with
          changes := a.changes.touchServiceKey name key }
      else a.bind name := by
  rw [remove, ← settings_bindingOrNew]
  split <;> rfl

theorem setServiceEnabled_eq (a : Account) (service : String) (on : Bool) :
    a.setServiceEnabled service on =
      if a.isServiceEnabled service = on then a.bind service
      else
        { a.putBinding service { a.bindingOrNew service with enabled := on } with
          changes := a.changes.touchService service } := by
  rw [setServiceEnabled, ← enabled_bindingOrNew]
  split <;> rfl

/-! ### What stays -/

theorem Edited.fields (h : a.Edited e a') :
    a'.state = a.state ∧ a'.provider = a.provider ∧
      (e.slot ≠ .name → a'.displayName = a.displayName) ∧
      (e.slot ≠ .switch → a'.enabled = a.enabled) := by
  cases h with
  | rename =>
    refine ⟨?_, ?_, fun hs => absurd rfl hs, fun _ => ?_⟩ <;> unfold Account.rename <;> split <;> rfl
  | setEnabled =>
    refine ⟨?_, ?_, fun _ => ?_, fun hs => absurd rfl hs⟩ <;> unfold Account.setEnabled <;> split <;>
      rfl
  | write scope => cases scope <;> exact ⟨rfl, rfl, fun _ => rfl, fun _ => rfl⟩
  | remove scope =>
    cases scope with
    | account => rw [remove_account_eq]; split <;> exact ⟨rfl, rfl, fun _ => rfl, fun _ => rfl⟩
    | service => rw [remove_service_eq]; split <;> exact ⟨rfl, rfl, fun _ => rfl, fun _ => rfl⟩
  | bind => exact ⟨rfl, rfl, fun _ => rfl, fun _ => rfl⟩
  | setServiceEnabled =>
    rw [setServiceEnabled_eq]
    split <;> exact ⟨rfl, rfl, fun _ => rfl, fun _ => rfl⟩

theorem Edited.state_eq (h : a.Edited e a') : a'.state = a.state := h.fields.1

theorem stored?_congr {b : Account} {scope : Scope} (h : b.settingsOf scope = a.settingsOf scope)
    (key : String) : b.stored? scope key = a.stored? scope key := by rw [stored?, h, stored?]

theorem settingsOf_setServiceEnabled (a : Account) (service : String) (on : Bool) (scope : Scope) :
    (a.setServiceEnabled service on).settingsOf scope = a.settingsOf scope := by
  rw [setServiceEnabled_eq]
  split
  · exact settingsOf_bind a service scope
  · have h : (a.putBinding service { a.bindingOrNew service with enabled := on }).settingsOf scope =
        a.settingsOf scope := by
      rw [settingsOf_putBinding]
      split
      · rw [settings_bindingOrNew]
        simp [*]
      · rfl
    rw [← h]
    cases scope <;> rfl

theorem settingsOf_remove (a : Account) (scope other : Scope) (key : String) :
    (a.remove scope key).1.settingsOf other =
      if other = scope then (a.settingsOf scope).erase key else a.settingsOf other := by
  have herase : ∀ t : Table, ¬ t.contains key = true → t.erase key = t := by
    intro t ht
    rw [Table.contains_eq_isSome, Option.not_isSome_iff_eq_none] at ht
    refine Table.ext fun k => ?_
    rw [Table.get?_erase]
    split
    · subst k
      exact ht.symm
    · rfl
  cases scope with
  | account =>
    rw [remove_account_eq]
    split
    · cases other <;> rfl
    · rw [herase _ ‹_›]
      split
      · simp [*]
      · rfl
  | service name =>
    rw [remove_service_eq]
    split
    · have h : ∀ b : Account, ({ b with changes := a.changes.touchServiceKey name key }
          : Account).settingsOf other = b.settingsOf other := by
        intro b
        cases other <;> rfl
      rw [h, settingsOf_putBinding, settings_bindingOrNew]
    · rw [settingsOf_bind, herase _ ‹_›]
      split
      · simp [*]
      · rfl

/-- The cells that an edit leaves as they are. -/
theorem Edited.stored?_eq (h : a.Edited e a') {scope : Scope} {key : String}
    (hs : e.slot ≠ .cell scope key) : a'.stored? scope key = a.stored? scope key := by
  cases h with
  | rename => unfold Account.rename; split <;> rfl
  | setEnabled => unfold Account.setEnabled; split <;> rfl
  | write scope' key' =>
    rw [stored?, settingsOf_put]
    split
    · subst scope
      have hk : key' ≠ key := fun hk => hs (by rw [hk]; rfl)
      rw [Table.get?_set, if_neg hk, stored?]
    · rfl
  | remove scope' key' =>
    rw [stored?, settingsOf_remove]
    split
    · subst scope
      have hk : key' ≠ key := fun hk => hs (by rw [hk]; rfl)
      rw [Table.get?_erase, if_neg hk, stored?]
    · rfl
  | bind service => exact stored?_congr (settingsOf_bind a service scope) key
  | setServiceEnabled service on =>
    exact stored?_congr (settingsOf_setServiceEnabled a service on scope) key

theorem Edited.isServiceEnabled_eq (h : a.Edited e a') {service : String}
    (hs : e.slot ≠ .serviceSwitch service) :
    a'.isServiceEnabled service = a.isServiceEnabled service := by
  cases h with
  | rename => unfold Account.rename; split <;> rfl
  | setEnabled => unfold Account.setEnabled; split <;> rfl
  | write scope' =>
    cases scope' with
    | account => rfl
    | service name =>
      refine (isServiceEnabled_putBinding _ _ _ _).trans ?_
      split
      · rw [← enabled_bindingOrNew]
        simp [*]
      · rfl
  | remove scope' =>
    cases scope' with
    | account => rw [remove_account_eq]; split <;> rfl
    | service name =>
      rw [remove_service_eq]
      split
      · refine (isServiceEnabled_putBinding _ _ _ _).trans ?_
        split
        · rw [← enabled_bindingOrNew]
          simp [*]
        · rfl
      · exact isServiceEnabled_bind ..
  | bind => exact isServiceEnabled_bind ..
  | setServiceEnabled name =>
    have hn : name ≠ service := fun hn => hs (by rw [hn]; rfl)
    rw [setServiceEnabled_eq]
    split
    · exact isServiceEnabled_bind ..
    · exact (isServiceEnabled_putBinding _ _ _ _).trans (if_neg hn)

/-- A service stays bound. -/
theorem Edited.isSome_binding (h : a.Edited e a') {service : String}
    (hb : a.bindings[service]?.isSome) : a'.bindings[service]?.isSome := by
  have hput : ∀ name b, ((a.putBinding name b).bindings[service]?).isSome := by
    intro name b
    rw [getElem?_putBinding]
    split
    · rfl
    · exact hb
  cases h with
  | rename => unfold Account.rename; split <;> exact hb
  | setEnabled => unfold Account.setEnabled; split <;> exact hb
  | write scope =>
    cases scope with
    | account => exact hb
    | service name => exact hput ..
  | remove scope =>
    cases scope with
    | account => rw [remove_account_eq]; split <;> exact hb
    | service name => rw [remove_service_eq]; split <;> exact hput ..
  | bind => exact hput ..
  | setServiceEnabled => rw [setServiceEnabled_eq]; split <;> exact hput ..

/-! ### What is logged -/

theorem Edited.changes_eq (h : a.Edited e a') : a'.changes = a.changes.note (e.touch? a) := by
  cases h with
  | rename => rw [Account.rename, Edit.touch?]; split <;> rfl
  | setEnabled => rw [Account.setEnabled, Edit.touch?]; split <;> rfl
  | write scope => cases scope <;> rfl
  | remove scope =>
    cases scope with
    | account =>
      rw [remove_account_eq, Edit.touch?]
      split <;> rfl
    | service =>
      rw [remove_service_eq, Edit.touch?]
      split <;> rfl
  | bind => rfl
  | setServiceEnabled =>
    rw [setServiceEnabled_eq, Edit.touch?]
    split <;> rfl

/-! ### Edits that log nothing -/

/-- One account is as another, except that it may bind more services, bare ones. -/
structure Matches (a b : Account) : Prop where
  provider : b.provider = a.provider
  displayName : b.displayName = a.displayName
  enabled : b.enabled = a.enabled
  settings : b.settings = a.settings
  bindings : ∀ name : String, b.bindings[name]? = a.bindings[name]? ∨
    (a.bindings[name]? = none ∧ ∃ c, b.bindings[name]? = some c ∧ c.Bare)

theorem Matches.refl (a : Account) : a.Matches a := ⟨rfl, rfl, rfl, rfl, fun _ => .inl rfl⟩

theorem Matches.trans {b c : Account} (h : a.Matches b) (h' : b.Matches c) : a.Matches c := by
  refine ⟨h'.provider.trans h.provider, h'.displayName.trans h.displayName,
    h'.enabled.trans h.enabled, h'.settings.trans h.settings, fun name => ?_⟩
  rcases h'.bindings name with hc | ⟨hb, hc⟩
  · rw [hc]
    exact h.bindings name
  · rcases h.bindings name with ha | ⟨ha, -⟩
    · exact .inr ⟨ha ▸ hb, hc⟩
    · exact .inr ⟨ha, hc⟩

theorem matches_bind (a : Account) (service : String) : a.Matches (a.bind service) := by
  refine ⟨rfl, rfl, rfl, rfl, fun name => ?_⟩
  rw [bind, getElem?_putBinding]
  split
  · subst name
    cases hb : a.bindings[service]? with
    | some b => exact .inl (by rw [bindingOrNew, hb]; rfl)
    | none => exact .inr ⟨rfl, _, rfl, by rw [bindingOrNew, hb]; exact ⟨rfl, rfl⟩⟩
  · exact .inl rfl

/-- An edit that logs nothing leaves nothing to be saved. -/
theorem Edited.matches_of_touch?_eq_none (h : a.Edited e a') (ht : e.touch? a = none) :
    a.Matches a' := by
  cases h with
  | rename name =>
    rw [Edit.touch?] at ht
    rw [Account.rename]
    split at ht
    · rw [if_pos ‹_›]
      exact Matches.refl a
    · exact absurd ht (by simp)
  | setEnabled on =>
    rw [Edit.touch?] at ht
    rw [Account.setEnabled]
    split at ht
    · rw [if_pos ‹_›]
      exact Matches.refl a
    · exact absurd ht (by simp)
  | write => exact absurd ht (by simp [Edit.touch?])
  | remove scope key =>
    rw [Edit.touch?] at ht
    split at ht
    · exact absurd ht (by simp)
    · cases scope with
      | account =>
        rw [remove_account_eq, if_neg ‹_›]
        exact Matches.refl a
      | service name =>
        rw [remove_service_eq, if_neg ‹_›]
        exact matches_bind a name
  | bind service => exact matches_bind a service
  | setServiceEnabled service on =>
    rw [Edit.touch?] at ht
    rw [setServiceEnabled_eq]
    split at ht
    · rw [if_pos ‹_›]
      exact matches_bind a service
    · exact absurd ht (by simp)

theorem Matches.settingsOf_eq {b : Account} (h : a.Matches b) (scope : Scope) :
    b.settingsOf scope = a.settingsOf scope := by
  cases scope with
  | account => exact h.settings
  | service name =>
    rw [settingsOf, settingsOf]
    rcases h.bindings name with hb | ⟨ha, c, hb, hc⟩
    · rw [hb]
    · rw [ha, hb]
      exact hc.2

theorem Matches.isServiceEnabled_eq {b : Account} (h : a.Matches b) (service : String) :
    b.isServiceEnabled service = a.isServiceEnabled service := by
  rw [isServiceEnabled, isServiceEnabled]
  rcases h.bindings service with hb | ⟨ha, c, hb, hc⟩
  · rw [hb]
  · rw [ha, hb]
    exact hc.1

/-! ### Edits show -/

theorem shownIn_of_edited (h : a.Edited e a') : e.ShownIn a' := by
  cases h with
  | rename name => unfold Account.rename; split <;> first | assumption | rfl
  | setEnabled on => unfold Account.setEnabled; split <;> first | assumption | rfl
  | write scope key value layer =>
    refine ⟨_, rfl, ?_⟩
    rw [stored?, settingsOf_put, if_pos rfl, Table.get?_set, if_pos rfl]
    rfl
  | remove scope key =>
    show (a.remove scope key).1.stored? scope key = none
    rw [stored?, settingsOf_remove, if_pos rfl, Table.get?_erase, if_pos rfl]
  | bind service =>
    show (a.bind service).bindings[service]?.isSome
    rw [bind, getElem?_putBinding, if_pos rfl]
    rfl
  | setServiceEnabled service on =>
    show (a.setServiceEnabled service on).isServiceEnabled service = on
    rw [setServiceEnabled_eq]
    split
    · rw [isServiceEnabled_bind]
      assumption
    · exact (isServiceEnabled_putBinding _ _ _ _).trans (if_pos rfl)

/-- An edit goes on showing after an edit of another slot. -/
theorem Edited.shownIn (h : a.Edited e a') {e₀ : Edit} (hs : e.slot ≠ e₀.slot)
    (h₀ : e₀.ShownIn a) : e₀.ShownIn a' := by
  cases e₀ with
  | rename => exact (h.fields.2.2.1 hs).trans h₀
  | setEnabled => exact (h.fields.2.2.2 hs).trans h₀
  | write =>
    obtain ⟨c, hc, hget⟩ := h₀
    exact ⟨c, hc, (h.stored?_eq hs).trans hget⟩
  | remove => exact (h.stored?_eq hs).trans h₀
  | bind => exact h.isSome_binding h₀
  | setServiceEnabled => exact (h.isServiceEnabled_eq hs).trans h₀

/-- What shows in an account shows in one that it matches, but for bare bindings. -/
theorem Matches.shownIn {b : Account} (h : a.Matches b) (hs : e.ShownIn b) :
    e.ShownIn a ∨ ∃ service c, e = .bind service ∧ b.bindings[service]? = some c ∧ c.Bare := by
  cases e with
  | rename => exact .inl (h.displayName.symm.trans hs)
  | setEnabled => exact .inl (h.enabled.symm.trans hs)
  | write scope key =>
    obtain ⟨c, hc, hget⟩ := hs
    exact .inl ⟨c, hc, (stored?_congr (h.settingsOf_eq scope) key).symm.trans hget⟩
  | remove scope key => exact .inl ((stored?_congr (h.settingsOf_eq scope) key).symm.trans hs)
  | bind service =>
    rcases h.bindings service with hb | ⟨-, c, hb, hc⟩
    · exact .inl (by rw [Edit.ShownIn, ← hb]; exact hs)
    · exact .inr ⟨service, c, rfl, hb, hc⟩
  | setServiceEnabled service => exact .inl ((h.isServiceEnabled_eq service).symm.trans hs)

/-- The last edit of each slot shows. -/
def Reflects (a : Account) (l : List Edit) : Prop :=
  ∀ (i : Nat) (e : Edit), l[i]? = some e →
    (∀ (j : Nat) (e' : Edit), i < j → l[j]? = some e' → e'.slot ≠ e.slot) → e.ShownIn a

theorem reflects_nil (a : Account) : a.Reflects [] := fun _ _ h => absurd h (by simp)

theorem Reflects.concat {l : List Edit} (h : a.Reflects l) (he : a.Edited e a') :
    a'.Reflects (l ++ [e]) := by
  intro i e₀ hi hlast
  rw [List.getElem?_append] at hi
  split at hi
  · rename_i hlt
    have hne : e.slot ≠ e₀.slot := hlast l.length e hlt (by simp)
    refine he.shownIn hne (h i e₀ hi fun j e' hj he' => hlast j e' hj ?_)
    rw [List.getElem?_append_left (List.getElem?_eq_some_iff.1 he').1, he']
  · obtain rfl : e₀ = e := by simpa using List.mem_of_getElem? hi
    exact shownIn_of_edited he

end

/-! ### Tidy accounts -/

/-- Every table of an account holds set cells only, and its services are bound under their names. -/
structure Tidy (a : Account) : Prop where
  settings : a.settings.AllSet
  bindings : ∀ (name : String) (b : Binding), a.bindings[name]? = some b →
    b.name = name ∧ b.settings.AllSet

section

variable {a a' : Account} {e : Edit}

theorem tidy_new (provider : String) : Tidy { provider } :=
  ⟨Table.allSet_empty, fun _ _ h => absurd h (by simp)⟩

theorem Tidy.isSet_of_stored? (h : a.Tidy) {scope : Scope} {key : String} {cell : Cell}
    (hcell : a.stored? scope key = some cell) : cell.isSet = true := by
  cases scope with
  | account => exact h.settings key cell hcell
  | service name =>
    cases hb : a.bindings[name]? with
    | none => simp [stored?, settingsOf, hb] at hcell
    | some b =>
      simp only [stored?, settingsOf, hb, Option.map_some, Option.getD_some] at hcell
      exact (h.bindings name b hb).2 key cell hcell

theorem Tidy.bindingOrNew (h : a.Tidy) (service : String) :
    (a.bindingOrNew service).name = service ∧ (a.bindingOrNew service).settings.AllSet := by
  rw [Account.bindingOrNew]
  cases hb : a.bindings[service]? with
  | none => exact ⟨rfl, Table.allSet_empty⟩
  | some b => exact h.bindings service b hb

theorem Tidy.putBinding (h : a.Tidy) {service : String} {b : Binding} (hn : b.name = service)
    (hs : b.settings.AllSet) : (a.putBinding service b).Tidy := by
  refine ⟨h.settings, fun name c hc => ?_⟩
  rw [getElem?_putBinding] at hc
  split at hc
  · cases hc
    exact ⟨‹service = name› ▸ hn, hs⟩
  · exact h.bindings name c hc

theorem Tidy.bind (h : a.Tidy) (service : String) : (a.bind service).Tidy :=
  h.putBinding (h.bindingOrNew service).1 (h.bindingOrNew service).2

theorem Edited.tidy (h : a.Edited e a') (ha : a.Tidy) : a'.Tidy := by
  cases h with
  | rename => unfold Account.rename; split; exacts [ha, ⟨ha.settings, ha.bindings⟩]
  | setEnabled => unfold Account.setEnabled; split; exacts [ha, ⟨ha.settings, ha.bindings⟩]
  | write scope key value layer =>
    cases scope with
    | account => exact ⟨ha.settings.set key _, ha.bindings⟩
    | service name =>
      obtain ⟨hn, hs⟩ := ha.bindingOrNew name
      have hp := ha.putBinding (b := { a.bindingOrNew name with
        settings := (a.bindingOrNew name).settings.set key (.defined value layer) }) hn
        (hs.set key _)
      exact ⟨hp.settings, hp.bindings⟩
  | remove scope key =>
    cases scope with
    | account => rw [remove_account_eq]; split; exacts [⟨ha.settings.erase key, ha.bindings⟩, ha]
    | service name =>
      rw [remove_service_eq]
      split
      · obtain ⟨hn, hs⟩ := ha.bindingOrNew name
        have hp := ha.putBinding (b := { a.bindingOrNew name with
          settings := (a.bindingOrNew name).settings.erase key }) hn (hs.erase key)
        exact ⟨hp.settings, hp.bindings⟩
      · exact ha.bind name
  | bind service => exact ha.bind service
  | setServiceEnabled service on =>
    rw [setServiceEnabled_eq]
    split
    · exact ha.bind service
    · obtain ⟨hn, hs⟩ := ha.bindingOrNew service
      have hp := ha.putBinding (b := { a.bindingOrNew service with enabled := on }) hn hs
      exact ⟨hp.settings, hp.bindings⟩

end

/-- An account as it is right after it was loaded. -/
def settled (a : Account) : Account := { a with state := .saved, changes := {} }

end Account

end AccountVault
