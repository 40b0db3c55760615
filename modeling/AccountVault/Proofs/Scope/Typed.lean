import AccountVault.Proofs.Scope.Tags

/-!
# Questions at a type

A question for a value at a type is decided in three places: the lookup finds a cell, the cell is read at
the kind, and the payload is taken out at the type.  What is read always has its payload there
(`Cell.exists_as?_of_read`), so that the cell that is found decides alone: it is never passed over for
another layer or the caller's default.  Main statement: `resolve_is_exact`.
-/

namespace AccountVault

namespace Value

variable {v : Value} {t : ValueType} {p : t.Carrier}

/-- A payload is had at the value's own type, or is a 32-bit integer as a 64-bit one. -/
theorem at?_eq_some_iff : v.at? t = some p ↔
    ofPayload t p = v ∨ ∃ n : Int32, v = .integer n ∧ ofPayload t p = .integer64 n.toInt64 := by
  cases v <;> cases t <;> simp [at?, as?, ofPayload, eq_comm]

theorem exists_at?_iff :
    (∃ p, v.at? t = some p) ↔ v.type = t ∨ (v.type = .integer ∧ t = .integer64) := by
  cases v <;> cases t <;> simp [at?, as?, type]

end Value

/-- What a cell is read as at a kind has its payload at the type. -/
theorem Cell.exists_as?_of_read {c : Cell} {key : String} {t : ValueType} {v : Value}
    (h : c.read key (some t) = .ok (some v)) : ∃ p, v.as? t = some p := by
  cases c with
  | unset => exact absurd h (by simp [read])
  | defined w layer =>
    rw [read] at h
    cases hw : w.widen (some t) with
    | error found =>
      rw [hw] at h
      exact absurd h (by simp)
    | ok v' =>
      rw [hw] at h
      cases h
      exact Option.isSome_iff_exists.1 ((v.as?_isSome_iff t).2 (Value.type_of_widen hw))

namespace Layers

variable {l : Layers} {scope : Scope} {key : String} {t : ValueType} {fallback : t.Carrier}

/-- A question is answered by the caller's default exactly where no table has the key. -/
theorem AllSet.resolve_eq_default_iff (h : l.AllSet) :
    l.resolve scope key t fallback = .ok ⟨fallback, none⟩ ↔ l.defining scope key = [] := by
  constructor
  · intro hdefault
    by_contra hsome
    have hunset := (source_eq_none_iff hdefault).1 rfl
    rw [h.isSet_lookup_of_defining hsome] at hunset
    exact absurd hunset (by simp)
  · intro hnone
    exact resolve_of_lookup_unset (lookup_of_defining_eq_nil hnone)

/-- The cell that is found has the payload at the type, and the question is answered with it. -/
theorem exists_resolve_eq_ok {v : Value} {layer : Layer} (hc : l.lookup scope key = .defined v layer)
    (ht : v.type = t ∨ (v.type = .integer ∧ t = .integer64)) :
    ∃ p, l.resolve scope key t fallback = .ok ⟨p, some layer⟩ ∧
      (Value.ofPayload t p = v ∨ ∃ (n : Int32) (m : Int64),
        v = .integer n ∧ Value.ofPayload t p = .integer64 m ∧ m.toInt = n.toInt) := by
  obtain ⟨p, hp⟩ := Value.exists_at?_iff.2 ht
  refine ⟨p, resolve_eq_ok_iff.2 (.inr ⟨v, layer, p, hc, hp, rfl⟩), ?_⟩
  rcases Value.at?_eq_some_iff.1 hp with hsame | ⟨n, hn, hwide⟩
  · exact .inl hsame
  · exact .inr ⟨n, n.toInt64, hn, hwide, n.toInt_toInt64⟩

theorem resolve_eq_mismatch {v : Value} {layer : Layer} (hc : l.lookup scope key = .defined v layer)
    (ht : ¬ (v.type = t ∨ (v.type = .integer ∧ t = .integer64))) :
    l.resolve scope key t fallback = .error (.typeMismatch key (some t) (some v.type)) := by
  rw [resolve_of_lookup_defined hc, Layer.answer]
  cases hp : v.at? t with
  | none => rfl
  | some p => exact absurd (Value.exists_at?_iff.1 ⟨p, hp⟩) ht

end Layers

/-- No table that a question in a vault consults holds an unset cell.  The question is answered by the
caller's default, from no source, exactly where no table has the key.  Otherwise the cell that the lookup
finds decides, whatever the default and the other tables: where its value is of the type, or a 32-bit
integer that is asked for as a 64-bit one, the answer is its payload and its source, and else a mismatch of
the key, the type and the value's own.  What is read at a kind always has its payload there. -/
theorem resolve_is_exact {c : Contents} {options : Options} {catalog : Catalog} {v : Vault}
    (hv : c.opened options catalog = .ok v) (hc : catalog.Declared) (as : List Action) {id : AccountId}
    {a : Account} (ha : ((System.start v c).run as).vault.account? id = some a)
    (scope : Scope) (key : String) (t : ValueType) (fallback : t.Carrier) :
    let l := ((System.start v c).run as).vault.layers a
    l.AllSet ∧
    (l.resolve scope key t fallback = .ok ⟨fallback, none⟩ ↔ l.defining scope key = []) ∧
    (l.defining scope key ≠ [] →
      ∃ value layer, l.lookup scope key = .defined value layer ∧
        l.lookup scope key ∈ l.defining scope key ∧
        ((value.type = t ∨ (value.type = .integer ∧ t = .integer64)) →
          ∃ p, l.resolve scope key t fallback = .ok ⟨p, some layer⟩ ∧
            (Value.ofPayload t p = value ∨ ∃ (n : Int32) (m : Int64),
              value = .integer n ∧ Value.ofPayload t p = .integer64 m ∧ m.toInt = n.toInt)) ∧
        (¬ (value.type = t ∨ (value.type = .integer ∧ t = .integer64)) →
          l.resolve scope key t fallback =
            .error (.typeMismatch key (some t) (some value.type)))) ∧
    ∀ value, (l.lookup scope key).read key (some t) = .ok (some value) →
      ∃ p, value.as? t = some p := by
  intro l
  have hset : l.AllSet := Contents.allSet_layers_run hv hc as ha
  refine ⟨hset, hset.resolve_eq_default_iff, fun hsome => ?_, fun _ => Cell.exists_as?_of_read⟩
  have hfound := hset.isSet_lookup_of_defining hsome
  cases hcell : l.lookup scope key with
  | unset =>
    rw [hcell] at hfound
    exact absurd hfound (by simp)
  | defined value layer =>
    refine ⟨value, layer, rfl, ?_, Layers.exists_resolve_eq_ok hcell, Layers.resolve_eq_mismatch hcell⟩
    rw [← hcell]
    exact Layers.lookup_mem_defining hsome

/-- A text that a service holds is a mismatch for a number, although the account, the template and the
caller have numbers.  A 32-bit integer of the account's is had as a 64-bit one. -/
theorem resolve_is_exact_of_text :
    let ds : List Declaration := [.serviceDefault "mail" "port" (.integer 465)]
    let catalog := (({} : Catalog).declareAll ds).toOption.getD {}
    let as : List Action := [.create "acme",
      .edit 1 (.write (.service "mail") "port" (.text "imap") (some .service)),
      .edit 1 (.write .account "port" (.integer (-7)) (some .account))]
    let s := (System.start { catalog } ∅).run as
    let l := s.vault.layers ((s.vault.account? 1).getD { provider := "" })
    l.resolve (.service "mail") "port" .integer 25 =
        .error (.typeMismatch "port" (some .integer) (some .text)) ∧
      (∃ m : Int64, l.resolve .account "port" .integer64 25 = .ok ⟨m, some .account⟩ ∧
        m.toInt = -7) ∧
      l.resolve .account "size" .integer 25 = .ok ⟨25, none⟩ := by
  intro ds catalog as s l
  have hc : catalog.Declared := ⟨{}, ds, .inl rfl, by decide +kernel⟩
  have hv := Contents.opened_empty {} catalog (by decide +kernel)
  have ha : s.vault.account? 1 = some ((s.vault.account? 1).getD { provider := "" }) := rfl
  obtain ⟨-, -, hservice, -⟩ := resolve_is_exact hv hc as ha (.service "mail") "port" .integer 25
  obtain ⟨-, -, haccount, -⟩ := resolve_is_exact hv hc as ha .account "port" .integer64 25
  obtain ⟨-, hdefault, -, -⟩ := resolve_is_exact hv hc as ha .account "size" .integer 25
  have hfound : l.lookup (.service "mail") "port" = .defined (.text "imap") .service := by
    decide +kernel
  have hfound' : l.lookup .account "port" = .defined (.integer (-7)) .account := by decide +kernel
  refine ⟨?_, ?_, hdefault.2 (by decide +kernel)⟩
  · obtain ⟨value, layer, hcell, -, -, hmismatch⟩ := hservice (by decide +kernel)
    cases hfound.symm.trans hcell
    exact hmismatch (by decide)
  · obtain ⟨value, layer, hcell, -, hok, -⟩ := haccount (by decide +kernel)
    cases hfound'.symm.trans hcell
    obtain ⟨m, hm, hsame | ⟨n, m', hn, hm', hint⟩⟩ := hok (.inr ⟨rfl, rfl⟩)
    · exact absurd hsame (by simp [Value.ofPayload])
    · cases hn
      cases hm'
      exact ⟨m, hm, hint⟩

end AccountVault
