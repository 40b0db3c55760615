import AccountVault.Setting.Table

/-!
# Application overrides

Settings that the application forces for a service, whichever account binds it.  What is forced is an
application override: to force a setting is to set the override, to lift one is to clear it.
-/

namespace AccountVault

/-- Forced settings by service. -/
structure Overrides where
  tables : Std.ExtTreeMap String Table := ∅

namespace Overrides

instance : EmptyCollection Overrides := ⟨⟨∅⟩⟩

instance : Inhabited Overrides := ⟨∅⟩

/-- What is forced for a service. -/
def table (o : Overrides) (service : String) : Table := o.tables[service]?.getD ∅

def get? (o : Overrides) (service key : String) : Option Cell := (o.table service).get? key

/-- Forces a value. -/
def set (o : Overrides) (service key : String) (value : Value) : Overrides :=
  ⟨o.tables.insert service ((o.table service).set key (.defined value .application))⟩

/-- Lifts an override, and says whether there was one. -/
def clear (o : Overrides) (service key : String) : Overrides × Bool :=
  if (o.table service).contains key then
    (⟨o.tables.insert service ((o.table service).erase key)⟩, true)
  else (o, false)

theorem table_set (o : Overrides) (s key s' : String) (v : Value) :
    (o.set s key v).table s' =
      if s = s' then (o.table s).set key (.defined v .application) else o.table s' := by
  simp only [table, set, Std.ExtTreeMap.getElem?_insert, Std.LawfulEqCmp.compare_eq_iff_eq]
  split <;> simp

theorem table_clear (o : Overrides) (s key s' : String) :
    (o.clear s key).1.table s' = if s = s' then (o.table s).erase key else o.table s' := by
  unfold clear
  split
  · simp only [table, Std.ExtTreeMap.getElem?_insert, Std.LawfulEqCmp.compare_eq_iff_eq]
    split <;> simp
  · next h =>
    split
    · next hs =>
      subst hs
      refine (Table.ext fun k => ?_).symm
      rw [Table.get?_erase]
      split
      · next hk =>
        subst hk
        have hn : (o.table s).get? key = none := by
          simpa [Table.contains_eq_isSome] using h
        exact hn.symm
      · rfl
    · rfl

end Overrides

end AccountVault
