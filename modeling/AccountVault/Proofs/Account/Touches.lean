import AccountVault.Account.ChangeLog
import Mathlib.Data.List.Induction

/-!
# Change logs as histories

A change log that was never settled is the fold of the touches that were made, and every later log is
such a fold, settled.  Main statement: `ChangeLog.mem_pending_iff`, by which settling a log at the
revision of an earlier moment leaves pending exactly what was touched since that moment.
-/

namespace AccountVault

/-- What the logged changes are of. -/
inductive Subject
  | key
  | service
  deriving DecidableEq, Repr

/-- What a logged change concerns: a key, a service, both or neither. -/
structure Touch where
  key : Option String := none
  service : Option String := none
  deriving DecidableEq, Repr

def Touch.name? (t : Touch) : Subject → Option String
  | .key => t.key
  | .service => t.service

namespace ChangeLog

/-- The revisions of the latest pending changes. -/
def pending (l : ChangeLog) : Subject → Std.ExtTreeMap String Nat
  | .key => l.keys
  | .service => l.services

/-- Puts down the revision of a change of something that has a name. -/
def enter (m : Std.ExtTreeMap String Nat) (name : Option String) (revision : Nat) :
    Std.ExtTreeMap String Nat :=
  match name with
  | none => m
  | some n => m.insert n revision

/-- Logs what a change concerns; a change that made no difference is not logged. -/
def note (l : ChangeLog) : Option Touch → ChangeLog
  | none => l
  | some t =>
    { l.touch with
      keys := enter l.keys t.key (l.revision + 1)
      services := enter l.services t.service (l.revision + 1) }

/-- The log of some changes, none of them settled. -/
def ofTouches (l : List (Option Touch)) : ChangeLog := l.foldl note {}

theorem ofTouches_concat (l : List (Option Touch)) (t : Option Touch) :
    ofTouches (l ++ [t]) = (ofTouches l).note t := by
  simp [ofTouches, List.foldl_append]

protected theorem ext {l l' : ChangeLog} (hr : l.revision = l'.revision) (hs : l.saved = l'.saved)
    (hp : ∀ s, l.pending s = l'.pending s) : l = l' := by
  obtain ⟨r, s, k, v⟩ := l
  obtain ⟨r', s', k', v'⟩ := l'
  obtain rfl : r = r' := hr
  obtain rfl : s = s' := hs
  obtain rfl : k = k' := hp .key
  obtain rfl : v = v' := hp .service
  rfl

theorem pending_note_some (l : ChangeLog) (t : Touch) (s : Subject) :
    (l.note (some t)).pending s = enter (l.pending s) (t.name? s) (l.revision + 1) := by
  cases s <;> rfl

theorem revision_note (l : ChangeLog) (t : Option Touch) :
    (l.note t).revision = l.revision + if t.isSome then 1 else 0 := by
  cases t <;> rfl

theorem revision_le_note (l : ChangeLog) (t : Option Touch) :
    l.revision ≤ (l.note t).revision := by
  rw [revision_note]
  exact Nat.le_add_right ..

theorem revision_ofTouches_le_append (l l' : List (Option Touch)) :
    (ofTouches l).revision ≤ (ofTouches (l ++ l')).revision := by
  induction l' using List.reverseRecOn with
  | nil => simp
  | append_singleton l' t ih =>
    rw [← List.append_assoc, ofTouches_concat]
    exact Nat.le_trans ih (revision_le_note _ _)

/-- Revisions rise with time. -/
theorem revision_take_le (l : List (Option Touch)) {m n : Nat} (h : m ≤ n) :
    (ofTouches (l.take m)).revision ≤ (ofTouches (l.take n)).revision := by
  obtain ⟨k, rfl⟩ := Nat.exists_eq_add_of_le h
  rw [List.take_add]
  exact revision_ofTouches_le_append _ _

theorem revision_take_le_ofTouches (l : List (Option Touch)) (n : Nat) :
    (ofTouches (l.take n)).revision ≤ (ofTouches l).revision := by
  have h := revision_ofTouches_le_append (l.take n) (l.drop n)
  rwa [List.take_append_drop] at h

/-- A moment with the revision of a later one: nothing was logged in between. -/
theorem note_eq_of_revision_eq {l : ChangeLog} {t : Option Touch} {r : Nat} (hr : r ≤ l.revision)
    (h : (l.note t).revision = r) : t = none ∧ l.revision = r := by
  cases t with
  | none => exact ⟨rfl, h⟩
  | some t =>
    rw [revision_note] at h
    simp at h
    omega

/-! ### Settling -/

theorem getElem?_pending_settle (l : ChangeLog) (r : Nat) (s : Subject) (name : String) :
    ((l.settle r).pending s)[name]? = (l.pending s)[name]?.filter (r < ·) := by
  cases s <;> exact Std.ExtTreeMap.getElem?_filter'

theorem getElem?_enter (m : Std.ExtTreeMap String Nat) (name : Option String) (r : Nat)
    (other : String) :
    (enter m name r)[other]? = if name = some other then some r else m[other]? := by
  cases name with
  | none => simp [enter]
  | some n => simp [enter, Std.ExtTreeMap.getElem?_insert]

/-- Settling earlier changes does not touch one that is made now. -/
theorem settle_note {l : ChangeLog} {r : Nat} (h : r ≤ l.revision) (t : Option Touch) :
    (l.note t).settle r = (l.settle r).note t := by
  cases t with
  | none => rfl
  | some t =>
    refine ChangeLog.ext rfl rfl fun s => Std.ExtTreeMap.ext_getElem? fun name => ?_
    rw [getElem?_pending_settle, pending_note_some, pending_note_some, getElem?_enter,
      getElem?_enter, getElem?_pending_settle, revision_settle]
    split
    · simp [Nat.lt_succ_of_le h]
    · rfl

theorem settle_settle (l : ChangeLog) {r r' : Nat} (h : r ≤ r') :
    (l.settle r).settle r' = l.settle r' := by
  refine ChangeLog.ext rfl rfl fun s => Std.ExtTreeMap.ext_getElem? fun name => ?_
  rw [getElem?_pending_settle, getElem?_pending_settle, getElem?_pending_settle, Option.filter_filter]
  congr 1
  funext n
  by_cases hn : r' < n
  · simp [hn, Nat.lt_of_le_of_lt h hn]
  · simp [hn]

theorem settle_new : ({} : ChangeLog).settle 0 = {} := by
  refine ChangeLog.ext rfl rfl fun s => Std.ExtTreeMap.ext_getElem? fun name => ?_
  rw [getElem?_pending_settle]
  cases s <;> simp [pending]

/-- The log of some changes after the first `n` of them have been settled. -/
def since (l : List (Option Touch)) (n : Nat) : ChangeLog :=
  (ofTouches l).settle (ofTouches (l.take n)).revision

theorem since_concat {l : List (Option Touch)} {n : Nat} (h : n ≤ l.length) (t : Option Touch) :
    since (l ++ [t]) n = (since l n).note t := by
  rw [since, since, ofTouches_concat, List.take_append_of_le_length h]
  exact settle_note (revision_take_le_ofTouches l n) t

/-- Settling more of a history leaves less of it. -/
theorem settle_since (l : List (Option Touch)) {m n : Nat} (h : m ≤ n) :
    (since l m).settle (ofTouches (l.take n)).revision = since l n :=
  settle_settle _ (revision_take_le l h)

theorem revision_le_of_pending {l : List (Option Touch)} {s : Subject} {name : String} {r : Nat}
    (h : ((ofTouches l).pending s)[name]? = some r) : r ≤ (ofTouches l).revision := by
  induction l using List.reverseRecOn with
  | nil => cases s <;> simp [ofTouches, pending] at h
  | append_singleton l t ih =>
    rw [ofTouches_concat] at h ⊢
    cases t with
    | none => exact ih h
    | some t =>
      rw [pending_note_some, getElem?_enter] at h
      rw [revision_note]
      split at h
      · cases h
        exact Nat.le_refl _
      · exact Nat.le_trans (ih h) (Nat.le_add_right _ _)

theorem mem_pending_since_iff_isSome {l : List (Option Touch)} {n : Nat} {s : Subject}
    {name : String} :
    name ∈ (since l n).pending s ↔
      ∃ r, ((ofTouches l).pending s)[name]? = some r ∧ (ofTouches (l.take n)).revision < r := by
  rw [← Std.ExtTreeMap.contains_iff_mem, Std.ExtTreeMap.contains_eq_isSome_getElem?, since,
    getElem?_pending_settle]
  cases ((ofTouches l).pending s)[name]? <;> simp

/-- What is pending after the first `n` changes were settled is what the others touched. -/
theorem mem_pending_iff {l : List (Option Touch)} {n : Nat} {s : Subject} {name : String} :
    name ∈ (since l n).pending s ↔
      ∃ i t, n ≤ i ∧ l[i]? = some (some t) ∧ t.name? s = some name := by
  rw [mem_pending_since_iff_isSome]
  induction l using List.reverseRecOn with
  | nil => cases s <;> simp [ofTouches, pending]
  | append_singleton l t ih =>
    by_cases hn : n ≤ l.length
    · -- the last change is among those not settled
      rw [List.take_append_of_le_length hn, ofTouches_concat]
      have hlast : (∃ i t', n ≤ i ∧ (l ++ [t])[i]? = some (some t') ∧ t'.name? s = some name) ↔
          (∃ i t', n ≤ i ∧ l[i]? = some (some t') ∧ t'.name? s = some name) ∨
            t.bind (·.name? s) = some name := by
        constructor
        · rintro ⟨i, t', hi, ht, hname⟩
          rw [List.getElem?_append] at ht
          split at ht
          · exact .inl ⟨i, t', hi, ht, hname⟩
          · obtain rfl : some t' = t := by simpa using List.mem_of_getElem? ht
            exact .inr hname
        · rintro (⟨i, t', hi, ht, hname⟩ | ht)
          · exact ⟨i, t', hi, by rw [List.getElem?_append_left (List.getElem?_eq_some_iff.1 ht).1, ht],
              hname⟩
          · obtain ⟨t', rfl, hname⟩ := Option.bind_eq_some_iff.1 ht
            exact ⟨l.length, t', hn, by simp, hname⟩
      rw [hlast, ← ih]
      cases t with
      | none => simp [note]
      | some t =>
        rw [pending_note_some]
        simp only [getElem?_enter, Option.bind_some]
        by_cases hname : t.name? s = some name
        · have := revision_take_le_ofTouches l n
          simp only [hname, if_true, or_true, iff_true]
          exact ⟨_, rfl, by omega⟩
        · simp [hname]
    · -- everything is settled
      rw [List.take_of_length_le (by simp; omega)]
      constructor
      · rintro ⟨r, hr, hlt⟩
        exact absurd (revision_le_of_pending hr) (by omega)
      · rintro ⟨i, t', hi, ht, -⟩
        rw [List.getElem?_eq_none (by simp; omega)] at ht
        exact absurd ht (by simp)

end ChangeLog

end AccountVault
