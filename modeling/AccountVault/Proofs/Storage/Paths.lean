import AccountVault.Proofs.Storage.Names
import Mathlib.Data.List.Nodup

/-!
# Paths in a file tree

Where the path of a name below a directory leads, what putting and removing a file changes, and which
names a listing holds.  Main statements: `FileTree.walk_below`, `FileTree.node?_insert` and
`FileTree.mem_namesAt`.
-/

namespace AccountVault

open Directory (PlainName)

namespace FilePath

variable {p : FilePath} {name : String} {k : Nat}

theorem foldl_size (p : FilePath) (m n : Nat) :
    p.foldl (fun n part => n + part.utf8ByteSize) (m + n) =
      m + p.foldl (fun n part => n + part.utf8ByteSize) n := by
  induction p generalizing n with
  | nil => rfl
  | cons part p ih => rw [List.foldl_cons, List.foldl_cons, Nat.add_assoc, ih]

theorem size_concat (p : FilePath) (name : String) :
    (p ++ [name]).size = p.size + name.utf8ByteSize + min p.length 1 := by
  have hlength : (p ++ [name]).length - 1 = min p.length 1 + (p.length - 1) := by
    rw [List.length_append, List.length_singleton]
    omega
  rw [size, hlength, List.foldl_append, foldl_size, List.foldl_cons, List.foldl_nil, size]
  omega

/-- The path of a name below is longer by the name and a slash, at most. -/
theorem size_below_le (p : FilePath) (name : String) :
    (p.below name).size ≤ p.size + name.utf8ByteSize + 1 := by
  unfold below
  split_ifs with hlast
  · obtain ⟨q, rfl⟩ := List.getLast?_eq_some_iff.1 hlast
    have hempty : "".utf8ByteSize = 0 := rfl
    rw [List.dropLast_concat, size_concat, size_concat, hempty]
    omega
  · rw [size_concat]
    omega

theorem mem_below {part : String} (h : part ∈ p.below name) : part ∈ p ∨ part = name := by
  unfold below at h
  split_ifs at h
  · rcases List.mem_append.1 h with h | h
    · exact Or.inl ((List.dropLast_sublist p).subset h)
    · exact Or.inr (List.mem_singleton.1 h)
  · rcases List.mem_append.1 h with h | h
    · exact Or.inl h
    · exact Or.inr (List.mem_singleton.1 h)

theorem getLast?_below (p : FilePath) (name : String) : (p.below name).getLast? = some name := by
  unfold below
  split_ifs <;> simp

theorem check_eq_ok_iff :
    p.check = .ok () ↔
      (∀ part ∈ p, '\x00' ∉ part.toList) ∧ p ≠ [""] ∧ p.size ≤ sizeLimit := by
  have hany : (p.any fun part => part.toList.contains '\x00') = true ↔
      ¬ ∀ part ∈ p, '\x00' ∉ part.toList := by
    simp
  unfold check
  split_ifs with hzero hempty hsize
  · simp [hany.1 hzero]
  · simp [hempty]
  · simp [hsize]
  · simpa [hempty, Nat.not_lt.1 hsize] using not_not.1 (mt hany.2 hzero)

/-- Nothing rules out the path of a plain name below a path that nothing rules out, where there is
room for it. -/
theorem check_below (hname : PlainName k name) (hp : p.check = .ok ())
    (hroom : p.size + k + 1 ≤ sizeLimit) : (p.below name).check = .ok () := by
  obtain ⟨hzero, -, -⟩ := check_eq_ok_iff.1 hp
  have hsize := size_below_le p name
  have hshort := hname.short
  refine check_eq_ok_iff.2 ⟨?_, ?_, by omega⟩
  · intro part hpart
    rcases mem_below hpart with hpart | rfl
    · exact hzero part hpart
    · exact hname.noZero
  · intro hbelow
    have hlast := getLast?_below p name
    rw [hbelow] at hlast
    obtain ⟨c, hc, -⟩ := hname.notDots
    obtain rfl : "" = name := by simpa using hlast
    simp at hc

end FilePath

namespace FileTree

variable {t t' : FileTree} {place q : Place} {p : FilePath} {name : String} {k : Nat}

/-! ### Where paths lead -/

theorem walk_append (t : FileTree) (place : Place) (p r : FilePath) :
    t.walk place (p ++ r) = (t.walk place p).bind fun q => t.walk q r := by
  induction p generalizing place with
  | nil => rfl
  | cons part p ih =>
    simp only [List.cons_append, walk]
    cases t.node? place with
    | none => rfl
    | some n =>
      cases n with
      | file bytes => rfl
      | directory => split_ifs <;> first | exact ih _ | rfl

/-- The path of a name below a directory goes to the directory, then to the name. -/
theorem walk_below (t : FileTree) (place : Place) (p : FilePath) (name : String) :
    t.walk place (p.below name) = (t.walk place p).bind fun q => t.walk q [name] := by
  unfold FilePath.below
  split_ifs with hlast
  · obtain ⟨q, rfl⟩ := List.getLast?_eq_some_iff.1 hlast
    rw [List.dropLast_concat, walk_append, walk_append]
    cases t.walk place q with
    | error e => rfl
    | ok r =>
      cases hr : t.node? r with
      | none => simp [Except.bind, walk, hr]
      | some n => cases n <;> simp [Except.bind, walk, hr, FilePath.stays]
  · exact walk_append t place p [name]

theorem walk_plain (hname : PlainName k name) (hk : k ≤ FilePath.nameLimit)
    (hplace : t.node? place = some .directory) : t.walk place [name] = .ok (place ++ [name]) := by
  obtain ⟨c, hc, hdot⟩ := hname.notDots
  have hstays : FilePath.stays name = false := by
    have hempty : name ≠ "" := by
      rintro rfl
      simp at hc
    have hone : name ≠ "." := by
      rintro rfl
      exact hdot (by simpa using hc)
    simp [FilePath.stays, hempty, hone]
  have htwo : name ≠ ".." := by
    rintro rfl
    exact hdot (by simpa using hc)
  have hlimit : ¬ FilePath.nameLimit < name.utf8ByteSize :=
    Nat.not_lt.2 (Nat.le_trans hname.short hk)
  simp [walk, hplace, hstays, htwo, hlimit]

theorem walk_singleton_of_missing (hplace : t.node? place = none) (name : String) :
    t.walk place [name] = .error .missing := by
  simp [walk, hplace]

/-- A path that leads to a place still does where no directory is gone. -/
theorem walk_of_directories
    (hdirs : ∀ q, t.node? q = some .directory → t'.node? q = some .directory) :
    t.walk place p = .ok q → t'.walk place p = .ok q := by
  induction p generalizing place with
  | nil => exact id
  | cons part p ih =>
    intro h
    simp only [walk] at h ⊢
    cases hplace : t.node? place with
    | none => simp [hplace] at h
    | some n =>
      cases n with
      | file bytes => simp [hplace] at h
      | directory =>
        simp only [hplace] at h
        simp only [hdirs place hplace]
        split_ifs at h ⊢ <;> exact ih h

/-- Where there is less, a path that leads to a place still does, or something on the way is missing. -/
theorem walk_of_fewer (hfewer : ∀ q n, t.node? q = some n → t'.node? q = some n)
    (h : t'.walk place p = .ok q) : t.walk place p = .ok q ∨ t.walk place p = .error .missing := by
  induction p generalizing place with
  | nil => exact .inl h
  | cons part p ih =>
    simp only [walk] at h ⊢
    cases hplace : t.node? place with
    | none => exact .inr rfl
    | some n =>
      rw [hfewer place n hplace] at h
      cases n with
      | file bytes => exact absurd h (by simp)
      | directory =>
        simp only at h ⊢
        split_ifs at h ⊢ <;> exact ih h

theorem locate_eq_ok_iff : t.locate p = .ok q ↔ p.check = .ok () ∧ t.walk [] p = .ok q := by
  unfold locate
  cases hp : p.check with
  | error e => simp [bind, Except.bind]
  | ok u => simp [bind, Except.bind]

/-! ### Putting and removing -/

theorem node?_of_ne_nil (hq : q ≠ []) : t.node? q = t.nodes[q]? := by
  cases q with
  | nil => exact absurd rfl hq
  | cons part q => rfl

theorem node?_insert (hq : q ≠ []) (n : FileNode) (place : Place) :
    (⟨t.nodes.insert q n⟩ : FileTree).node? place = if q = place then some n else t.node? place := by
  cases place with
  | nil => rw [if_neg hq]; rfl
  | cons part place => simp [node?, Std.ExtTreeMap.getElem?_insert]

theorem node?_erase (hq : q ≠ []) (place : Place) :
    (⟨t.nodes.erase q⟩ : FileTree).node? place = if q = place then none else t.node? place := by
  cases place with
  | nil => rw [if_neg hq]; rfl
  | cons part place => simp [node?, Std.ExtTreeMap.getElem?_erase]

/-! ### Listings -/

theorem mem_namesAt : name ∈ t.namesAt place ↔ (t.node? (place ++ [name])).isSome := by
  rw [node?_of_ne_nil (by simp), ← Std.ExtTreeMap.contains_eq_isSome_getElem?,
    ← Std.ExtTreeMap.mem_iff_contains, ← Std.ExtTreeMap.mem_keys, namesAt, List.mem_filterMap]
  constructor
  · rintro ⟨q, hq, hname⟩
    split_ifs at hname with hplace
    obtain ⟨r, rfl⟩ := List.getLast?_eq_some_iff.1 hname
    rw [List.dropLast_concat] at hplace
    exact hplace ▸ hq
  · intro h
    exact ⟨place ++ [name], h, by simp⟩

theorem nodup_namesAt (t : FileTree) (place : Place) : (t.namesAt place).Nodup := by
  have hkeys : t.nodes.keys.Nodup := Std.ExtTreeMap.nodup_keys
  unfold namesAt
  refine List.Nodup.filterMap (fun q r name hq hr => ?_) hkeys
  simp only [Option.mem_def, Option.ite_none_right_eq_some] at hq hr
  obtain ⟨hq, hqlast⟩ := hq
  obtain ⟨hr, hrlast⟩ := hr
  obtain ⟨q, rfl⟩ := List.getLast?_eq_some_iff.1 hqlast
  obtain ⟨r, rfl⟩ := List.getLast?_eq_some_iff.1 hrlast
  rw [List.dropLast_concat] at hq hr
  rw [hq, hr]

/-! ### Making directories -/

/-- Whatever is in the tree lies in a directory. -/
def Rooted (t : FileTree) : Prop :=
  ∀ q part, (t.node? (q ++ [part])).isSome = true → t.node? q = some .directory

theorem rooted_empty : (∅ : FileTree).Rooted := by
  intro q part h
  have hnone : (∅ : FileTree).node? (q ++ [part]) = none := by
    rw [node?_of_ne_nil (by simp)]
    exact Std.ExtTreeMap.getElem?_empty
  rw [hnone] at h
  exact absurd h (by simp)

theorem Rooted.eq_none_below (h : t.Rooted) (hplace : t.node? place = none) (q : Place) :
    t.node? (place ++ q) = none := by
  induction q generalizing place with
  | nil => rwa [List.append_nil]
  | cons part q ih =>
    rw [List.append_cons]
    refine ih ?_
    by_contra hsome
    have hdirectory := h place part (Option.isSome_iff_ne_none.2 hsome)
    simp [hplace] at hdirectory

/-- The tree with one more directory. -/
abbrev withDirectory (t : FileTree) (q : Place) : FileTree := ⟨t.nodes.insert q .directory⟩

/-- Making directories leaves what is there. -/
theorem createFrom_keeps {n : FileNode} (hq : t.node? q = some n) :
    (t.createFrom place p).1.node? q = some n := by
  induction p generalizing t place with
  | nil => exact hq
  | cons part p ih =>
    simp only [createFrom]
    split_ifs
    · exact ih hq
    · exact ih hq
    · exact hq
    · split
      · exact ih hq
      · exact hq
      · next hnone =>
        refine ih ?_
        have hne : place ++ [part] ≠ q := by
          rintro rfl
          rw [hnone] at hq
          exact absurd hq (by simp)
        rw [node?_insert (by simp), if_neg hne, hq]

section

variable {part : String} (hstays : ¬ FilePath.stays part = true) (hback : part ≠ "..")
  (hlimit : ¬ FilePath.nameLimit < part.utf8ByteSize)
include hstays hback hlimit

theorem createFrom_cons_of_directory (hthere : t.node? (place ++ [part]) = some .directory)
    (p : FilePath) : t.createFrom place (part :: p) = t.createFrom (place ++ [part]) p := by
  simp only [createFrom, hstays, hback, hlimit, hthere, if_false, Bool.false_eq_true]

theorem createFrom_cons_of_none (hnone : t.node? (place ++ [part]) = none) (p : FilePath) :
    t.createFrom place (part :: p) =
      (t.withDirectory (place ++ [part])).createFrom (place ++ [part]) p := by
  simp only [createFrom, hstays, hback, hlimit, hnone, if_false, Bool.false_eq_true]

end

/-- What has been made of a path when making it was cut short is found and gone on from. -/
theorem createFrom_resume (t : FileTree) (place : Place) (p : FilePath) (k : Nat) :
    (t.createFrom place (p.take k)).1.createFrom place p = t.createFrom place p := by
  induction p generalizing t place k with
  | nil =>
    rw [List.take_nil]
    rfl
  | cons part p ih =>
    cases k with
    | zero => rfl
    | succ k =>
      rw [List.take_succ_cons]
      by_cases hstays : FilePath.stays part = true
      · simp only [createFrom, hstays, if_true]
        exact ih ..
      by_cases hback : part = ".."
      · simp only [createFrom, hstays, if_false, if_pos hback, Bool.false_eq_true]
        exact ih ..
      by_cases hlimit : FilePath.nameLimit < part.utf8ByteSize
      · simp only [createFrom, hstays, hback, hlimit, if_true, if_false, Bool.false_eq_true]
      -- the directory is there after the first time, so that the second time it is only passed
      cases hnode : t.node? (place ++ [part]) with
      | none =>
        have hthere : (t.withDirectory (place ++ [part])).node? (place ++ [part]) =
            some .directory := by
          rw [node?_insert (by simp), if_pos rfl]
        rw [createFrom_cons_of_none hstays hback hlimit hnode,
          createFrom_cons_of_none hstays hback hlimit hnode,
          createFrom_cons_of_directory hstays hback hlimit (createFrom_keeps hthere), ih]
      | some n =>
        cases n with
        | file bytes =>
          simp only [createFrom, hstays, hback, hlimit, hnode, if_false, Bool.false_eq_true]
        | directory =>
          rw [createFrom_cons_of_directory hstays hback hlimit hnode,
            createFrom_cons_of_directory hstays hback hlimit hnode,
            createFrom_cons_of_directory hstays hback hlimit (createFrom_keeps hnode), ih]

/-- The place a path leads to is a directory without anything in it. -/
def Clear (t : FileTree) (place : Place) (p : FilePath) : Prop :=
  ∃ r, t.walk place p = .ok r ∧ t.node? r = some .directory ∧ ∀ name, t.node? (r ++ [name]) = none

/-- Parts that a directory can be made of. -/
def Makeable (p : FilePath) : Prop :=
  ∀ part ∈ p, part ≠ ".." ∧ part.utf8ByteSize ≤ FilePath.nameLimit

instance (p : FilePath) : Decidable (Makeable p) :=
  inferInstanceAs (Decidable (∀ part ∈ p, part ≠ ".." ∧ part.utf8ByteSize ≤ FilePath.nameLimit))

theorem clear_of_stays {part : String} (hstays : FilePath.stays part = true)
    (hplace : t.node? place = some .directory)
    (h : (t.createFrom place p).2 = true ∧ (t.createFrom place p).1.Clear place p) :
    (t.createFrom place (part :: p)).2 = true ∧
      (t.createFrom place (part :: p)).1.Clear place (part :: p) := by
  have hplace' : (t.createFrom place p).1.node? place = some .directory := createFrom_keeps hplace
  simpa [createFrom, Clear, walk, hstays, hplace'] using h

theorem clear_of_none {part : String} (hp : Makeable (part :: p))
    (hstays : ¬ FilePath.stays part = true) (hplace : t.node? place = some .directory)
    (hnone : t.node? (place ++ [part]) = none)
    (h : ((t.withDirectory (place ++ [part])).createFrom (place ++ [part]) p).2 = true ∧
      ((t.withDirectory (place ++ [part])).createFrom (place ++ [part]) p).1.Clear
        (place ++ [part]) p) :
    (t.createFrom place (part :: p)).2 = true ∧
      (t.createFrom place (part :: p)).1.Clear place (part :: p) := by
  obtain ⟨hback, hlimit⟩ := hp part List.mem_cons_self
  have hlimit := Nat.not_lt.2 hlimit
  have hplace₁ : (t.withDirectory (place ++ [part])).node? place = some .directory := by
    rw [node?_insert (by simp), if_neg (by simp), hplace]
  have hplace' : ((t.withDirectory (place ++ [part])).createFrom (place ++ [part]) p).1.node? place =
      some .directory := createFrom_keeps hplace₁
  simpa [createFrom, Clear, walk, hstays, hback, hlimit, hnone, hplace'] using h

/-- Where nothing is, the whole of a path can be made. -/
theorem createFrom_withDirectory (hp : Makeable p) (hplace : place ≠ [])
    (hbelow : ∀ q, t.node? (place ++ q) = none) :
    ((t.withDirectory place).createFrom place p).2 = true ∧
      ((t.withDirectory place).createFrom place p).1.Clear place p := by
  induction p generalizing t place with
  | nil =>
    refine ⟨rfl, place, rfl, ?_, fun name => ?_⟩
    · rw [createFrom, node?_insert hplace, if_pos rfl]
    · rw [createFrom, node?_insert hplace, if_neg (by simp), hbelow]
  | cons part p ih =>
    have hrest : Makeable p := fun x hx => hp x (List.mem_cons_of_mem _ hx)
    have hmade : (t.withDirectory place).node? place = some .directory := by
      rw [node?_insert hplace, if_pos rfl]
    have hbelow₁ : ∀ q, (t.withDirectory place).node? (place ++ [part] ++ q) = none := by
      intro q
      rw [node?_insert hplace, if_neg (by simp), List.append_assoc, hbelow]
    by_cases hstays : FilePath.stays part = true
    · exact clear_of_stays hstays hmade (ih hrest hplace hbelow)
    · have hnone := hbelow₁ []
      rw [List.append_nil] at hnone
      exact clear_of_none hp hstays hmade hnone (ih hrest (by simp) hbelow₁)

/-- Where a path leads to nothing, what is missing of it can be made. -/
theorem createFrom_of_missing (ht : t.Rooted) (hp : Makeable p)
    (hplace : t.node? place = some .directory)
    (hwalk : t.walk place p = .error .missing ∨ ∃ q, t.walk place p = .ok q ∧ t.node? q = none) :
    (t.createFrom place p).2 = true ∧ (t.createFrom place p).1.Clear place p := by
  induction p generalizing place with
  | nil =>
    rcases hwalk with hwalk | ⟨q, hwalk, hq⟩
    · simp [walk] at hwalk
    · obtain rfl : place = q := by simpa [walk] using hwalk
      simp [hplace] at hq
  | cons part p ih =>
    have hrest : Makeable p := fun x hx => hp x (List.mem_cons_of_mem _ hx)
    by_cases hstays : FilePath.stays part = true
    · refine clear_of_stays hstays hplace (ih hrest hplace ?_)
      simpa [walk, hplace, hstays] using hwalk
    · obtain ⟨hback, hlimit⟩ := hp part List.mem_cons_self
      have hlimit := Nat.not_lt.2 hlimit
      have hwalk' : t.walk (place ++ [part]) p = .error .missing ∨
          ∃ q, t.walk (place ++ [part]) p = .ok q ∧ t.node? q = none := by
        simpa [walk, hplace, hstays, hback, hlimit] using hwalk
      cases hnode : t.node? (place ++ [part]) with
      | none =>
        exact clear_of_none hp hstays hplace hnode
          (createFrom_withDirectory hrest (by simp) (ht.eq_none_below hnode))
      | some n =>
        cases n with
        | file bytes =>
          cases p <;> simp [walk, hnode] at hwalk'
        | directory =>
          obtain ⟨hmade, hclear⟩ := ih hrest hnode hwalk'
          have hplace' : (t.createFrom (place ++ [part]) p).1.node? place = some .directory :=
            createFrom_keeps hplace
          refine ⟨by simpa [createFrom, hstays, hback, hlimit, hnode] using hmade, ?_⟩
          simpa [createFrom, Clear, walk, hstays, hback, hlimit, hnode, hplace'] using hclear

end FileTree

end AccountVault
