import AccountVault.Proofs.Storage.Refinement
import Mathlib.Data.List.Pairwise

/-!
# Other spellings

An id can be written with a plus sign and zeros in front.  A directory lists the ids of all file names
that are read as one, but loads a record from the plain name only.  So it lists an id once for every
spelling of it that is there, which is what it can load exactly if there are plain names only
(`Directory.listing_counts_spellings`).
-/

namespace AccountVault

namespace Text

variable {s : List Char} {n : Nat}

/-! ### Numbers with zeros in front -/

theorem digitChar_of_isDigit {c : Char} (hc : c.isDigit = true) : (c.toNat - 48).digitChar = c := by
  have hrange := toNat_of_isDigit hc
  apply Char.toNat_inj.1
  rw [Nat.toNat_digitChar_of_lt_ten (by omega)]
  omega

/-- Digits that come after a number are read as if they had been written with it. -/
theorem toDigits_ofDigitChars (hs : ∀ c ∈ s, c.isDigit = true) {acc : Nat} (hacc : 0 < acc) :
    Nat.toDigits 10 (Nat.ofDigitChars 10 s acc) = Nat.toDigits 10 acc ++ s := by
  induction s generalizing acc with
  | nil => simp
  | cons c s ih =>
    obtain ⟨hc, hs⟩ := List.forall_mem_cons.1 hs
    have hrange := toNat_of_isDigit hc
    have hlt : c.toNat - 48 < 10 := by omega
    have hlast := Nat.toDigits_append_toDigits (by decide) hacc hlt
    rw [Nat.toDigits_of_lt_base hlt, digitChar_of_isDigit hc] at hlast
    rw [Nat.ofDigitChars_cons, show '0'.toNat = 48 from rfl, ih hs (by omega), ← hlast]
    simp

theorem exists_zeros (hs : ∀ c ∈ s, c.isDigit = true) (hne : s ≠ []) :
    ∃ zeros, s = List.replicate zeros '0' ++ Nat.toDigits 10 (Nat.ofDigitChars 10 s 0) := by
  induction s with
  | nil => exact absurd rfl hne
  | cons c s ih =>
    obtain ⟨hc, hrest⟩ := List.forall_mem_cons.1 hs
    rw [Nat.ofDigitChars_cons, Nat.mul_zero, Nat.zero_add, show '0'.toNat = 48 from rfl]
    by_cases hzero : c = '0'
    · subst hzero
      cases s with
      | nil => exact ⟨0, rfl⟩
      | cons d s =>
        obtain ⟨zeros, h⟩ := ih hrest (by simp)
        refine ⟨zeros + 1, ?_⟩
        rw [List.replicate_succ, List.cons_append]
        exact congrArg ('0' :: ·) h
    · -- the number begins here
      have hrange := toNat_of_isDigit hc
      have hne48 : c.toNat ≠ 48 := fun h => hzero (Char.toNat_inj.1 h)
      refine ⟨0, ?_⟩
      rw [toDigits_ofDigitChars hrest (by omega), Nat.toDigits_of_lt_base (by omega),
        digitChar_of_isDigit hc]
      rfl

theorem ofDigitChars_zeros (zeros : Nat) : Nat.ofDigitChars 10 (List.replicate zeros '0') 0 = 0 := by
  induction zeros with
  | zero => rfl
  | succ zeros ih => exact ih

/-- A number is written by its digits, perhaps with zeros in front. -/
theorem readNat?_eq_some_iff :
    readNat? s = some n ↔ ∃ zeros, s = List.replicate zeros '0' ++ Nat.toDigits 10 n := by
  unfold readNat?
  constructor
  · intro h
    split_ifs at h with hs
    cases h
    exact exists_zeros (List.all_eq_true.1 hs.2) hs.1
  · rintro ⟨zeros, rfl⟩
    have hdigits : ∀ c ∈ List.replicate zeros '0' ++ Nat.toDigits 10 n, c.isDigit = true := by
      intro c hc
      rcases List.mem_append.1 hc with hc | hc
      · rw [(List.mem_replicate.1 hc).2]
        rfl
      · exact isDigit_of_mem_toDigits hc
    have hne : List.replicate zeros '0' ++ Nat.toDigits 10 n ≠ [] :=
      List.append_ne_nil_of_right_ne_nil _ Nat.toDigits_ne_nil
    rw [if_pos ⟨hne, List.all_eq_true.2 hdigits⟩, Nat.ofDigitChars_append, ofDigitChars_zeros,
      Nat.ofDigitChars_toDigits (by decide) (by decide)]

/-- Before all of that there can be one plus sign. -/
theorem readUnsigned?_eq_some_iff : readUnsigned? s = some n ↔ ∃ (plus : Bool) (zeros : Nat),
    s = (if plus then ['+'] else []) ++ List.replicate zeros '0' ++ Nat.toDigits 10 n := by
  constructor
  · intro h
    unfold readUnsigned? at h
    split at h
    · obtain ⟨zeros, rfl⟩ := readNat?_eq_some_iff.1 h
      exact ⟨true, zeros, rfl⟩
    · obtain ⟨zeros, rfl⟩ := readNat?_eq_some_iff.1 h
      exact ⟨false, zeros, rfl⟩
  · rintro ⟨plus, zeros, rfl⟩
    have hread : readNat? (List.replicate zeros '0' ++ Nat.toDigits 10 n) = some n :=
      readNat?_eq_some_iff.2 ⟨zeros, rfl⟩
    cases plus with
    | true => exact hread
    | false =>
      have hhead : (List.replicate zeros '0' ++ Nat.toDigits 10 n).head? ≠ some '+' := by
        intro h
        rcases List.mem_append.1 (List.mem_of_mem_head? h) with hmem | hmem
        · exact absurd (List.mem_replicate.1 hmem).2 (by decide)
        · exact absurd (isDigit_of_mem_toDigits hmem) (by decide)
      exact (readUnsigned?_eq_readNat? hhead).trans hread

theorem readId?_eq_some_iff {id : AccountId} : readId? s = some id ↔ ∃ (plus : Bool) (zeros : Nat),
    s = (if plus then ['+'] else []) ++ List.replicate zeros '0' ++ Nat.toDigits 10 id.toNat := by
  rw [← readUnsigned?_eq_some_iff, readId?, Option.bind_eq_some_iff]
  constructor
  · rintro ⟨n, hn, hid⟩
    unfold Word.nat64? at hid
    split_ifs at hid with hlt
    cases hid
    rw [UInt64.toNat_ofNat_of_lt' hlt]
    exact hn
  · intro h
    exact ⟨id.toNat, h, Word.nat64?_toNat id⟩

end Text

/-- A tree with one directory below the root, and empty files of certain names in it. -/
def FileTree.shallow (directory : String) : List String → FileTree
  | [] => ⟨(∅ : Std.ExtTreeMap Place FileNode).insert [directory] .directory⟩
  | name :: names => ⟨(shallow directory names).nodes.insert [directory, name] (.file [])⟩

theorem FileTree.node?_shallow (directory : String) (names : List String) (name : String) :
    (shallow directory names).node? [directory, name] =
      if name ∈ names then some (.file []) else none := by
  induction names with
  | nil => simp [shallow, node?]
  | cons first names ih =>
    rw [shallow, node?_insert (by simp), ih]
    by_cases hfirst : first = name
    · simp [hfirst]
    · simp [hfirst, Ne.symm hfirst]

namespace Directory

variable {d : Directory} {t : FileTree} {names : List String} {name : String} {id : AccountId}

/-! ### Spellings of a record's name -/

/-- The name of a record, perhaps with a plus sign and zeros in front. -/
def spelling (plus : Bool) (zeros : Nat) (id : AccountId) : String :=
  String.ofList ((if plus then ['+'] else []) ++ List.replicate zeros '0') ++ recordName id

theorem toList_spelling (plus : Bool) (zeros : Nat) (id : AccountId) : (spelling plus zeros id).toList =
    (if plus then ['+'] else []) ++ List.replicate zeros '0' ++ (recordName id).toList := by
  rw [spelling, String.toList_append, String.toList_ofList]

theorem spelling_eq_recordName_iff {plus : Bool} {zeros : Nat} :
    spelling plus zeros id = recordName id ↔ plus = false ∧ zeros = 0 := by
  constructor
  · intro h
    have hlength := congrArg (fun name => name.toList.length) h
    simp only [toList_spelling, List.length_append, List.length_replicate] at hlength
    cases plus with
    | true =>
      rw [if_pos rfl, List.length_singleton] at hlength
      omega
    | false => exact ⟨rfl, by omega⟩
  · rintro ⟨rfl, rfl⟩
    exact String.toList_inj.1 (toList_spelling ..)

/-- The names that stand for an id are the spellings of its record's name. -/
theorem idOfName?_eq_some_iff_spelling :
    idOfName? name = some id ↔ ∃ plus zeros, name = spelling plus zeros id := by
  rw [idOfName?_eq_some_iff]
  simp only [Text.readId?_eq_some_iff]
  constructor
  · rintro ⟨stem, hname, plus, zeros, rfl⟩
    refine ⟨plus, zeros, String.toList_inj.1 ?_⟩
    rw [hname, toList_spelling, toList_recordName, List.append_assoc]
  · rintro ⟨plus, zeros, rfl⟩
    refine ⟨_, ?_, plus, zeros, rfl⟩
    simp only [toList_spelling, toList_recordName, List.append_assoc]

/-! ### What is listed and what is loaded -/

/-- The names of the files in a directory, all of them regular files; one that is missing has none. -/
inductive Lists (d : Directory) (t : FileTree) : List String → Prop
  | there (place : Place) (sits : d.Sits t place)
    (regular : ∀ name, t.node? (place ++ [name]) ≠ some .directory) : Lists d t (t.namesAt place)
  | missing (absent : t.list d.path = .error .missing) (checked : d.path.check = .ok ()) : Lists d t []

namespace Lists

theorem listIds_eq (h : d.Lists t names) : d.listIds t = .ok (idsOfNames names) := by
  unfold listIds
  cases h with
  | there place sits _ => rw [list_eq_ok_iff.2 ⟨place, sits, rfl⟩]
  | missing absent _ =>
    rw [absent]
    exact congrArg Except.ok List.mergeSort_nil.symm

theorem nodup (h : d.Lists t names) : names.Nodup := by
  cases h with
  | there place _ _ => exact FileTree.nodup_namesAt t place
  | missing => exact List.nodup_nil

/-- A record is loaded from the file of its own name. -/
theorem exists_load?_eq (h : d.Lists t names) (hroom : d.Roomy) (id : AccountId) :
    ∃ bytes?, d.load? (recordName id) t = .ok bytes? ∧ (bytes?.isSome ↔ recordName id ∈ names) := by
  have hname : PlainName 29 (recordName id) := (plainName_recordName id).mono (by decide)
  cases h with
  | there place sits regular =>
    cases hnode : t.node? (place ++ [recordName id]) with
    | none =>
      refine ⟨none, sits.load?_eq hroom hname hnode, ?_⟩
      rw [FileTree.mem_namesAt, hnode]
      rfl
    | some n =>
      cases n with
      | directory => exact absurd hnode (regular _)
      | file bytes =>
        refine ⟨some bytes, sits.load?_eq hroom hname hnode, ?_⟩
        rw [FileTree.mem_namesAt, hnode]
        rfl
  | missing absent checked =>
    refine ⟨none, ?_, by simp⟩
    have hlocate := locate_filePath_of_absent absent checked hroom hname
    simp only [load?, FileTree.read, FileTree.find, hlocate, bind, Except.bind]

end Lists

theorem lists_shallow {names : List String} {d : Directory} {directory : String}
    (hsits : d.Sits (FileTree.shallow directory names) [directory]) :
    d.Lists (FileTree.shallow directory names)
      ((FileTree.shallow directory names).namesAt [directory]) := by
  refine .there [directory] hsits fun name => ?_
  rw [List.singleton_append, FileTree.node?_shallow]
  split <;> simp

/-- An id is listed once for every name that stands for it. -/
theorem count_idsOfNames (names : List String) (id : AccountId) :
    (idsOfNames names).count id = names.countP fun name => idOfName? name = some id := by
  rw [(perm_idsOfNames names).count_eq, List.count, List.countP_filterMap]
  refine List.countP_congr fun name _ => ?_
  cases idOfName? name <;> simp

theorem mem_idsOfNames_iff : id ∈ idsOfNames names ↔ ∃ plus zeros, spelling plus zeros id ∈ names := by
  rw [(perm_idsOfNames names).mem_iff, List.mem_filterMap]
  constructor
  · rintro ⟨name, hname, hid⟩
    obtain ⟨plus, zeros, rfl⟩ := idOfName?_eq_some_iff_spelling.1 hid
    exact ⟨plus, zeros, hname⟩
  · rintro ⟨plus, zeros, hname⟩
    exact ⟨_, hname, idOfName?_eq_some_iff_spelling.2 ⟨plus, zeros, rfl⟩⟩

/-- What is listed are the plain names, each once, exactly if nothing is spelled otherwise. -/
theorem listed_eq_plain_iff (hnames : names.Nodup) :
    ((idsOfNames names).Nodup ∧ ∀ id, id ∈ idsOfNames names ↔ recordName id ∈ names) ↔
      ∀ id plus zeros, spelling plus zeros id ∈ names → plus = false ∧ zeros = 0 := by
  constructor
  · rintro ⟨hnodup, hplain⟩ id plus zeros hname
    refine spelling_eq_recordName_iff.1 (show spelling plus zeros id = recordName id from ?_)
    by_contra hother
    -- the id is listed for this name, and for the plain name that has to be there as well
    have hthere : recordName id ∈ names := (hplain id).1 (mem_idsOfNames_iff.2 ⟨plus, zeros, hname⟩)
    rw [(perm_idsOfNames names).nodup_iff, List.nodup_iff_pairwise_ne, List.pairwise_filterMap] at hnodup
    have hsymm : Std.Symm fun m n => ∀ i, idOfName? m = some i → ∀ j, idOfName? n = some j → i ≠ j :=
      ⟨fun m n h i hi j hj => (h j hj i hi).symm⟩
    have hapart := hnodup.forall hname hthere hother
    exact hapart id (idOfName?_eq_some_iff_spelling.2 ⟨plus, zeros, rfl⟩) id (idOfName?_recordName id) rfl
  · intro h
    have hrecord : ∀ name ∈ names, ∀ id, idOfName? name = some id → name = recordName id := by
      intro name hname id hid
      obtain ⟨plus, zeros, rfl⟩ := idOfName?_eq_some_iff_spelling.1 hid
      exact spelling_eq_recordName_iff.2 (h id plus zeros hname)
    refine ⟨(perm_idsOfNames names).nodup_iff.2 (nodup_filterMap_idOfName? hnames hrecord), fun id => ?_⟩
    rw [(perm_idsOfNames names).mem_iff, List.mem_filterMap]
    constructor
    · rintro ⟨name, hname, hid⟩
      exact hrecord name hname id hid ▸ hname
    · intro hname
      exact ⟨_, hname, idOfName?_recordName id⟩

/-- A directory of regular files under any names, or one that is missing, lists an id once for each
spelling of its name that is there.  It loads the record that has the plain name.  So every id that can be
loaded is listed, and what is listed are those ids, each once, exactly if nothing is spelled otherwise. -/
theorem listing_counts_spellings (hroom : d.Roomy) (h : d.Lists t names) :
    ∃ ids, d.listIds t = .ok ids ∧ ids.Pairwise (· ≤ ·) ∧
      (∀ id, ids.count id = names.countP fun name => idOfName? name = some id) ∧
      (∀ name id, idOfName? name = some id ↔ ∃ plus zeros, name = spelling plus zeros id) ∧
      (∀ id, ∃ bytes?, d.load? (recordName id) t = .ok bytes? ∧ (bytes?.isSome ↔ recordName id ∈ names)) ∧
      (∀ id, recordName id ∈ names → id ∈ ids) ∧
      ((ids.Nodup ∧ ∀ id, id ∈ ids ↔ ∃ bytes, d.load? (recordName id) t = .ok (some bytes)) ↔
        ∀ id plus zeros, spelling plus zeros id ∈ names → plus = false ∧ zeros = 0) := by
  have hloads : ∀ id, (∃ bytes, d.load? (recordName id) t = .ok (some bytes)) ↔ recordName id ∈ names := by
    intro id
    obtain ⟨bytes?, hload, hthere⟩ := h.exists_load?_eq hroom id
    rw [hload, ← hthere, Option.isSome_iff_exists]
    simp only [Except.ok.injEq]
  refine ⟨idsOfNames names, h.listIds_eq, pairwise_idsOfNames names, count_idsOfNames names,
    fun name id => idOfName?_eq_some_iff_spelling, h.exists_load?_eq hroom, fun id hname => ?_, ?_⟩
  · exact mem_idsOfNames_iff.2 ⟨false, 0, (spelling_eq_recordName_iff.2 ⟨rfl, rfl⟩).symm ▸ hname⟩
  · simp only [hloads]
    exact listed_eq_plain_iff h.nodup

/-- The same id is listed twice where its name is there in two spellings, and another one is listed that
cannot be loaded. -/
theorem listing_counts_spellings_of_zeros :
    let d : Directory := ⟨"acc"⟩
    let t := FileTree.shallow "acc" ["007.json", "7.json", "+8.json", "notes.txt"]
    ∃ ids, d.listIds t = .ok ids ∧ ids.count 7 = 2 ∧ ids.count 8 = 1 ∧ ids.count 0 = 0 ∧
      d.load? (recordName 8) t = .ok none := by
  intro d t
  have hsits : d.Sits t ["acc"] := ⟨by decide +kernel, by decide +kernel⟩
  obtain ⟨ids, hlist, -, hcount, -, hload, -⟩ :=
    listing_counts_spellings (by decide +kernel) (lists_shallow hsits)
  obtain ⟨bytes?, h8, hthere⟩ := hload 8
  have hbytes : bytes? = none := by
    rw [← Option.not_isSome_iff_eq_none, hthere]
    decide +kernel
  exact ⟨ids, hlist, (hcount 7).trans (by decide +kernel), (hcount 8).trans (by decide +kernel),
    (hcount 0).trans (by decide +kernel), hbytes ▸ h8⟩

/-- A file of another spelling is listed, and there is no record to load for it. -/
theorem other_spelling_is_listed_and_not_loaded :
    let d : Directory := ⟨"acc"⟩
    let t := FileTree.shallow "acc" ["007.json"]
    d.listIds t = .ok [7] ∧ d.load? (recordName 7) t = .ok none := by
  decide +kernel

end Directory

end AccountVault
