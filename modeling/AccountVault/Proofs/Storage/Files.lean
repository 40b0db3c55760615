import AccountVault.Proofs.Storage.Paths

/-!
# Files of a directory

What loading, replacing and removing a file comes to, in a directory that is there and in one that is
not.  Main statements: `Directory.Sits.load?_eq`, `Directory.Sits.replace_eq` and
`Directory.replace_of_made`.
-/

namespace AccountVault.Directory

variable {d : Directory} {t t' : FileTree} {place : Place} {name : String}

/-- Whether the files of a directory have paths that are not too long. -/
def Roomy (d : Directory) : Prop := d.path.size + 30 ≤ FilePath.sizeLimit

instance (d : Directory) : Decidable d.Roomy := inferInstanceAs (Decidable (_ ≤ _))

/-- The directory is there, at a place. -/
structure Sits (d : Directory) (t : FileTree) (place : Place) : Prop where
  located : t.locate d.path = .ok place
  directory : t.node? place = some .directory

theorem list_eq_ok_iff {names : List String} :
    t.list d.path = .ok names ↔ ∃ place, d.Sits t place ∧ names = t.namesAt place := by
  unfold FileTree.list
  constructor
  · intro h
    cases hplace : t.locate d.path with
    | error e => simp [hplace, bind, Except.bind] at h
    | ok place =>
      simp only [hplace, bind, Except.bind] at h
      cases hnode : t.node? place with
      | none => simp [hnode] at h
      | some n =>
        cases n with
        | file bytes => simp [hnode] at h
        | directory =>
          simp only [hnode, Except.ok.injEq] at h
          exact ⟨place, ⟨hplace, hnode⟩, h.symm⟩
  · rintro ⟨place, hsits, rfl⟩
    simp [hsits.located, bind, Except.bind, hsits.directory]

namespace Sits

variable (hsits : d.Sits t place)
include hsits

theorem isDirectory : t.isDirectory d.path = true :=
  FileTree.isDirectory_iff.2 ⟨place, hsits.located, hsits.directory⟩

/-- The directory stays there where no directory is gone. -/
theorem of_directories
    (hdirs : ∀ q, t.node? q = some .directory → t'.node? q = some .directory) :
    d.Sits t' place := by
  obtain ⟨hcheck, hwalk⟩ := FileTree.locate_eq_ok_iff.1 hsits.located
  exact ⟨FileTree.locate_eq_ok_iff.2 ⟨hcheck, FileTree.walk_of_directories hdirs hwalk⟩,
    hdirs place hsits.directory⟩

theorem locate_filePath (hroom : d.Roomy) (hname : PlainName 29 name) :
    t.locate (d.filePath name) = .ok (place ++ [name]) := by
  obtain ⟨hcheck, hwalk⟩ := FileTree.locate_eq_ok_iff.1 hsits.located
  refine FileTree.locate_eq_ok_iff.2 ⟨FilePath.check_below hname hcheck hroom, ?_⟩
  rw [filePath, FileTree.walk_below, hwalk]
  exact FileTree.walk_plain hname (by decide) hsits.directory

theorem load?_eq (hroom : d.Roomy) (hname : PlainName 29 name) {bytes? : Option Bytes}
    (hfile : t.node? (place ++ [name]) = bytes?.map .file) : d.load? name t = .ok bytes? := by
  have hlocate := hsits.locate_filePath hroom hname
  cases bytes? <;>
    simp_all [load?, FileTree.read, FileTree.find, bind, Except.bind]

theorem remove_eq (hroom : d.Roomy) (hname : PlainName 29 name) {bytes? : Option Bytes}
    (hfile : t.node? (place ++ [name]) = bytes?.map .file) :
    ∃ t', d.remove name t = (t', .ok .done) ∧
      ∀ q, t'.node? q = if place ++ [name] = q then none else t.node? q := by
  have hlocate := hsits.locate_filePath hroom hname
  cases bytes? with
  | none =>
    refine ⟨t, by simp_all [remove, FileTree.remove, bind, Except.bind], fun q => ?_⟩
    split_ifs with hq
    · rw [← hq, hfile, Option.map_none]
    · rfl
  | some bytes =>
    exact ⟨_, by simp_all [remove, FileTree.remove, bind, Except.bind],
      FileTree.node?_erase (by simp)⟩

theorem holdsFile (hfile : t.node? (place ++ [name]) ≠ some .directory) :
    t.holdsFile (place ++ [name]) = true := by
  simp [FileTree.holdsFile, hsits.directory, hfile]

theorem prepare_eq : d.prepare t = (t, none) := by
  rw [prepare, FileTree.createAll_of_isDirectory hsits.isDirectory]

theorem stage_eq (hroom : d.Roomy) (hname : PlainName 29 (temporaryName name)) (bytes : Bytes)
    (hfree : t.node? (place ++ [temporaryName name]) ≠ some .directory) :
    ∃ t', d.stage name bytes t = (t', none) ∧ ∀ q, t'.node? q =
      if place ++ [temporaryName name] = q then some (.file bytes) else t.node? q := by
  refine ⟨_, ?_, FileTree.node?_insert (by simp) _⟩
  rw [stage, FileTree.write, hsits.locate_filePath hroom hname]
  simp only [FileTree.putFile, hsits.holdsFile hfree, if_true]

theorem install_eq (hroom : d.Roomy) (hname : PlainName 25 name) {bytes : Bytes}
    (hfile : t.node? (place ++ [temporaryName name]) = some (.file bytes))
    (hfree : t.node? (place ++ [name]) ≠ some .directory) :
    ∃ t', d.install name t = (t', none) ∧ ∀ q, t'.node? q =
      if place ++ [name] = q then some (.file bytes)
      else if place ++ [temporaryName name] = q then none else t.node? q := by
  have hsource := hsits.locate_filePath hroom hname.temporary
  have htarget := hsits.locate_filePath hroom (hname.mono (by decide))
  have hread : t.read (d.filePath (temporaryName name)) = .ok bytes := by
    simp [FileTree.read, FileTree.find, bind, Except.bind, hsource, hfile]
  refine ⟨⟨(t.nodes.erase (place ++ [temporaryName name])).insert (place ++ [name]) (.file bytes)⟩,
    ?_, fun q => ?_⟩
  · rw [install, FileTree.rename, hread, hsource, htarget]
    simp only [hsits.holdsFile hfree, if_true]
  · rw [FileTree.node?_insert (t := ⟨t.nodes.erase (place ++ [temporaryName name])⟩) (by simp),
      FileTree.node?_erase (by simp)]

/-- Writing new bytes beside a file leaves the directory there. -/
theorem of_staged (hfree : t.node? (place ++ [temporaryName name]) ≠ some .directory) {bytes : Bytes}
    (hnode : ∀ q, t'.node? q =
      if place ++ [temporaryName name] = q then some (.file bytes) else t.node? q) :
    d.Sits t' place := by
  refine hsits.of_directories fun q hq => ?_
  rw [hnode, if_neg, hq]
  rintro rfl
  exact hfree hq

/-- Replacing a file puts the new bytes in its place, and leaves no temporary file, whatever was left of
one before. -/
theorem replace_eq (hroom : d.Roomy) (hname : PlainName 25 name) (bytes : Bytes)
    (hfile : t.node? (place ++ [name]) ≠ some .directory)
    (hfree : t.node? (place ++ [temporaryName name]) ≠ some .directory) :
    ∃ t', d.replace name bytes t = (t', .ok .done) ∧ ∀ q, t'.node? q =
      if place ++ [name] = q then some (.file bytes)
      else if place ++ [temporaryName name] = q then none else t.node? q := by
  obtain ⟨t₁, hstage, hnode₁⟩ := hsits.stage_eq hroom hname.temporary bytes hfree
  have hsits₁ : d.Sits t₁ place := hsits.of_staged hfree hnode₁
  have hdiffers : place ++ [temporaryName name] ≠ place ++ [name] := by
    intro h
    have hsame : temporaryName name = name := by simpa using h
    have hlength := congrArg String.length hsame
    simp [temporaryName] at hlength
  have hstaged : t₁.node? (place ++ [temporaryName name]) = some (.file bytes) := by
    rw [hnode₁, if_pos rfl]
  have hfile₁ : t₁.node? (place ++ [name]) ≠ some .directory := by
    rwa [hnode₁, if_neg hdiffers]
  obtain ⟨t₂, hinstall, hnode₂⟩ := hsits₁.install_eq hroom hname hstaged hfile₁
  refine ⟨t₂, ?_, fun q => ?_⟩
  · simp [Directory.replace, perform, steps, hsits.prepare_eq, hstage, hinstall]
  · rw [hnode₂, hnode₁]
    split_ifs <;> rfl

end Sits

/-! ### Directories that are missing -/

theorem isDirectory_of_absent (habsent : t.list d.path = .error .missing) :
    t.isDirectory d.path = false := by
  rw [Bool.eq_false_iff]
  intro hthere
  obtain ⟨place, hlocate, hnode⟩ := FileTree.isDirectory_iff.1 hthere
  rw [list_eq_ok_iff.2 ⟨place, ⟨hlocate, hnode⟩, rfl⟩] at habsent
  exact absurd habsent (by simp)

theorem walk_of_absent (habsent : t.list d.path = .error .missing)
    (hcheck : d.path.check = .ok ()) :
    t.walk [] d.path = .error .missing ∨
      ∃ place, t.walk [] d.path = .ok place ∧ t.node? place = none := by
  simp only [FileTree.list, FileTree.locate, hcheck, bind, Except.bind] at habsent
  cases hw : t.walk [] d.path with
  | error e =>
    rw [hw] at habsent
    exact Or.inl habsent
  | ok place =>
    simp only [hw] at habsent
    cases hnode : t.node? place with
    | none => exact Or.inr ⟨place, rfl, hnode⟩
    | some n => cases n <;> simp [hnode] at habsent

/-- Where there is less than in a tree with an empty directory, the directory is empty or missing. -/
theorem list_of_fewer (hfewer : ∀ q n, t.node? q = some n → t'.node? q = some n)
    (hlisted : t'.list d.path = .ok []) :
    t.list d.path = .ok [] ∨ t.list d.path = .error .missing := by
  obtain ⟨place, hsits, hnames⟩ := list_eq_ok_iff.1 hlisted
  obtain ⟨hcheck, hwalk⟩ := FileTree.locate_eq_ok_iff.1 hsits.located
  rcases FileTree.walk_of_fewer hfewer hwalk with hwalk' | hwalk'
  · cases hnode : t.node? place with
    | none =>
      refine .inr ?_
      simp [FileTree.list, FileTree.locate, hcheck, hwalk', hnode, bind, Except.bind]
    | some n =>
      obtain rfl : n = .directory := Option.some.inj ((hfewer place n hnode).symm.trans hsits.directory)
      refine .inl (list_eq_ok_iff.2
        ⟨place, ⟨FileTree.locate_eq_ok_iff.2 ⟨hcheck, hwalk'⟩, hnode⟩, ?_⟩)
      refine (List.eq_nil_iff_forall_not_mem.2 fun name hname => ?_).symm
      obtain ⟨m, hm⟩ := Option.isSome_iff_exists.1 (FileTree.mem_namesAt.1 hname)
      have hthere : name ∈ t'.namesAt place := by
        rw [FileTree.mem_namesAt, hfewer _ m hm]
        rfl
      rw [← hnames] at hthere
      exact absurd hthere (by simp)
  · refine .inr ?_
    simp [FileTree.list, FileTree.locate, hcheck, hwalk', bind, Except.bind]

/-- In a directory that is missing so are its files. -/
theorem locate_filePath_of_absent (habsent : t.list d.path = .error .missing)
    (hcheck : d.path.check = .ok ()) (hroom : d.Roomy) (hname : PlainName 29 name) :
    t.locate (d.filePath name) = .error .missing := by
  have hbelow := FilePath.check_below hname hcheck hroom
  have hlocate : t.locate (d.filePath name) = t.walk [] (d.filePath name) := by
    simp only [FileTree.locate, filePath, hbelow, bind, Except.bind]
  rw [hlocate, filePath, FileTree.walk_below]
  rcases walk_of_absent habsent hcheck with hwalk | ⟨place, hwalk, hnode⟩
  · rw [hwalk]
    rfl
  · rw [hwalk]
    exact FileTree.walk_singleton_of_missing hnode name

/-- Whatever is done once the directory is made is done as if it had been there. -/
theorem perform_of_made (hmade : (t.createAll d.path).2 = true)
    (hsits : d.Sits (t.createAll d.path).1 place) (fs : List Step) :
    perform (d.prepare :: fs) t = perform (d.prepare :: fs) (t.createAll d.path).1 := by
  have hprepare : d.prepare t = ((t.createAll d.path).1, none) := by
    unfold prepare
    split
    · next t' h => rw [h]
    · next t' h => simp [h] at hmade
  simp [perform, hprepare, hsits.prepare_eq]

/-- A write makes the directory first. -/
theorem replace_of_made (hmade : (t.createAll d.path).2 = true)
    (hsits : d.Sits (t.createAll d.path).1 place) (name : String) (bytes : Bytes) :
    d.replace name bytes t = d.replace name bytes (t.createAll d.path).1 := by
  rw [replace, steps, perform_of_made hmade hsits, replace, steps]

end AccountVault.Directory
