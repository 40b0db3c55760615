import AccountVault.Storage.Contents
import AccountVault.Proofs.Storage.Files

/-!
# A directory answers like a map

A directory holds some contents where each file that it keeps is what `Contents.file?` says.  A request
keeps that, and its answer is the map's; so a directory that starts missing or empty and that nothing
else touches answers any requests as a fresh map does, in whatever order it lists its names.  Main
statement: `Directory.answers_eq_contents`.
-/

namespace AccountVault

open Directory (recordName markName temporaryName idOfName? markBytes)

namespace Contents

variable {c : Contents}

/-- What the file of a given name holds. -/
def file? (c : Contents) (name : String) : Option Bytes :=
  if name = markName then c.mark.map markBytes
  else
    match idOfName? name with
    | some id => if name = recordName id then c.record? id else none
    | none => none

@[simp] theorem file?_markName (c : Contents) : c.file? markName = c.mark.map markBytes := by
  simp [file?]

@[simp] theorem file?_recordName (c : Contents) (id : AccountId) :
    c.file? (recordName id) = c.record? id := by
  simp [file?, Directory.recordName_ne_markName]

@[simp] theorem file?_empty (name : String) : (∅ : Contents).file? name = none := by
  have hrecord : ∀ id, (∅ : Contents).record? id = none := fun id =>
    Std.ExtTreeMap.getElem?_empty
  have hmark : (∅ : Contents).mark = none := rfl
  unfold file?
  split_ifs with hname
  · rw [hmark, Option.map_none]
  · cases idOfName? name with
    | none => rfl
    | some id => simp [hrecord]

theorem file?_eq_of_record? {c' : Contents} {name : String}
    (hrecord : ∀ id, name = recordName id → c'.record? id = c.record? id)
    (hmark : name = markName → c'.mark = c.mark) : c'.file? name = c.file? name := by
  unfold file?
  split_ifs with hname
  · rw [hmark hname]
  · cases idOfName? name with
    | none => rfl
    | some id =>
      simp only
      split_ifs with hid
      · exact hrecord id hid
      · rfl

theorem file?_serve_save (c : Contents) (id : AccountId) (record : Bytes) (name : String) :
    (c.serve (.save id record)).1.file? name =
      if name = recordName id then some record else c.file? name := by
  split_ifs with hname
  · rw [hname, file?_recordName, record?_serve_save, if_pos rfl]
  · refine file?_eq_of_record? (fun i hi => ?_) fun _ => rfl
    rw [record?_serve_save, if_neg]
    rintro rfl
    exact hname hi

theorem file?_serve_remove (c : Contents) (id : AccountId) (name : String) :
    (c.serve (.remove id)).1.file? name =
      if name = recordName id then none else c.file? name := by
  split_ifs with hname
  · rw [hname, file?_recordName, record?_serve_remove, if_pos rfl]
  · refine file?_eq_of_record? (fun i hi => ?_) fun _ => rfl
    rw [record?_serve_remove, if_neg]
    rintro rfl
    exact hname hi

theorem file?_serve_saveMark (c : Contents) (next : AccountId) (name : String) :
    (c.serve (.saveMark next)).1.file? name =
      if name = markName then some (markBytes next) else c.file? name := by
  split_ifs with hname
  · rw [hname, file?_markName]
    rfl
  · exact file?_eq_of_record? (fun i _ => record?_serve_saveMark c next i) fun h => absurd h hname

theorem isSome_file?_iff {id : AccountId} : (c.file? (recordName id)).isSome = true ↔ id ∈ c.ids := by
  rw [file?_recordName, mem_ids_iff]

theorem serve_load (c : Contents) (id : AccountId) :
    (c.serve (.load id)).2 = .record (c.record? id) := rfl

theorem pairwise_ids (c : Contents) : c.ids.Pairwise (· < ·) := by
  have hkeys : c.ids.Pairwise fun i j => compare i j = .lt := Std.ExtTreeMap.ordered_keys
  exact hkeys.imp fun hij => compareOfLessAndEq_eq_lt.1 hij

/-- What a storage answers to requests, one after the other. -/
def answers (c : Contents) : List Request → List Reply
  | [] => []
  | r :: rest => (c.serve r).2 :: (c.serve r).1.answers rest

end Contents

namespace Directory

variable {d : Directory} {t t' : FileTree} {c : Contents} {place : Place} {name : String}

/-! ### The order of a listing -/

theorem perm_idsOfNames (names : List String) :
    (idsOfNames names).Perm (names.filterMap idOfName?) :=
  List.mergeSort_perm _ _

theorem pairwise_idsOfNames (names : List String) : (idsOfNames names).Pairwise (· ≤ ·) :=
  AccountId.pairwise_mergeSort _

theorem idsOfNames_eq {names : List String} {ids : List AccountId}
    (hperm : (names.filterMap idOfName?).Perm ids) (hsorted : ids.Pairwise (· ≤ ·)) :
    idsOfNames names = ids :=
  ((perm_idsOfNames names).trans hperm).eq_of_pairwise
    (fun _ _ _ _ hij hji => UInt64.le_antisymm hij hji) (pairwise_idsOfNames names) hsorted

/-- Names that are all plain stand for different ids. -/
theorem nodup_filterMap_idOfName? {names : List String} (hnames : names.Nodup)
    (hrecord : ∀ name ∈ names, ∀ id, idOfName? name = some id → name = recordName id) :
    (names.filterMap idOfName?).Nodup := by
  rw [List.nodup_iff_pairwise_ne, List.pairwise_filterMap]
  refine hnames.imp_of_mem fun {m n} hm hn hne i hi j hj hij => hne ?_
  rw [hrecord m hm i hi, hrecord n hn j hj, hij]

/-- An order in which a file system can list the names of a directory. -/
structure Enumeration where
  order : List String → List String
  perm : ∀ names, (order names).Perm names

/-- Serves a request where the file system lists names in a given order. -/
def serveIn (d : Directory) (e : Enumeration) (t : FileTree) :
    Request → FileTree × Except FileFault Reply
  | .list =>
    match t.list d.path with
    | .ok names => (t, .ok (.ids (idsOfNames (e.order names))))
    | .error .missing => (t, .ok (.ids []))
    | .error _ => (t, .error (.list d.text))
  | r => d.serve t r

/-- The order of a listing never shows. -/
theorem serveIn_eq_serve (d : Directory) (e : Enumeration) (t : FileTree) (r : Request) :
    d.serveIn e t r = d.serve t r := by
  cases r with
  | list =>
    simp only [serveIn, serve, listIds]
    cases t.list d.path with
    | error f => cases f <;> rfl
    | ok names =>
      have hsame : idsOfNames (e.order names) = idsOfNames names :=
        idsOfNames_eq (((e.perm names).filterMap _).trans (perm_idsOfNames names).symm)
          (pairwise_idsOfNames names)
      simp only [hsame]
      rfl
  | _ => rfl

/-! ### Contents in a directory -/

/-- The directory is there, and the files that it keeps are those of some contents.  No directory is in
the way of a temporary file, and no other file has a name that stands for an id. -/
structure Holds (d : Directory) (t : FileTree) (c : Contents) (place : Place) : Prop where
  sits : d.Sits t place
  files : ∀ name, OwnName name → t.node? (place ++ [name]) = (c.file? name).map .file
  free : ∀ name, OwnName name → t.node? (place ++ [temporaryName name]) ≠ some .directory
  named : ∀ name id, (t.node? (place ++ [name])).isSome = true → idOfName? name = some id →
    OwnName name

namespace Holds

variable {c' : Contents} (h : d.Holds t c place)
include h

theorem ne_directory (hname : OwnName name) : t.node? (place ++ [name]) ≠ some .directory := by
  rw [h.files name hname]
  cases c.file? name <;> simp

/-- Where no directory is gone, the files that are kept are those of some contents, and whatever else is
there was there before or is a file that is no record. -/
theorem of_nodes
    (hdirs : ∀ q, t.node? q = some .directory → t'.node? q = some .directory)
    (hfiles : ∀ name, OwnName name → t'.node? (place ++ [name]) = (c'.file? name).map .file)
    (hrest : ∀ name n, ¬ OwnName name → t'.node? (place ++ [name]) = some n →
      t.node? (place ++ [name]) = some n ∨ idOfName? name = none ∧ n ≠ .directory) :
    d.Holds t' c' place := by
  refine ⟨h.sits.of_directories hdirs, hfiles, fun name hname hthere => ?_, fun name id hsome hid => ?_⟩
  · have hother : ¬ OwnName (temporaryName name) := fun hown => hown.ne_temporaryName name rfl
    rcases hrest _ _ hother hthere with hbefore | ⟨-, hne⟩
    · exact h.free name hname hbefore
    · exact hne rfl
  · by_contra hother
    obtain ⟨n, hn⟩ := Option.isSome_iff_exists.1 hsome
    rcases hrest name n hother hn with hbefore | ⟨hnone, -⟩
    · exact hother (h.named name id (by rw [hbefore]; rfl) hid)
    · exact absurd (hnone.symm.trans hid) (by simp)

/-- What a temporary file is set to does not show. -/
theorem of_staged (hname : OwnName name) {bytes : Bytes}
    (hnode : ∀ q, t'.node? q =
      if place ++ [temporaryName name] = q then some (.file bytes) else t.node? q) :
    d.Holds t' c place := by
  refine h.of_nodes (fun q hq => ?_) (fun n hn => ?_) fun n node hn hthere => ?_
  · rw [hnode, if_neg, hq]
    rintro rfl
    exact h.free name hname hq
  · rw [hnode, if_neg (by simpa using hn.ne_temporaryName name), h.files n hn]
  · rw [hnode] at hthere
    split_ifs at hthere with heq
    · refine .inr ⟨?_, ?_⟩
      · obtain rfl : temporaryName name = n := by simpa using heq
        exact idOfName?_temporaryName name
      · rw [← Option.some.inj hthere]
        simp
    · exact .inl hthere

/-- What one file is set to is all that changes, but for its temporary file that may be gone. -/
theorem of_set (bytes? : Option Bytes) (gone : Bool) (hname : OwnName name)
    (hnode : ∀ q, t'.node? q = if place ++ [name] = q then bytes?.map .file
      else if gone = true ∧ place ++ [temporaryName name] = q then none else t.node? q)
    (hfile : ∀ n, c'.file? n = if n = name then bytes? else c.file? n) : d.Holds t' c' place := by
  refine h.of_nodes (fun q hq => ?_) (fun n hn => ?_) fun n node hn hthere => ?_
  · rw [hnode, if_neg, if_neg, hq]
    · rintro ⟨-, rfl⟩
      exact h.free name hname hq
    · rintro rfl
      exact h.ne_directory hname hq
  · rw [hnode, hfile]
    by_cases heq : n = name
    · rw [if_pos (by rw [heq]), if_pos heq]
    · have hother : temporaryName name ≠ n := hn.ne_temporaryName name
      rw [if_neg (by simpa using Ne.symm heq), if_neg (by simp [hother]), if_neg heq, h.files n hn]
  · have hne : name ≠ n := by
      rintro rfl
      exact hn hname
    rw [hnode, if_neg (by simpa using hne)] at hthere
    split_ifs at hthere
    exact .inl hthere

theorem listIds_eq : d.listIds t = .ok c.ids := by
  have hlist := list_eq_ok_iff.2 ⟨place, h.sits, rfl⟩
  rw [listIds, hlist]
  refine congrArg Except.ok (idsOfNames_eq ?_ (c.pairwise_ids.imp UInt64.le_of_lt))
  -- a name that is there and stands for an id is the name of its record
  have hrecord : ∀ name ∈ t.namesAt place, ∀ id, idOfName? name = some id → name = recordName id :=
    fun name hname id hid => (h.named name id (FileTree.mem_namesAt.1 hname) hid).eq_recordName hid
  have hnodup := nodup_filterMap_idOfName? (FileTree.nodup_namesAt t place) hrecord
  refine (List.perm_ext_iff_of_nodup hnodup (c.pairwise_ids.imp UInt64.ne_of_lt)).2 fun id => ?_
  have hthere : recordName id ∈ t.namesAt place ↔ id ∈ c.ids := by
    rw [FileTree.mem_namesAt, h.files _ (.record id), Option.isSome_map, Contents.isSome_file?_iff]
  rw [List.mem_filterMap, ← hthere]
  constructor
  · rintro ⟨name, hname, hid⟩
    rwa [hrecord name hname id hid] at hname
  · exact fun hname => ⟨_, hname, idOfName?_recordName id⟩

theorem load?_eq (hroom : d.Roomy) (hname : OwnName name) : d.load? name t = .ok (c.file? name) :=
  h.sits.load?_eq hroom (hname.plain.mono (by decide)) (h.files name hname)

theorem loadMark_eq (hroom : d.Roomy) : d.loadMark t = .ok c.mark := by
  rw [loadMark, h.load?_eq hroom .mark, Contents.file?_markName]
  cases c.mark with
  | none => rfl
  | some next => simp [bind, Except.bind, readMark_digits, pure, Except.pure]

theorem replace_eq (hroom : d.Roomy) (hname : OwnName name) (bytes : Bytes)
    (hfile : ∀ n, c'.file? n = if n = name then some bytes else c.file? n) :
    ∃ t', d.replace name bytes t = (t', .ok .done) ∧ d.Holds t' c' place := by
  obtain ⟨t', hreplace, hnode⟩ := h.sits.replace_eq hroom hname.plain bytes (h.ne_directory hname)
    (h.free name hname)
  exact ⟨t', hreplace, h.of_set (some bytes) true hname (by simpa using hnode) hfile⟩

/-- A directory that holds some contents serves a request as they do, and then holds what they are. -/
theorem serve_eq (hroom : d.Roomy) (r : Request) :
    ∃ t', d.serve t r = (t', .ok (c.serve r).2) ∧ d.Holds t' (c.serve r).1 place := by
  cases r with
  | list => exact ⟨t, by rw [serve, h.listIds_eq]; rfl, h⟩
  | load id =>
    refine ⟨t, ?_, h⟩
    rw [serve, h.load?_eq hroom (.record id), Contents.file?_recordName]
    rfl
  | save id record => exact h.replace_eq hroom (.record id) record (c.file?_serve_save id record)
  | remove id =>
    obtain ⟨t', hremove, hnode⟩ := h.sits.remove_eq hroom ((OwnName.record id).plain.mono (by decide))
      (h.files _ (.record id))
    exact ⟨t', hremove, h.of_set none false (.record id) (by simpa using hnode)
      (c.file?_serve_remove id)⟩
  | loadMark => exact ⟨t, by rw [serve, h.loadMark_eq hroom]; rfl, h⟩
  | saveMark next =>
    exact h.replace_eq hroom .mark (markBytes next) (c.file?_serve_saveMark next)

end Holds

/-! ### Directories that are not there yet -/

/-- A directory that is empty, or missing and empty once it is made. -/
inductive Starts (d : Directory) (t : FileTree) : Prop
  | empty (listed : t.list d.path = .ok [])
  | missing (absent : t.list d.path = .error .missing) (made : (t.createAll d.path).2 = true)
      (listed : (t.createAll d.path).1.list d.path = .ok [])

theorem holds_of_listed (hlisted : t.list d.path = .ok []) : ∃ place, d.Holds t ∅ place := by
  obtain ⟨place, hsits, hnames⟩ := list_eq_ok_iff.1 hlisted
  have hnone : ∀ name, t.node? (place ++ [name]) = none := by
    intro name
    have hnot : name ∉ t.namesAt place := by
      rw [← hnames]
      exact List.not_mem_nil
    rw [FileTree.mem_namesAt] at hnot
    simpa using hnot
  refine ⟨place, hsits, fun name _ => ?_, fun name _ => ?_, fun name id hsome => ?_⟩
  · rw [hnone, Contents.file?_empty, Option.map_none]
  · rw [hnone]
    simp
  · rw [hnone] at hsome
    exact absurd hsome (by simp)

/-- A missing directory can be made where its path goes by names only, not back, and is of a size that
the file system takes. -/
theorem starts_of_absent (ht : t.Rooted) (hpath : FileTree.Makeable d.path)
    (hcheck : d.path.check = .ok ()) (hend : d.path.endsInDot = false)
    (habsent : t.list d.path = .error .missing) : d.Starts t := by
  obtain ⟨hmade, r, hwalk, hdirectory, hclear⟩ :=
    FileTree.createFrom_of_missing ht hpath rfl (walk_of_absent habsent hcheck)
  have hthere := isDirectory_of_absent habsent
  have hcreate : t.createAll d.path = t.createFrom [] d.path := by
    have hempty := (FilePath.check_eq_ok_iff.1 hcheck).2.1
    simp [FileTree.createAll, hempty, hthere, hcheck, hend]
  refine .missing habsent (by rw [hcreate, hmade]) ?_
  rw [hcreate]
  refine list_eq_ok_iff.2 ⟨r, ⟨FileTree.locate_eq_ok_iff.2 ⟨hcheck, hwalk⟩, hdirectory⟩, ?_⟩
  refine (List.eq_nil_iff_forall_not_mem.2 fun name hname => ?_).symm
  rw [FileTree.mem_namesAt, hclear] at hname
  simp at hname

/-- A request to a directory that is missing finds nothing and changes nothing, or makes it first. -/
theorem serve_of_missing (hroom : d.Roomy) (habsent : t.list d.path = .error .missing)
    (hmade : (t.createAll d.path).2 = true) (hsits : d.Sits (t.createAll d.path).1 place)
    (r : Request) :
    d.serve t r = d.serve (t.createAll d.path).1 r ∨
      d.serve t r = (t, .ok ((∅ : Contents).serve r).2) ∧ ((∅ : Contents).serve r).1 = ∅ := by
  have hcheck := (FileTree.locate_eq_ok_iff.1 hsits.located).1
  have hlocate : ∀ {name}, PlainName 25 name → t.locate (d.filePath name) = .error .missing :=
    fun hname => locate_filePath_of_absent habsent hcheck hroom (hname.mono (by decide))
  have hload : ∀ {name}, PlainName 25 name → d.load? name t = .ok none := by
    intro name hname
    simp [load?, FileTree.read, FileTree.find, hlocate hname, bind, Except.bind]
  cases r with
  | list =>
    refine Or.inr ⟨?_, rfl⟩
    rw [serve, listIds, habsent]
    rfl
  | load id =>
    refine Or.inr ⟨?_, rfl⟩
    rw [serve, hload (plainName_recordName id)]
    rfl
  | save id record => exact Or.inl (replace_of_made hmade hsits _ _)
  | remove id =>
    refine Or.inr ⟨?_, ?_⟩
    · simp only [serve, Directory.remove, FileTree.remove, hlocate (plainName_recordName id), bind,
        Except.bind]
      rfl
    · have herase : (∅ : Contents).records.erase id = ∅ := Std.ExtTreeMap.erase_empty
      exact congrArg (fun records => (⟨records, none⟩ : Contents)) herase
  | loadMark =>
    refine Or.inr ⟨?_, rfl⟩
    rw [serve, loadMark, hload plainName_markName]
    rfl
  | saveMark next => exact Or.inl (replace_of_made hmade hsits _ _)

/-! ### Runs -/

/-- What a directory answers to requests, one after the other, each with the order in which the file
system lists names then. -/
def answers (d : Directory) (t : FileTree) : List (Enumeration × Request) → List (Except FileFault Reply)
  | [] => []
  | (e, r) :: rest => (d.serveIn e t r).2 :: d.answers (d.serveIn e t r).1 rest

theorem Holds.answers_eq (h : d.Holds t c place) (hroom : d.Roomy)
    (calls : List (Enumeration × Request)) :
    d.answers t calls = (c.answers (calls.map Prod.snd)).map .ok := by
  induction calls generalizing t c with
  | nil => rfl
  | cons call calls ih =>
    obtain ⟨e, r⟩ := call
    obtain ⟨t', hserve, h'⟩ := h.serve_eq hroom r
    rw [answers, serveIn_eq_serve, hserve, ih h']
    rfl

/-- A directory that starts missing or empty and that nothing else touches answers any requests as a map
that starts empty, in whatever orders it lists its names. -/
theorem answers_eq_contents (hstart : d.Starts t) (hroom : d.Roomy)
    (calls : List (Enumeration × Request)) :
    d.answers t calls = ((∅ : Contents).answers (calls.map Prod.snd)).map .ok := by
  cases hstart with
  | empty hlisted =>
    obtain ⟨place, h⟩ := holds_of_listed hlisted
    exact h.answers_eq hroom calls
  | missing habsent hmade hlisted =>
    obtain ⟨place, h⟩ := holds_of_listed hlisted
    induction calls with
    | nil => rfl
    | cons call calls ih =>
      obtain ⟨e, r⟩ := call
      rcases serve_of_missing hroom habsent hmade h.sits r with hserve | ⟨hserve, hempty⟩
      · -- the directory has been made, and from here on it is one that holds something
        have hmore := h.answers_eq hroom ((e, r) :: calls)
        rw [answers, serveIn_eq_serve] at hmore
        rw [answers, serveIn_eq_serve, hserve, hmore]
      · rw [answers, serveIn_eq_serve, hserve, ih, List.map_cons, Contents.answers, hempty]
        rfl

theorem answers_eq_contents_of_missing :
    let d : Directory := ⟨"data/accounts"⟩
    let backwards : Enumeration := ⟨List.reverse, List.reverse_perm⟩
    let calls : List (Enumeration × Request) := [.list, .load 7, .save 10 [1], .save 9 [2],
      .save 10 [3], .saveMark 11, .list, .load 10, .remove 9, .list, .loadMark].map fun r =>
        (backwards, r)
    (∅ : FileTree).list d.path = .error .missing ∧ d.answers ∅ calls =
      [.ids [], .record none, .done, .done, .done, .done, .ids [9, 10], .record (some [3]), .done,
        .ids [10], .mark (some 11)].map .ok := by
  intro d backwards calls
  have habsent : (∅ : FileTree).list d.path = .error .missing := by decide +kernel
  have hstart : d.Starts ∅ := starts_of_absent FileTree.rooted_empty (by decide +kernel)
    (by decide +kernel) (by decide +kernel) habsent
  refine ⟨habsent, ?_⟩
  rw [answers_eq_contents hstart (by decide) calls]
  decide +kernel

end Directory

end AccountVault
