import AccountVault.Proofs.Storage.Refinement

/-!
# Writes that are cut short

A write can end in any of its steps, because the step fails or because everything stops: on the way to
its directory, after any part of the temporary file, or once the file has been replaced
(`Directory.Stop`).  To stop at the end of a step is to have done the steps up to it and no more
(`Directory.haltReplace_eq_perform`).  Whatever was cut short before, a directory keeps some contents
(`Directory.Keeps`), and a write changes them if it got to its end and in no other way
(`Directory.Keeps.halt`).  Main statement: `Directory.halted_writes_tear_nothing`.
-/

namespace AccountVault

/-- The parts of a path that are made as directories. -/
def FilePath.way (p : FilePath) : FilePath := if p.endsInDot then p.wayTo else p

theorem FilePath.length_way_le (p : FilePath) : p.way.length ≤ p.length := by
  unfold way
  split
  · have hdrop := (List.dropWhile_sublist FilePath.stays (l := p.reverse)).length_le
    rw [List.length_reverse] at hdrop
    rw [wayTo, List.length_reverse, List.length_tail]
    omega
  · exact Nat.le_refl _

namespace FileTree

variable {t : FileTree} {p : FilePath} {parts : Nat}

/-- Makes a directory and those on the way to it, but stops after so many parts of the way. -/
def createAllUpTo (t : FileTree) (p : FilePath) (parts : Nat) : FileTree :=
  if p = [""] ∨ t.isDirectory p then t
  else
    match p.check with
    | .error _ => t
    | .ok () => (t.createFrom [] (p.way.take parts)).1

theorem createAll_eq (hmissing : ¬ (p = [""] ∨ t.isDirectory p = true)) (hcheck : p.check = .ok ()) :
    t.createAll p = ((t.createFrom [] p.way).1,
      if p.endsInDot then (t.createFrom [] p.way).1.isDirectory p else (t.createFrom [] p.way).2) := by
  unfold createAll FilePath.way
  rw [if_neg hmissing, hcheck]
  cases p.endsInDot <;> rfl

theorem createAllUpTo_eq (hmissing : ¬ (p = [""] ∨ t.isDirectory p = true))
    (hcheck : p.check = .ok ()) : t.createAllUpTo p parts = (t.createFrom [] (p.way.take parts)).1 := by
  unfold createAllUpTo
  rw [if_neg hmissing, hcheck]

/-- Stopping after the last part is stopping once all is made. -/
theorem createAllUpTo_of_length_le (hparts : p.length ≤ parts) :
    t.createAllUpTo p parts = (t.createAll p).1 := by
  by_cases hthere : p = [""] ∨ t.isDirectory p = true
  · unfold createAllUpTo createAll
    rw [if_pos hthere, if_pos hthere]
  · cases hcheck : p.check with
    | error e =>
      unfold createAllUpTo createAll
      rw [if_neg hthere, if_neg hthere, hcheck]
    | ok u =>
      have hway := p.length_way_le
      rw [createAllUpTo_eq hthere hcheck, createAll_eq hthere hcheck,
        List.take_of_length_le (by omega)]

/-- Nothing is made on the way that is not there in the end. -/
theorem createAllUpTo_fewer (hmissing : ¬ (p = [""] ∨ t.isDirectory p = true))
    (hcheck : p.check = .ok ()) {q : Place} {n : FileNode}
    (hq : (t.createAllUpTo p parts).node? q = some n) : (t.createAll p).1.node? q = some n := by
  rw [createAllUpTo_eq hmissing hcheck] at hq
  rw [createAll_eq hmissing hcheck, ← createFrom_resume t [] p.way parts]
  exact createFrom_keeps hq

/-- What was made before making was cut short is gone on from. -/
theorem createAll_createAllUpTo (hmissing : ¬ (p = [""] ∨ t.isDirectory p = true))
    (hcheck : p.check = .ok ()) (hstill : (t.createAllUpTo p parts).isDirectory p = false) :
    (t.createAllUpTo p parts).createAll p = t.createAll p := by
  have hmissing' : ¬ (p = [""] ∨ (t.createAllUpTo p parts).isDirectory p = true) := by
    rintro (hempty | hthere)
    · exact hmissing (.inl hempty)
    · rw [hstill] at hthere
      exact absurd hthere (by simp)
  rw [createAll_eq hmissing' hcheck, createAllUpTo_eq hmissing hcheck, createFrom_resume,
    createAll_eq hmissing hcheck]

end FileTree

namespace Directory

variable {d : Directory} {t : FileTree} {c : Contents} {place : Place} {name : String} {r : Request}

/-! ### Where a write can stop -/

/-- How far a request got before it was cut short. -/
inductive Stop
  /-- So many parts of the way to the directory had been seen to. -/
  | preparing (parts : Nat)
  /-- So many bytes had been written beside the file. -/
  | staging (written : Nat)
  /-- Everything had been done. -/
  | done
  deriving DecidableEq, Repr

/-- The file that a request replaces, and the new bytes. -/
def replacement? : Request → Option (String × Bytes)
  | .save id record => some (recordName id, record)
  | .saveMark next => some (markName, markBytes next)
  | _ => none

/-- The files after replacing one got so far. -/
def haltReplace (d : Directory) (t : FileTree) (name : String) (bytes : Bytes) : Stop → FileTree
  | .preparing parts => t.createAllUpTo d.path parts
  | .staging written => (perform [d.prepare, d.stage name (bytes.take written)] t).1
  | .done => (d.replace name bytes t).1

/-- The files after a request that got so far.  One that replaces no file does nothing or all. -/
def halt (d : Directory) (t : FileTree) (r : Request) (stop : Stop) : FileTree :=
  match replacement? r with
  | some (name, bytes) => d.haltReplace t name bytes stop
  | none => if stop = .done then (d.serve t r).1 else t

/-- The files after some requests, each of which got so far. -/
def after (d : Directory) (t : FileTree) (history : List (Request × Stop)) : FileTree :=
  history.foldl (fun t call => d.halt t call.1 call.2) t

/-- What a request is answered. -/
def answer (d : Directory) (t : FileTree) (r : Request) : Except FileFault Reply := (d.serve t r).2

theorem fst_replace (d : Directory) (name : String) (bytes : Bytes) (t : FileTree) :
    (d.replace name bytes t).1 = (perform (d.steps name bytes) t).1 := by
  unfold replace
  cases perform (d.steps name bytes) t with
  | mk t' fault => cases fault <;> rfl

/-- Stopping at the end of a step is having done the steps up to that one. -/
theorem haltReplace_eq_perform (d : Directory) (t : FileTree) (name : String) (bytes : Bytes) :
    d.haltReplace t name bytes (.preparing d.path.length) =
        (perform ((d.steps name bytes).take 1) t).1 ∧
      d.haltReplace t name bytes (.staging bytes.length) =
        (perform ((d.steps name bytes).take 2) t).1 ∧
      d.haltReplace t name bytes .done = (perform ((d.steps name bytes).take 3) t).1 := by
  refine ⟨?_, ?_, fst_replace ..⟩
  · show t.createAllUpTo d.path d.path.length = (perform [d.prepare] t).1
    rw [FileTree.createAllUpTo_of_length_le (Nat.le_refl _)]
    unfold perform prepare
    cases t.createAll d.path with
    | mk t' made => cases made <;> rfl
  · show (perform [d.prepare, d.stage name (bytes.take bytes.length)] t).1 = _
    rw [List.take_length]
    rfl

theorem halt_done (d : Directory) (t : FileTree) (r : Request) :
    d.halt t r .done = (d.serve t r).1 := by
  cases r <;> rfl

theorem ownName_of_replacement? {bytes : Bytes} (hr : replacement? r = some (name, bytes)) :
    OwnName name := by
  cases r with
  | save id =>
    cases hr
    exact .record id
  | saveMark =>
    cases hr
    exact .mark
  | _ => exact absurd hr (by simp [replacement?])

/-! ### What a directory keeps -/

/-- A directory holds some contents, or it is missing, and then there are none and it is empty once it is
made. -/
inductive Keeps (d : Directory) (t : FileTree) : Contents → Prop
  | there {c : Contents} {place : Place} (h : d.Holds t c place) : Keeps d t c
  | missing (absent : t.list d.path = .error .missing) (made : (t.createAll d.path).2 = true)
      (listed : (t.createAll d.path).1.list d.path = .ok []) : Keeps d t ∅

theorem Starts.keeps (h : d.Starts t) : d.Keeps t ∅ := by
  cases h with
  | empty hlisted =>
    obtain ⟨place, h⟩ := holds_of_listed hlisted
    exact .there h
  | missing habsent hmade hlisted => exact .missing habsent hmade hlisted

/-- Writing beside a file that is kept does not show, however much is written. -/
theorem Holds.stage (h : d.Holds t c place) (hroom : d.Roomy) (hname : OwnName name) (bytes : Bytes) :
    d.Holds (perform [d.prepare, d.stage name bytes] t).1 c place := by
  obtain ⟨t', hstage, hnode⟩ := h.sits.stage_eq hroom hname.plain.temporary bytes (h.free name hname)
  have hperform : perform [d.prepare, d.stage name bytes] t = (t', none) := by
    simp [perform, h.sits.prepare_eq, hstage]
  rw [hperform]
  exact h.of_staged hname hnode

namespace Keeps

variable (h : d.Keeps t c)
include h

theorem serve_eq (hroom : d.Roomy) (r : Request) :
    ∃ t', d.serve t r = (t', .ok (c.serve r).2) ∧ d.Keeps t' (c.serve r).1 := by
  cases h with
  | there h =>
    obtain ⟨t', hserve, h'⟩ := h.serve_eq hroom r
    exact ⟨t', hserve, .there h'⟩
  | missing habsent hmade hlisted =>
    obtain ⟨place, h⟩ := holds_of_listed hlisted
    rcases serve_of_missing hroom habsent hmade h.sits r with hserve | ⟨hserve, hempty⟩
    · obtain ⟨t', hserve', h'⟩ := h.serve_eq hroom r
      exact ⟨t', hserve.trans hserve', .there h'⟩
    · refine ⟨t, hserve, ?_⟩
      rw [hempty]
      exact .missing habsent hmade hlisted

theorem answer_eq (hroom : d.Roomy) (r : Request) : d.answer t r = .ok (c.serve r).2 := by
  obtain ⟨t', hserve, -⟩ := h.serve_eq hroom r
  rw [answer, hserve]

/-- Some part of the way to a directory is made, which is empty if it is there then, and can be made from
there if it is not. -/
theorem prepare (parts : Nat) : d.Keeps (t.createAllUpTo d.path parts) c := by
  cases h with
  | there h =>
    have hsame : t.createAllUpTo d.path parts = t := by
      rw [FileTree.createAllUpTo, if_pos (.inr h.sits.isDirectory)]
    rw [hsame]
    exact .there h
  | missing habsent hmade hlisted =>
    obtain ⟨place, hsits, -⟩ := list_eq_ok_iff.1 hlisted
    have hcheck := (FileTree.locate_eq_ok_iff.1 hsits.located).1
    have hmissing : ¬ (d.path = [""] ∨ t.isDirectory d.path = true) := by
      rintro (hempty | hthere)
      · exact (FilePath.check_eq_ok_iff.1 hcheck).2.1 hempty
      · rw [isDirectory_of_absent habsent] at hthere
        exact absurd hthere (by simp)
    have hfewer : ∀ q n, (t.createAllUpTo d.path parts).node? q = some n →
        (t.createAll d.path).1.node? q = some n :=
      fun q n => FileTree.createAllUpTo_fewer hmissing hcheck
    rcases list_of_fewer hfewer hlisted with hlisted' | habsent'
    · obtain ⟨place', h⟩ := holds_of_listed hlisted'
      exact .there h
    · have hresumed :=
        FileTree.createAll_createAllUpTo hmissing hcheck (isDirectory_of_absent habsent')
      exact .missing habsent' (by rw [hresumed, hmade]) (by rw [hresumed, hlisted])

theorem stage (hroom : d.Roomy) (hname : OwnName name) (bytes : Bytes) :
    d.Keeps (perform [d.prepare, d.stage name bytes] t).1 c := by
  cases h with
  | there h => exact .there (h.stage hroom hname bytes)
  | missing habsent hmade hlisted =>
    obtain ⟨place, h⟩ := holds_of_listed hlisted
    rw [perform_of_made hmade h.sits]
    exact .there (h.stage hroom hname bytes)

/-- A request that got to its end changes what is kept as it should, and one that did not changes
nothing. -/
theorem halt (hroom : d.Roomy) (r : Request) (stop : Stop) :
    d.Keeps (d.halt t r stop) (if stop = .done then (c.serve r).1 else c) := by
  by_cases hdone : stop = .done
  · subst hdone
    obtain ⟨t', hserve, h'⟩ := h.serve_eq hroom r
    rw [if_pos rfl, halt_done, hserve]
    exact h'
  · rw [if_neg hdone, Directory.halt]
    cases hr : replacement? r with
    | none => rwa [if_neg hdone]
    | some file =>
      obtain ⟨name, bytes⟩ := file
      cases stop with
      | preparing parts => exact h.prepare parts
      | staging written => exact h.stage hroom (ownName_of_replacement? hr) _
      | done => exact absurd rfl hdone

theorem after (hroom : d.Roomy) (history : List (Request × Stop)) :
    ∃ c', d.Keeps (d.after t history) c' := by
  induction history generalizing t c with
  | nil => exact ⟨c, h⟩
  | cons call history ih => exact ih (h.halt hroom call.1 call.2)

end Keeps

/-- A directory keeps some contents, and any requests are made to it, each of which may be cut short.
Then every record and the mark can be read, and the records that can be read are those that are listed.
A write that is cut short leaves what is read as it was, but for its own record or mark if the file had
been replaced, which is then read as it was written.  And whatever was left behind, a write that is not
cut short goes well and is read back in full. -/
theorem halted_writes_tear_nothing (h : d.Keeps t c) (hroom : d.Roomy)
    (history : List (Request × Stop)) :
    let before := d.after t history
    ((∀ id, ∃ record, d.answer before (.load id) = .ok (.record record)) ∧
      (∃ mark, d.answer before .loadMark = .ok (.mark mark)) ∧
      ∃ ids, d.answer before .list = .ok (.ids ids) ∧ ids.Pairwise (· < ·) ∧
        ∀ id, id ∈ ids ↔ ∃ record, d.answer before (.load id) = .ok (.record (some record))) ∧
    (∀ id record stop,
      let after := d.halt before (.save id record) stop
      (∀ i, d.answer after (.load i) =
        if stop = .done ∧ i = id then .ok (.record (some record)) else d.answer before (.load i)) ∧
      d.answer after .loadMark = d.answer before .loadMark) ∧
    (∀ next stop,
      let after := d.halt before (.saveMark next) stop
      (∀ i, d.answer after (.load i) = d.answer before (.load i)) ∧
      d.answer after .loadMark =
        if stop = .done then .ok (.mark (some next)) else d.answer before .loadMark) ∧
    (∀ id record, ∃ after, d.serve before (.save id record) = (after, .ok .done) ∧
      d.answer after (.load id) = .ok (.record (some record))) ∧
    ∀ next, ∃ after, d.serve before (.saveMark next) = (after, .ok .done) ∧
      d.answer after .loadMark = .ok (.mark (some next)) := by
  intro before
  obtain ⟨c, h⟩ := h.after hroom history
  have hbefore := h.answer_eq hroom
  have hhalted := fun r stop => (h.halt hroom r stop).answer_eq hroom
  refine ⟨⟨fun id => ⟨_, hbefore _⟩, ⟨_, hbefore _⟩, c.ids, hbefore _, c.pairwise_ids, fun id => ?_⟩,
    fun id record stop => ⟨fun i => ?_, ?_⟩, fun next stop => ⟨fun i => ?_, ?_⟩, fun id record => ?_,
    fun next => ?_⟩
  · rw [hbefore, ← Contents.isSome_file?_iff, Contents.file?_recordName, Option.isSome_iff_exists]
    exact exists_congr fun record => by simp [Contents.serve]
  · rw [hhalted, hbefore]
    by_cases hdone : stop = .done
    · simp only [if_pos hdone, Contents.serve_load, Contents.record?_serve_save]
      by_cases hi : i = id
      · rw [if_pos hi.symm, if_pos ⟨hdone, hi⟩]
      · rw [if_neg (Ne.symm hi), if_neg fun hboth => hi hboth.2]
    · rw [if_neg hdone, if_neg fun hboth => hdone hboth.1]
  · rw [hhalted, hbefore]
    split <;> rfl
  · rw [hhalted, hbefore]
    split <;> rfl
  · rw [hhalted, hbefore]
    split <;> rfl
  · obtain ⟨after, hserve, h'⟩ := h.serve_eq hroom (.save id record)
    refine ⟨after, hserve, ?_⟩
    rw [h'.answer_eq hroom, Contents.serve_load, Contents.record?_serve_save, if_pos rfl]
  · obtain ⟨after, hserve, h'⟩ := h.serve_eq hroom (.saveMark next)
    exact ⟨after, hserve, h'.answer_eq hroom .loadMark⟩

/-- A record is written, and the next write of it stops after one byte beside it; a write of the mark had
stopped on the way to the directory, and one of another record before its first byte.  The first record
is still read and is all that is listed, though there is a temporary file, and it can be written anew. -/
theorem halted_writes_tear_nothing_of_leftover :
    let d : Directory := ⟨"data/accounts"⟩
    let history : List (Request × Stop) := [(.saveMark 6, .preparing 1), (.save 7 [9], .staging 0),
      (.save 5 [1, 2, 3], .done)]
    let before := d.after ∅ history
    let after := d.halt before (.save 5 [4, 5]) (.staging 1)
    after.node? ["data", "accounts", "5.json.tmp"] = some (.file [4]) ∧
      d.answer after (.load 5) = .ok (.record (some [1, 2, 3])) ∧
      d.answer after .list = .ok (.ids [5]) ∧ d.answer after .loadMark = .ok (.mark none) ∧
      ∃ later, d.serve after (.save 5 [4, 5]) = (later, .ok .done) ∧
        d.answer later (.load 5) = .ok (.record (some [4, 5])) := by
  intro d history before after
  have habsent : (∅ : FileTree).list d.path = .error .missing := by decide +kernel
  have hstart : d.Starts ∅ := starts_of_absent FileTree.rooted_empty (by decide +kernel)
    (by decide +kernel) (by decide +kernel) habsent
  have hkeeps : d.Keeps ∅ ∅ := hstart.keeps
  have hroom : d.Roomy := by decide
  obtain ⟨-, hsave, -, -, -⟩ := halted_writes_tear_nothing hkeeps hroom history
  obtain ⟨hload, hmark⟩ := hsave 5 [4, 5] (.staging 1)
  have hload5 : d.answer before (.load 5) = .ok (.record (some [1, 2, 3])) := by decide +kernel
  have hmark' : d.answer before .loadMark = .ok (.mark none) := by decide +kernel
  -- the write that was cut short is one more in the history
  obtain ⟨-, -, -, hagain, -⟩ :=
    halted_writes_tear_nothing hkeeps hroom (history ++ [(.save 5 [4, 5], .staging 1)])
  exact ⟨by decide +kernel, (hload 5).trans hload5, by decide +kernel, hmark.trans hmark',
    hagain 5 [4, 5]⟩

end Directory

end AccountVault
