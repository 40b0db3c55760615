import AccountVault.Storage.Directory
import AccountVault.Proofs.Json.Tokens
import Mathlib.Data.String.Basic

/-!
# Names of files

The names that a directory gives to its files: a record's from the digits of its id, the mark's, and a
temporary one for each.  All of them are plain and short, none is a name of another kind, and a record's
name gives its id back.  Main statements: `Directory.idOfName?_recordName`,
`Directory.idOfName?_temporaryName` and `Directory.readMark_digits`.
-/

namespace AccountVault

namespace Text

variable {c : Char} {s : List Char}

theorem isDigit_of_mem_toDigits {n : Nat} (hc : c ∈ Nat.toDigits 10 n) : c.isDigit = true :=
  Nat.isDigit_of_mem_toDigits (by decide) (by decide) hc

theorem toNat_of_isDigit (hc : c.isDigit = true) : 48 ≤ c.toNat ∧ c.toNat ≤ 57 := by
  rw [Char.isDigit, Bool.and_eq_true, decide_eq_true_eq, decide_eq_true_eq] at hc
  exact ⟨UInt32.le_iff_toNat_le.1 hc.1, UInt32.le_iff_toNat_le.1 hc.2⟩

theorem isBlank_digit : ∀ k : Fin 10, isBlank (Char.ofNat (48 + k)) = false := by
  decide

theorem isBlank_of_isDigit (hc : c.isDigit = true) : isBlank c = false := by
  have hrange := toNat_of_isDigit hc
  have hk := isBlank_digit ⟨c.toNat - 48, by omega⟩
  have hsum : 48 + (c.toNat - 48) = c.toNat := by omega
  simpa only [hsum, Char.ofNat_toNat] using hk

theorem trimLeft_eq_self (hs : ∀ c ∈ s, isBlank c = false) : trimLeft s = s := by
  cases s with
  | nil => rfl
  | cons c s => simp [trimLeft, hs c List.mem_cons_self]

theorem trim_eq_self (hs : ∀ c ∈ s, isBlank c = false) : trim s = s := by
  have hback : ∀ c ∈ s.reverse, isBlank c = false := fun c hc => hs c (List.mem_reverse.1 hc)
  rw [trim, trimLeft_eq_self hs, trimLeft_eq_self hback, List.reverse_reverse]

theorem utf8Len_of_isDigit (hs : ∀ c ∈ s, c.isDigit = true) : String.utf8Len s = s.length := by
  induction s with
  | nil => rfl
  | cons c s ih =>
    have hrange := toNat_of_isDigit (hs c List.mem_cons_self)
    have hone : c.utf8Size = 1 := by
      rw [Char.utf8Size_eq_one_iff, UInt32.le_iff_toNat_le]
      have hval : c.val.toNat = c.toNat := rfl
      have hlimit : (127 : UInt32).toNat = 127 := rfl
      omega
    rw [String.utf8Len_cons, ih fun d hd => hs d (List.mem_cons_of_mem _ hd), hone, List.length_cons]

end Text

namespace Directory

/-- A name that leads one place further and has no more than so many bytes. -/
structure PlainName (most : Nat) (name : String) : Prop where
  noZero : '\x00' ∉ name.toList
  notDots : ∃ c ∈ name.toList, c ≠ '.'
  short : name.utf8ByteSize ≤ most

variable {id : AccountId} {name : String}

theorem toList_recordName (id : AccountId) :
    (recordName id).toList = Nat.toDigits 10 id.toNat ++ recordEnd.toList := by
  simp [recordName]

theorem toList_temporaryName (name : String) :
    (temporaryName name).toList = name.toList ++ ".tmp".toList := by
  simp [temporaryName]

/-! ### Plain names -/

theorem plainName_recordName (id : AccountId) : PlainName 25 (recordName id) := by
  have hid : id.toNat < 10 ^ 20 := Nat.lt_trans id.toNat_lt (by decide)
  have hlength := (Nat.length_toDigits_le_iff (by decide) (by decide)).2 hid
  refine ⟨?_, ⟨'j', ?_, by decide⟩, ?_⟩
  · rw [toList_recordName, List.mem_append, not_or]
    exact ⟨fun h => absurd (Text.isDigit_of_mem_toDigits h) (by decide), by decide⟩
  · rw [toList_recordName, List.mem_append]
    exact Or.inr (by decide)
  · have hend : recordEnd.utf8ByteSize = 5 := by decide
    rw [recordName, String.utf8ByteSize_append, String.utf8ByteSize_ofList, hend,
      Text.utf8Len_of_isDigit fun c hc => Text.isDigit_of_mem_toDigits hc]
    omega

theorem plainName_markName : PlainName 25 markName :=
  ⟨by decide, ⟨'n', by decide, by decide⟩, by decide⟩

theorem PlainName.temporary (h : PlainName 25 name) : PlainName 29 (temporaryName name) := by
  refine ⟨?_, ⟨'t', ?_, by decide⟩, ?_⟩
  · rw [toList_temporaryName, List.mem_append, not_or]
    exact ⟨h.noZero, by decide⟩
  · rw [toList_temporaryName, List.mem_append]
    exact Or.inr (by decide)
  · have hend : ".tmp".utf8ByteSize = 4 := by decide
    have hshort := h.short
    rw [temporaryName, String.utf8ByteSize_append, hend]
    omega

theorem PlainName.mono {k m : Nat} (h : PlainName k name) (hkm : k ≤ m) : PlainName m name :=
  ⟨h.noZero, h.notDots, Nat.le_trans h.short hkm⟩

/-! ### Which name stands for which id -/

theorem idOfName?_eq_some_iff :
    idOfName? name = some id ↔
      ∃ stem, name.toList = stem ++ recordEnd.toList ∧ Text.readId? stem = some id := by
  simp only [idOfName?]
  constructor
  · intro h
    split_ifs at h with hstem
    exact ⟨_, hstem.symm, h⟩
  · rintro ⟨stem, hname, hread⟩
    have hlength : (stem ++ recordEnd.toList).length - recordEnd.length = stem.length := by
      rw [List.length_append, String.length_toList, Nat.add_sub_cancel]
    rw [hname, hlength, List.take_left, if_pos rfl, hread]

/-- The name of a record gives its id back. -/
@[simp] theorem idOfName?_recordName (id : AccountId) : idOfName? (recordName id) = some id :=
  idOfName?_eq_some_iff.2 ⟨_, toList_recordName id, Text.readId?_toDigits id⟩

@[simp] theorem idOfName?_markName : idOfName? markName = none := by
  decide

/-- A temporary file is not a record, whatever it is to replace. -/
@[simp] theorem idOfName?_temporaryName (name : String) : idOfName? (temporaryName name) = none := by
  rw [Option.eq_none_iff_forall_ne_some]
  intro id h
  obtain ⟨stem, hname, -⟩ := idOfName?_eq_some_iff.1 h
  have hlast := congrArg List.getLast? hname
  rw [toList_temporaryName, List.getLast?_append, List.getLast?_append] at hlast
  have hends : some 'p' = some 'n' := hlast
  simp at hends

theorem recordName_ne_markName (id : AccountId) : recordName id ≠ markName := by
  intro h
  simpa using congrArg idOfName? h

theorem temporaryName_ne_recordName (name : String) (id : AccountId) :
    temporaryName name ≠ recordName id := by
  intro h
  simpa using congrArg idOfName? h

theorem temporaryName_ne_markName (name : String) : temporaryName name ≠ markName := by
  intro h
  have hlast := congrArg List.getLast? (congrArg String.toList h)
  rw [toList_temporaryName, List.getLast?_append] at hlast
  have hends : some 'p' = some 'd' := hlast
  simp at hends

/-- The names of the files that a directory keeps. -/
inductive OwnName : String → Prop
  | record (id : AccountId) : OwnName (recordName id)
  | mark : OwnName markName

theorem OwnName.plain (h : OwnName name) : PlainName 25 name := by
  cases h with
  | record id => exact plainName_recordName id
  | mark => exact plainName_markName

theorem OwnName.eq_recordName (h : OwnName name) (hid : idOfName? name = some id) :
    name = recordName id := by
  cases h with
  | record i =>
    rw [idOfName?_recordName, Option.some.injEq] at hid
    rw [hid]
  | mark => exact absurd hid (by simp)

/-- A temporary file is none of those that are kept. -/
theorem OwnName.ne_temporaryName (h : OwnName name) (other : String) : temporaryName other ≠ name := by
  cases h with
  | record id => exact temporaryName_ne_recordName other id
  | mark => exact temporaryName_ne_markName other

/-! ### The mark -/

/-- The bytes that a mark is written as. -/
def markBytes (next : AccountId) : Bytes :=
  Text.utf8 (String.ofList (Nat.toDigits 10 next.toNat))

theorem readMark_digits (d : Directory) (next : AccountId) :
    d.readMark (markBytes next) = .ok next := by
  have htrim : Text.trim (Nat.toDigits 10 next.toNat) = Nat.toDigits 10 next.toNat :=
    Text.trim_eq_self fun c hc => Text.isBlank_of_isDigit (Text.isDigit_of_mem_toDigits hc)
  simp [readMark, markBytes, htrim, Text.readId?_toDigits]

end Directory

end AccountVault
