import AccountVault.Storage.FileTree
import AccountVault.Text.Blank
import AccountVault.Text.Decimal

/-!
# Records in a directory

A directory keeps the record of an account in a file named for its id, and the mark in a file of its
own.  A file is replaced in three steps: the directory is made, the new contents go to a temporary file
beside it, and the temporary file takes its place.  A reader sees the old contents or the new ones.
-/

namespace AccountVault

/-- The directory of a storage, as its path is written. -/
structure Directory where
  text : String
  deriving DecidableEq, Repr

namespace Directory

def path (d : Directory) : FilePath := FilePath.ofText d.text

/-- The path of a file in the directory. -/
def filePath (d : Directory) (name : String) : FilePath := d.path.below name

/-- How the path of a file in the directory is written. -/
def fileText (d : Directory) (name : String) : String := FilePath.join d.text name

/-- The end of a record's name. -/
def recordEnd : String := ".json"

def recordName (id : AccountId) : String := String.ofList (Nat.toDigits 10 id.toNat) ++ recordEnd

def markName : String := "next_id"

def temporaryName (name : String) : String := name ++ ".tmp"

/-- The id that a file name stands for, if it is the name of a record. -/
def idOfName? (name : String) : Option AccountId :=
  let cs := name.toList
  let stem := cs.take (cs.length - recordEnd.length)
  if stem ++ recordEnd.toList = cs then Text.readId? stem else none

/-- The ids of the records among some names, in order. -/
def idsOfNames (names : List String) : List AccountId :=
  (names.filterMap idOfName?).mergeSort (· ≤ ·)

/-! ### Replacing a file -/

/-- One step of replacing a file: the files after it, and what it could not do. -/
abbrev Step := FileTree → FileTree × Option FileFault

/-- Makes the directory.  Where that fails, the directories on the way to it can have been made. -/
def prepare (d : Directory) : Step := fun t =>
  match t.createAll d.path with
  | (t, true) => (t, none)
  | (t, false) => (t, some (.createDirectory d.text))

/-- Writes new contents beside a file. -/
def stage (d : Directory) (name : String) (bytes : Bytes) : Step := fun t =>
  match t.write (d.filePath (temporaryName name)) bytes with
  | some t => (t, none)
  | none => (t, some (.write (d.fileText (temporaryName name))))

/-- Puts the new contents in the place of a file. -/
def install (d : Directory) (name : String) : Step := fun t =>
  match t.rename (d.filePath (temporaryName name)) (d.filePath name) with
  | some t => (t, none)
  | none => (t, some (.replace (d.fileText name)))

/-- The steps that replace a file, in order. -/
def steps (d : Directory) (name : String) (bytes : Bytes) : List Step :=
  [d.prepare, d.stage name bytes, d.install name]

/-- Does steps one after the other.  Where one fails, what was done before stays. -/
def perform : List Step → Step
  | [], t => (t, none)
  | f :: fs, t =>
    match f t with
    | (t, none) => perform fs t
    | (t, some e) => (t, some e)

def replace (d : Directory) (name : String) (bytes : Bytes) (t : FileTree) :
    FileTree × Except FileFault Reply :=
  match perform (d.steps name bytes) t with
  | (t, none) => (t, .ok .done)
  | (t, some e) => (t, .error e)

/-! ### Requests -/

/-- The bytes of a file, none where it does not exist. -/
def load? (d : Directory) (name : String) (t : FileTree) : Except FileFault (Option Bytes) :=
  match t.read (d.filePath name) with
  | .ok bytes => .ok (some bytes)
  | .error .missing => .ok none
  | .error _ => .error (.read (d.fileText name))

def listIds (d : Directory) (t : FileTree) : Except FileFault (List AccountId) :=
  match t.list d.path with
  | .ok names => .ok (idsOfNames names)
  | .error .missing => .ok []
  | .error _ => .error (.list d.text)

/-- The mark that some bytes write; blanks around it do not count. -/
def readMark (d : Directory) (bytes : Bytes) : Except FileFault AccountId :=
  match Text.decodeUtf8? bytes with
  | none => .error (.read (d.fileText markName))
  | some s =>
    match Text.readId? (Text.trim s.toList) with
    | some n => .ok n
    | none => .error (.mark (d.fileText markName))

def loadMark (d : Directory) (t : FileTree) : Except FileFault (Option AccountId) := do
  match ← d.load? markName t with
  | none => return none
  | some bytes => return some (← d.readMark bytes)

def remove (d : Directory) (name : String) (t : FileTree) : FileTree × Except FileFault Reply :=
  match t.remove (d.filePath name) with
  | .ok t => (t, .ok .done)
  | .error .missing => (t, .ok .done)
  | .error _ => (t, .error (.remove (d.fileText name)))

def serve (d : Directory) (t : FileTree) : Request → FileTree × Except FileFault Reply
  | .list => (t, (d.listIds t).map .ids)
  | .load id => (t, (d.load? (recordName id) t).map .record)
  | .save id record => d.replace (recordName id) record t
  | .remove id => d.remove (recordName id) t
  | .loadMark => (t, (d.loadMark t).map .mark)
  | .saveMark next =>
    d.replace markName (Text.utf8 (String.ofList (Nat.toDigits 10 next.toNat))) t

end Directory

end AccountVault
