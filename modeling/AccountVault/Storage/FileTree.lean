import AccountVault.Storage.FilePath
import Std.Data.ExtTreeMap

/-!
# File trees

Files and directories by place.  A place is the list of names on the way from the root, which is always
a directory.  Operations go by paths, as they are written, and a path leads to a place: whatever one of
its parts is looked up in has to be a directory that is there.  A directory cannot be read or written as
a file, and a file is never replaced by a directory or the other way round.
-/

namespace AccountVault

/-- The names on the way from the root. -/
abbrev Place := List String

inductive FileNode
  | file (bytes : Bytes)
  | directory
  deriving DecidableEq

/-- Everything but the root, by place. -/
structure FileTree where
  nodes : Std.ExtTreeMap Place FileNode := ∅
  deriving DecidableEq

namespace FileTree

instance : EmptyCollection FileTree := ⟨⟨∅⟩⟩

instance : Inhabited FileTree := ⟨∅⟩

def node? (t : FileTree) : Place → Option FileNode
  | [] => some .directory
  | p => t.nodes[p]?

/-! ### Following paths -/

/-- Follows the parts of a path from a place.  There need not be anything at the place that it leads
to. -/
def walk (t : FileTree) (place : Place) : FilePath → Except OpenFault Place
  | [] => .ok place
  | part :: rest =>
    match t.node? place with
    | some .directory =>
      if FilePath.stays part then walk t place rest
      else if part = ".." then walk t place.dropLast rest
      else if FilePath.nameLimit < part.utf8ByteSize then .error .nameTooLong
      else walk t (place ++ [part]) rest
    | some (.file _) => .error .notDirectory
    | none => .error .missing

/-- The place that a path leads to. -/
def locate (t : FileTree) (p : FilePath) : Except OpenFault Place := do
  p.check
  t.walk [] p

/-- What is at the end of a path. -/
def find (t : FileTree) (p : FilePath) : Except OpenFault FileNode := do
  match t.node? (← t.locate p) with
  | some n => .ok n
  | none => .error .missing

/-- The bytes of a file. -/
def read (t : FileTree) (p : FilePath) : Except OpenFault Bytes :=
  match t.find p with
  | .ok (.file bytes) => .ok bytes
  | .ok .directory => .error .isDirectory
  | .error e => .error e

/-- Whether something is there and is a directory. -/
def isDirectory (t : FileTree) (p : FilePath) : Bool :=
  match t.find p with
  | .ok .directory => true
  | _ => false

/-- The names at a place. -/
def namesAt (t : FileTree) (place : Place) : List String :=
  t.nodes.keys.filterMap fun q => if q.dropLast = place then q.getLast? else none

/-- The names in a directory. -/
def list (t : FileTree) (p : FilePath) : Except OpenFault (List String) := do
  let place ← t.locate p
  match t.node? place with
  | some .directory => .ok (t.namesAt place)
  | some (.file _) => .error .notDirectory
  | none => .error .missing

/-! ### Directories -/

/-- Makes the directories that the parts of a path name, from a place in the tree and as far as they are
missing.  The flag says whether all are there then. -/
def createFrom (t : FileTree) (place : Place) : FilePath → FileTree × Bool
  | [] => (t, true)
  | part :: rest =>
    if FilePath.stays part then createFrom t place rest
    else if part = ".." then createFrom t place.dropLast rest
    else if FilePath.nameLimit < part.utf8ByteSize then (t, false)
    else
      match t.node? (place ++ [part]) with
      | some .directory => createFrom t (place ++ [part]) rest
      | some (.file _) => (t, false)
      | none => createFrom ⟨t.nodes.insert (place ++ [part]) .directory⟩ (place ++ [part]) rest

/-- Makes a directory and those on the way to it, as far as they are missing.  An empty path asks for
none, and a path that ends in a dot only for those on the way. -/
def createAll (t : FileTree) (p : FilePath) : FileTree × Bool :=
  if p = [""] ∨ t.isDirectory p then (t, true)
  else
    match p.check with
    | .error _ => (t, false)
    | .ok () =>
      if p.endsInDot then
        let (t, _) := t.createFrom [] p.wayTo
        (t, t.isDirectory p)
      else t.createFrom [] p

theorem isDirectory_iff {t : FileTree} {p : FilePath} :
    t.isDirectory p = true ↔
      ∃ place, t.locate p = .ok place ∧ t.node? place = some .directory := by
  unfold isDirectory find
  cases h : t.locate p with
  | error e => simp [bind, Except.bind]
  | ok place =>
    cases hn : t.node? place with
    | none => simp [bind, Except.bind, hn]
    | some n => cases n <;> simp [bind, Except.bind, hn]

/-- A directory that is there is left as it is. -/
theorem createAll_of_isDirectory {t : FileTree} {p : FilePath} (h : t.isDirectory p = true) :
    t.createAll p = (t, true) := by
  simp [createAll, h]

/-! ### Files -/

/-- Whether a file can be put at a place. -/
def holdsFile (t : FileTree) (place : Place) : Bool :=
  place ≠ [] && t.node? place.dropLast = some .directory && t.node? place ≠ some .directory

/-- Puts a file at a place, if it can be there. -/
def putFile (t : FileTree) (place : Place) (bytes : Bytes) : Option FileTree :=
  if t.holdsFile place then some ⟨t.nodes.insert place (.file bytes)⟩ else none

/-- Makes a file or replaces what one holds. -/
def write (t : FileTree) (p : FilePath) (bytes : Bytes) : Option FileTree :=
  match t.locate p with
  | .ok place => t.putFile place bytes
  | .error _ => none

/-- Moves a file to another path, where it takes the place of the file that is there. -/
def rename (t : FileTree) (old new : FilePath) : Option FileTree :=
  match t.read old, t.locate old, t.locate new with
  | .ok bytes, .ok source, .ok target =>
    if t.holdsFile target then some ⟨(t.nodes.erase source).insert target (.file bytes)⟩ else none
  | _, _, _ => none

/-- Removes a file. -/
def remove (t : FileTree) (p : FilePath) : Except OpenFault FileTree := do
  let place ← t.locate p
  match t.node? place with
  | some (.file _) => .ok ⟨t.nodes.erase place⟩
  | some .directory => .error .isDirectory
  | none => .error .missing

end FileTree

end AccountVault
