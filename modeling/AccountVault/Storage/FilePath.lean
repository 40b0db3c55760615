import AccountVault.Problem

/-!
# File paths

A path is a text cut at its slashes.  Parts that are empty or one dot stay where they are, two dots go
back, and any other part is a name.  `FilePath.check` tells what rules a path out wherever it leads.
-/

namespace AccountVault

/-- The parts of a path between its slashes. -/
abbrev FilePath := List String

namespace FilePath

/-- The parts of a text between the slashes. -/
def split : List Char → List (List Char)
  | [] => [[]]
  | c :: s =>
    if c = '/' then [] :: split s
    else match split s with
      | [] => [[c]]
      | t :: ts => (c :: t) :: ts

/-- The path that a text writes. -/
def ofText (s : String) : FilePath := (split s.toList).map String.ofList

/-- The text of a name below a directory. -/
def join (directory name : String) : String :=
  if name.toList.head? = some '/' then name
  else if directory = "" ∨ directory.toList.getLast? = some '/' then directory ++ name
  else directory ++ "/" ++ name

/-- The path of a name below a directory. -/
def below (p : FilePath) (name : String) : FilePath :=
  if p.getLast? = some "" then p.dropLast ++ [name] else p ++ [name]

/-- Whether a part leads nowhere else. -/
def stays (part : String) : Bool := part = "" || part = "."

/-! ### Limits -/

/-- The most bytes that a name can have. -/
def nameLimit : Nat := 255

/-- The most bytes that a path can have. -/
def sizeLimit : Nat := 4095

/-- The bytes of a path as it is written. -/
def size (p : FilePath) : Nat := p.foldl (fun n part => n + part.utf8ByteSize) (p.length - 1)

/-- A path holds no zero, is not empty, and is not too long. -/
def check (p : FilePath) : Except OpenFault Unit :=
  if p.any fun part => part.toList.contains '\x00' then .error .zeroByte
  else if p = [""] then .error .missing
  else if sizeLimit < p.size then .error .nameTooLong
  else .ok ()

/-! ### The end of a path -/

/-- Whether the last part, slashes at the end apart, is one dot. -/
def endsInDot (p : FilePath) : Bool := p.reverse.find? (· ≠ "") = some "."

/-- The path without the last part that leads elsewhere and what comes after it. -/
def wayTo (p : FilePath) : FilePath := (p.reverse.dropWhile stays).tail.reverse

end FilePath

end AccountVault
