import Verbatim.Files.Basic

/-!
# Directory trees

A directory is a list of named files and directories, in no special order. Names are texts, so a name
whose bytes are not UTF-8 has no place here. A path is followed one component at a time. A walk
visits a directory before what is in it, and the entries of one directory in the order of their
names as bytes.
-/

namespace Verbatim

/-- The entries of a directory. -/
inductive Directory where
  | empty
  | file (name : String) (contents : StoredFile) (rest : Directory)
  | directory (name : String) (inner rest : Directory)
  deriving DecidableEq, Repr

/-- What a path leads to. -/
inductive Found where
  | file (contents : StoredFile)
  | directory (entries : Directory)
  deriving DecidableEq, Repr

namespace Directory

/-- The entry of a name. -/
def lookup (name : String) : Directory → Option Found
  | empty => none
  | file n contents rest => if n = name then some (.file contents) else rest.lookup name
  | directory n inner rest => if n = name then some (.directory inner) else rest.lookup name

/-- The directory with the directory of a name changed. One that is not there yet is made. -/
def enter (name : String) (change : Directory → Directory) : Directory → Directory
  | empty => directory name (change empty) empty
  | file n contents rest => file n contents (rest.enter name change)
  | directory n inner rest =>
    if n = name then directory n (change inner) rest else directory n inner (rest.enter name change)

/-- The directory with one more file, by the names on the way to it. -/
def addFile (contents : StoredFile) : List String → Directory → Directory
  | [], d => d
  | [name], d => file name contents d
  | name :: names, d => d.enter name (addFile contents names)

/-- The directory with one more directory, by the names on the way to it. -/
def addDirectory : List String → Directory → Directory
  | [], d => d
  | name :: names, d => d.enter name (addDirectory names)

/-- The order of names: as bytes. -/
def precedes (a b : String) : Bool := decide (a.toUTF8.data.toList ≤ b.toUTF8.data.toList)

/-- For each entry its name and the files at and below it, in walk order. -/
def branches : Directory → List (String × List (List String))
  | empty => []
  | file name _ rest => (name, [[name]]) :: rest.branches
  | directory name inner rest =>
    let files := (inner.branches.mergeSort fun a b => precedes a.1 b.1).flatMap (·.2)
    (name, files.map (name :: ·)) :: rest.branches

/-- The files below a directory, each by the names on the way to it, in walk order. -/
def walk (d : Directory) : List (List String) :=
  (d.branches.mergeSort fun a b => precedes a.1 b.1).flatMap (·.2)

/-- The most bytes that a name may have. -/
def nameLimit : Nat := 255

/-- The most bytes that a path may have. -/
def pathLimit : Nat := 4095

/-- Follows the components of a path. `above` holds the directories on the way down to this one, the
nearest first. Nothing is known outside the outermost directory, so it counts as empty there. -/
def follow (here : Directory) (above : List Directory) : List String → Except AccessFault Found
  | [] => .ok (.directory here)
  | name :: names =>
    if name = "" ∨ name = "." then follow here above names
    else if name = ".." then
      match above with
      | [] => follow empty [] names
      | up :: above => follow up above names
    else if name.utf8ByteSize > nameLimit then .error .nameTooLong
    else
      match here.lookup name with
      | none => .error .missing
      | some (.directory inner) => follow inner (here :: above) names
      | some (.file contents) =>
        if names = [] then .ok (.file contents) else .error .notADirectory

/-- What a path leads to, from a working directory. -/
def resolve (d : Directory) (path : String) : Except AccessFault Found :=
  if path.toList.contains '\x00' then .error .holdsNul
  else if path = "" then .error .missing
  else if path.utf8ByteSize > pathLimit then .error .nameTooLong
  else
    let start := if path.toList.head? = some '/' then empty else d
    follow start [] ((path.toList.splitOn '/').map String.ofList)

/-- A directory as the only files there are. -/
def files (d : Directory) : Files where
  read path :=
    match d.resolve path with
    | .error fault => .error fault
    | .ok (.directory _) => .error .isADirectory
    | .ok (.file contents) => .ok contents
  below path :=
    match d.resolve path with
    | .error fault => .error fault
    | .ok (.directory entries) => .ok (some entries.walk)
    | .ok (.file _) => .ok none

end Directory

end Verbatim
