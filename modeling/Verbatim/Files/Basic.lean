import Verbatim.Document.Basic

/-!
# Files

What a program asks of the files that it works on: the contents of a file, and which regular files
lie below a directory. Both are asked by path, and both may fail. `Files` holds the answers as
functions, so the same program runs over a tree in memory and over a snapshot of a disk.
-/

namespace Verbatim

/-- Why a path does not give what was asked of it. -/
inductive AccessFault where
  /-- The path leads nowhere. -/
  | missing
  /-- The path goes on behind something that is no directory. -/
  | notADirectory
  /-- The path leads to a directory where a file is needed. -/
  | isADirectory
  /-- The path, or a name in it, is longer than the system allows. -/
  | nameTooLong
  /-- The path holds a NUL character, which ends a path. -/
  | holdsNul
  /-- The contents are no text. -/
  | notText
  /-- Something else went wrong. -/
  | other (words : String)
  deriving DecidableEq, Repr

/-- The fault in the words of the operating system. -/
def AccessFault.reason : AccessFault → String
  | missing => "No such file or directory (os error 2)"
  | notADirectory => "Not a directory (os error 20)"
  | isADirectory => "Is a directory (os error 21)"
  | nameTooLong => "File name too long (os error 36)"
  | holdsNul => "file name contained an unexpected NUL byte"
  | notText => "stream did not contain valid UTF-8"
  | other words => words

/-- The attributes of a file that was read, by its permission bits and its size. A file is writable
or executable if anyone may write or execute it. -/
def FileAttributes.ofMode (mode size : Nat) : FileAttributes :=
  { readable := true
    writable := mode &&& 0o222 ≠ 0
    executable := mode &&& 0o111 ≠ 0
    size }

/-- What is stored under a name. -/
structure StoredFile where
  bytes : List UInt8
  attributes : Option FileAttributes := none
  deriving DecidableEq, Repr

/-- What is known about files. -/
structure Files where
  /-- The file that a path leads to. -/
  read : String → Except AccessFault StoredFile
  /-- The regular files below the directory that a path leads to, each by the names on the way to
  it, in the order of a walk. There is no list if the path leads to a regular file. -/
  below : String → Except AccessFault (Option (List (List String)))

/-- The path of what lies below a path, by the names on the way. -/
def Path.join (root : String) (names : List String) : String :=
  names.foldl
    (fun path name =>
      if path.toList.getLast? = some '/' then path ++ name else path ++ "/" ++ name)
    root

end Verbatim
