/-!
# Reader options

What a reader does besides reading, and which files of a directory it picks up. The extension of a
path is what stands behind the last full stop of its last component.
-/

namespace Verbatim

/-- What a reader does besides reading. -/
structure Options where
  /-- Compare the printed document with its text, and fail where they differ. -/
  verifyRoundTrip : Bool := false
  /-- Record the checksum of the bytes on the document. -/
  computeChecksum : Bool := true
  /-- The extensions of the files that are picked up in a directory. -/
  extensions : List String := ["toml"]
  deriving DecidableEq, Repr

namespace Path

/-- The components of a path. A full stop that stands for the same directory is none, except as the
first. -/
def components (path : List Char) : List (List Char) :=
  match path.splitOn '/' with
  | [] => []
  | first :: rest =>
    [first].filter (· ≠ []) ++ rest.filter fun c => c ≠ [] ∧ c ≠ ['.']

/-- The name of the file that a path leads to. There is none if the path ends in a step to this or
the parent directory. -/
def fileName? (path : List Char) : Option (List Char) :=
  (components path).getLast?.filter fun c => c ≠ ['.'] ∧ c ≠ ['.', '.']

/-- The extension of a file name: what stands behind the last full stop, unless that is the first
character. -/
def extensionOf? (name : List Char) : Option (List Char) :=
  let extension := (name.reverse.takeWhile (· ≠ '.')).reverse
  if extension.length + 1 < name.length then some extension else none

def extension? (path : List Char) : Option (List Char) := (fileName? path).bind extensionOf?

end Path

def Options.matchesExtension (o : Options) (path : String) : Bool :=
  match Path.extension? path.toList with
  | none => false
  | some extension => o.extensions.contains (String.ofList extension)

end Verbatim
