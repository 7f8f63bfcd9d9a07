import Verbatim.Files.Basic
import Verbatim.Options.Read
import Verbatim.Reader

/-!
# Reading files

Options and documents from files, and which files of a directory are picked up.
-/

namespace Verbatim.Files

/-- A file as an input of the reader. -/
def input (files : Files) (path : String) : Except Failure Input :=
  match files.read path with
  | .error fault => .error (.unreadable path fault.reason)
  | .ok file => .ok { Input.ofBytes path file.bytes with attributes := file.attributes }

/-- The document in a file. -/
def document (files : Files) (options : Options) (path : String) : Except Failure Document :=
  files.input path >>= Reader.read options

/-- The options in a file, which must be UTF-8. -/
def options (files : Files) (path : String) : Except Failure Options :=
  match files.read path with
  | .error fault => .error (.unreadableOptions path fault.reason)
  | .ok file =>
    match String.fromUTF8? (ByteArray.mk file.bytes.toArray) with
    | none => .error (.unreadableOptions path AccessFault.notText.reason)
    | some text => (Options.read text).mapError .badOptions

/-- The files that a check looks at. A regular file is taken as it is; of a directory, the files
whose extension is among the options'. -/
def discover (files : Files) (options : Options) (root : String) : Except Failure (List String) :=
  match files.below root with
  | .error fault =>
    .error (.unlistable root ("IO error for operation on " ++ root ++ ": " ++ fault.reason))
  | .ok none => .ok [root]
  | .ok (some below) => .ok ((below.map (Path.join root)).filter options.matchesExtension)

end Verbatim.Files
