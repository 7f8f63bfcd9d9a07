import Verbatim.Command.Run
import Verbatim.Files.Directory

/-!
# The program

The files that a command asks for are read first, then the command runs on what was read. The
standard library reports no permission bits, so a file that was read counts as writable and not
executable, and no time of creation.
-/

namespace Verbatim.Program

/-- Why the system refused a path. -/
def faultOf : IO.Error → AccessFault
  | .noFileOrDirectory _ _ _ => .missing
  | .inappropriateType _ code details =>
    if code = 20 then .notADirectory else if code = 21 then .isADirectory else .other details
  | e => .other (toString e)

/-- The result of an action, with a refusal as a fault. -/
def attempt {α : Type} (action : IO α) : IO (Except AccessFault α) := do
  try
    return .ok (← action)
  catch e =>
    return .error (faultOf e)

/-- A time of the system. Times before the epoch are not shown. -/
def timestamp (t : IO.FS.SystemTime) : Timestamp := ⟨t.sec.toNat, t.nsec.toNat⟩

/-- Reads a file with its attributes. -/
def readFile (path : String) : IO StoredFile := do
  let bytes ← IO.FS.readBinFile path
  let metadata ← ((← IO.currentDir) / path).metadata
  let attributes :=
    { FileAttributes.ofMode 0o644 bytes.size with
      modified := some (timestamp metadata.modified)
      accessed := some (timestamp metadata.accessed) }
  return { bytes := bytes.data.toList, attributes := some attributes }

/-- The regular files and the directories in a directory, without their contents. Links are not
followed. -/
partial def readDirectory (path : String) : IO Directory := do
  let mut entries := Directory.empty
  for entry in ← ((← IO.currentDir) / path).readDir do
    match (← entry.path.symlinkMetadata).type with
    | .file => entries := .file entry.fileName { bytes := [] } entries
    | .dir =>
      entries := .directory entry.fileName (← readDirectory entry.path.toString) entries
    | _ => pure ()
  return entries

/-- The files below a path in walk order, or none if it leads to a file. -/
def readBelow (path : String) : IO (Option (List (List String))) := do
  match (← ((← IO.currentDir) / path).metadata).type with
  | .dir => return some (← readDirectory path).walk
  | _ => return none

/-- What is known when some paths were looked up. -/
def known (stored : List (String × Except AccessFault StoredFile))
    (lists : List (String × Except AccessFault (Option (List (List String))))) : Files where
  read path := (stored.lookup path).getD (.error .missing)
  below path := (lists.lookup path).getD (.error .missing)

def lookUp {α : Type} (get : String → IO α) (paths : List String) :
    IO (List (String × Except AccessFault α)) :=
  paths.mapM fun path => return (path, ← attempt (get path))

/-- The files that a command asks for. -/
def gather (command : Command) : IO Files := do
  let settings ← lookUp readFile command.config.toList
  let lists ← match command.action with
    | .check root _ => lookUp readBelow [root]
    | _ => pure []
  let files := known settings lists
  match command.options files >>= fun options => Command.targets files options command.action with
  | .error _ => return files
  | .ok paths =>
    if command.verbosity > 0 then
      for path in paths do
        IO.eprintln ("reading " ++ path)
    return known ((← lookUp readFile paths) ++ settings) lists

/-- A number that identities start from. -/
def someNumber : IO Nat := do
  return (← IO.getRandomBytes 15).foldl (fun n b => 256 * n + b.toNat) 0

/-- Writes a failure for a reader. -/
def reportFailure (failure : Failure) : IO Unit := do
  let d := failure.diagnostic
  IO.eprintln (d.kind.code ++ "\n  " ++ d.display)
  for label in d.label?.toList do
    IO.eprintln ("  at byte " ++ toString label.offset ++ ": " ++ label.message)
  for help in d.help.toList do
    IO.eprintln ("  help: " ++ help)

end Verbatim.Program

open Verbatim in
/-- Runs the command line. -/
def main (arguments : List String) : IO UInt32 := do
  let files ← match Request.read arguments with
    | .ok (.run command) => Program.gather command
    | _ => pure (Program.known [] [])
  let outcome := Outcome.ofArguments files (← Program.someNumber) arguments
  let stdout ← IO.getStdout
  stdout.write (ByteArray.mk outcome.output.toArray)
  stdout.flush
  for failure in outcome.failures do
    Program.reportFailure failure
  for fault in outcome.misuse.toList do
    IO.eprintln ("error: " ++ fault.message ++ "\n\n" ++ Help.usage none)
  return UInt32.ofNat outcome.status
