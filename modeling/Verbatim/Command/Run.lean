import Verbatim.Command.Arguments
import Verbatim.Command.Help
import Verbatim.Files.Read
import Verbatim.Report

/-!
# Running commands

A command turns files into an outcome: a status, an output, and the failures to be reported. Output
that is written before a failure stays.
-/

namespace Verbatim

/-- What came of a command. -/
structure Outcome where
  /-- 0 if all went well, 1 if something failed, 2 if the command line is wrong. -/
  status : Nat := 0
  output : List UInt8 := []
  /-- The failures to report, in order. -/
  failures : List Failure := []
  /-- What is wrong with the command line. -/
  misuse : Option Misuse := none
  deriving DecidableEq, Repr

namespace Outcome

/-- All went well, and a text is written. -/
def ofText (text : String) : Outcome := { output := text.toUTF8.data.toList }

/-- Nothing is written, and a failure is reported. -/
def ofFailure (failure : Failure) : Outcome := { status := 1, failures := [failure] }

end Outcome

/-- What a check says about a file. -/
structure Verdict where
  path : String
  status : Status
  /-- How the printed text differs. -/
  differences : String := ""
  failure : Option Failure := none
  deriving DecidableEq, Repr

namespace Verdict

/-- The verdict on a file that was not read or has no document. -/
def failed (path : String) (failure : Failure) : Verdict :=
  { path, status := .failed, failure := some failure }

def ofInput (options : Options) (input : Input) : Verdict :=
  match Reader.read options input with
  | .error failure => failed input.path failure
  | .ok document =>
    match document.verify input.decoded.text input.path with
    | .ok () => { path := input.path, status := .ok }
    | .error failure =>
      { path := input.path
        status := .mismatch
        differences := Report.differences input.decoded.text document.print
        failure := some failure }

/-- The verdict as it is written. -/
def text (v : Verdict) : String := Report.statusLine v.path v.status ++ v.differences

end Verdict

namespace Command

/-- The verdicts on files: first on those that cannot be read, then on the others. -/
def verdicts (files : Files) (options : Options) (paths : List String) : List Verdict :=
  let unread := paths.filterMap fun path =>
    match files.input path with
    | .ok _ => none
    | .error failure => some (Verdict.failed path failure)
  let inputs := paths.filterMap fun path => (files.input path).toOption
  unread ++ inputs.map (Verdict.ofInput options)

/-- The options of a check. It compares texts itself, so that it can show the differences. -/
def checkOptions (options : Options) (extensions : List String) : Options :=
  { options with
    extensions := if extensions = [] then options.extensions else extensions
    verifyRoundTrip := false }

/-- The outcome of a check of some files. -/
def summarize (all : List Verdict) : Outcome :=
  let failed := all.countP fun v => v.status ≠ .ok
  let summary := Report.summaryLine (all.length - failed) failed
  { status := if failed = 0 then 0 else 1
    output := (String.join (all.map Verdict.text) ++ summary).toUTF8.data.toList
    failures := all.filterMap (·.failure) }

def options (files : Files) (c : Command) : Except Failure Options :=
  match c.config with
  | none => .ok {}
  | some path => files.options path

/-- The files that an action works on. -/
def targets (files : Files) (options : Options) : Action → Except Failure (List String)
  | .tree file _ | .print file => .ok [file]
  | .check root extensions => files.discover (checkOptions options extensions) root

/-- Does an action. The nodes of a dump have the identities from `firstId` on. -/
def act (files : Files) (firstId : Nat) (options : Options) :
    Action → Except Failure Outcome
  | .tree file format => do
    let document ← files.document options file
    return .ofText ((document.number firstId).dump format ++ "\n")
  | .print file => do
    let document ← files.document options file
    return { output := ← document.toBytes }
  | action@(.check _ extensions) => do
    let paths ← targets files options action
    return summarize (verdicts files (checkOptions options extensions) paths)

def run (files : Files) (firstId : Nat) (c : Command) : Outcome :=
  match c.options files >>= fun options => act files firstId options c.action with
  | .ok outcome => outcome
  | .error failure => .ofFailure failure

end Command

def Request.answer (files : Files) (firstId : Nat) : Request → Outcome
  | .run command => command.run files firstId
  | .version => .ofText Help.versionLine
  | .help topic => .ofText (Help.text topic)

/-- The outcome of a command line. -/
def Outcome.ofArguments (files : Files) (firstId : Nat) (arguments : List String) : Outcome :=
  match Request.read arguments with
  | .ok request => request.answer files firstId
  | .error fault => { status := 2, misuse := some fault }

end Verbatim
