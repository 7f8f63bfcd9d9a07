import Verbatim.Text.LineDiff

/-!
# Reports of a check

A check writes a line for each file, the differences of a file that does not print as it was read,
and a summary.
-/

namespace Verbatim

/-- What came of a file. -/
inductive Status where
  /-- The file prints as it was read. -/
  | ok
  /-- The file prints as something else. -/
  | mismatch
  /-- The file could not be read. -/
  | failed
  deriving DecidableEq, Repr

/-- The word for an outcome. -/
def Status.label : Status → String
  | ok => "ok"
  | mismatch => "mismatch"
  | failed => "FAILED"

namespace Report

/-- The line of a file, with the outcomes aligned at their ends. -/
def statusLine (path : String) (status : Status) : String :=
  let padding := String.ofList (List.replicate (8 - status.label.length) ' ')
  padding ++ status.label ++ " " ++ path ++ "\n"

/-- The line that counts the files. -/
def summaryLine (passed failed : Nat) : String :=
  toString passed ++ " passed, " ++ toString failed ++ " failed\n"

/-- The differences between a text and what was printed for it. -/
def differences (source printed : String) : String :=
  String.join ((Text.LineDiff.runs source printed).map fun run => run.show ++ "\n")

end Report

end Verbatim
