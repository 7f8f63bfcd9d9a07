import Verbatim.Text.Blank

/-!
# Places in a text, shown to a reader

`position` counts lines and columns from one, and `excerpt` shows the line of a place with a mark
under it.
-/

namespace Verbatim.Text

/-- The line and the column of the place behind a text. A line feed ends a line, with or without a
carriage return before it; a carriage return on its own is a character like any other. -/
def position (before : List Char) : Nat × Nat := go 1 1 before
where
  /-- Continues from a line and a column. -/
  go (line column : Nat) : List Char → Nat × Nat
    | [] => (line, column)
    | '\r' :: '\n' :: s => go (line + 1) 1 s
    | '\n' :: s => go (line + 1) 1 s
    | _ :: s => go line (column + 1) s

/-- The part of a text behind its last line feed. -/
def lastLine (s : List Char) : List Char := (s.reverse.takeWhile (· ≠ '\n')).reverse

/-- The part of a text up to and including its first line feed. -/
def firstLine : List Char → List Char
  | [] => []
  | c :: s => if c = '\n' then [c] else c :: firstLine s

/-- The line of a place as it is shown: line ends are left out, but drawn if the place is on one. -/
def shownLine (before after : List Char) : List Char :=
  let line := lastLine before ++ firstLine after
  if after.head?.any isLineEnd then
    line.map fun c => if c = '\r' then '␍' else if c = '\n' then '␊' else c
  else line.filter fun c => !isLineEnd c

/-- The alternatives of an expectation in words. -/
def alternatives : List String → String
  | [] => "unknown parsing error"
  | [a] => "expected " ++ a
  | [a, b] => "expected " ++ a ++ " or " ++ b
  | names => "expected " ++ ", ".intercalate (names.dropLast ++ ["or " ++ names.getLastD ""])

/-- The lines that show the place between two texts, with a message below. Tabs before the place are
kept under the line so that the mark stays in its column. -/
def excerpt (before after : List Char) (message : String) : String :=
  let (line, column) := position before
  let shown := shownLine before after
  let number := toString line
  let margin := String.ofList (List.replicate number.length ' ')
  let gap := (shown.take (column - 1)).map fun c => if c = '\t' then '\t' else ' '
  "\n".intercalate
    [margin ++ "--> " ++ number ++ ":" ++ toString column,
     margin ++ " |",
     number ++ " | " ++ String.ofList shown,
     margin ++ " | " ++ String.ofList gap ++ "^---",
     margin ++ " |",
     margin ++ " = " ++ message]

end Verbatim.Text
