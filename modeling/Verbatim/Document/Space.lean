import Verbatim.Text.Blank

/-!
# Spaces

A space is the verbatim text between two tokens: blanks, line breaks and whole comment lines. It is
never normalised.
-/

namespace Verbatim

/-- Verbatim text that stands before a node. -/
structure Space where
  /-- The text, exactly as written. -/
  text : String := ""
  deriving DecidableEq, Repr

namespace Space

/-- The space of the given characters. -/
def ofList (s : List Char) : Space := ⟨String.ofList s⟩

/-- The comment of a line, without the blanks around it. -/
def lineComment? (line : List Char) : Option (List Char) :=
  let rest := line.dropWhile Text.isIndent
  if rest.head? = some '#' then some (Text.trimEnd rest) else none

/-- The comments that stand on lines of their own, without line ends and blanks around them. -/
def comments (s : Space) : List String :=
  ((Text.lines s.text.toList).filterMap lineComment?).map String.ofList

end Space

end Verbatim
