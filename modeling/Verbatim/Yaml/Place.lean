import Verbatim.Text.Blank

/-!
# Places in a YAML text

A place is the text from there on, with the line and the column it stands in.
-/

namespace Verbatim.Yaml

/-- The characters that break a line. -/
def isBreak (c : Char) : Bool :=
  c == '\n' || c == '\r' || c == '\x85' || c == '\u2028' || c == '\u2029'

/-- The characters that separate tokens. -/
def isGap (c : Char) : Bool := Text.isIndent c || isBreak c

/-- The characters of handles and anchors. -/
def isName (c : Char) : Bool := c.isAlphanum || c == '_' || c == '-'

/-- How far into a text a place is. All three are counted from zero. -/
structure Mark where
  /-- The number of characters before. -/
  index : Nat := 0
  line : Nat := 0
  column : Nat := 0
  deriving DecidableEq, Repr

/-- The line and the column as a reader counts them. -/
def Mark.show (m : Mark) : String :=
  "line " ++ toString (m.line + 1) ++ " column " ++ toString (m.column + 1)

/-- Whether a mark is at the very start of a text. -/
def Mark.isStart (m : Mark) : Bool := m.line == 0 && m.column == 0

/-- A text from some place on. -/
structure Place where
  rest : List Char
  mark : Mark := {}
  deriving DecidableEq, Repr

namespace Place

/-- The next character. -/
def head? (p : Place) : Option Char := p.rest.head?

/-- The next character but `n`. -/
def peek? (p : Place) (n : Nat) : Option Char := p.rest[n]?

/-- Whether the next character is of a class. -/
def startsWith (p : Place) (f : Char → Bool) : Bool := p.head?.any f

/-- Whether the next character is a given one. -/
def isAt (p : Place) (c : Char) : Bool := p.head? == some c

/-- Whether a token ends before the next character but `n`. -/
def isGapAt (p : Place) (n : Nat) : Bool := (p.peek? n).all isGap

/-- Whether the line ends here. -/
def endsLine (p : Place) : Bool := p.head?.all isBreak

/-- The place some characters further on the same line. -/
def skip (p : Place) (n : Nat) : Place :=
  ⟨p.rest.drop n,
    { p.mark with index := p.mark.index + n, column := p.mark.column + n }⟩

/-- The place behind all next characters of a class that holds no line break. -/
def skipWhile (p : Place) (f : Char → Bool) : Place := p.skip (p.rest.takeWhile f).length

/-- The start of the next line, if a line break stands here. -/
def skipLine (p : Place) : Place :=
  let next (n : Nat) (s : List Char) : Place := ⟨s, ⟨p.mark.index + n, p.mark.line + 1, 0⟩⟩
  match p.rest with
  | '\r' :: '\n' :: s => next 2 s
  | c :: s => if isBreak c then next 1 s else p
  | [] => p

/-- What a line break here counts as: a line feed, unless it separates lines or paragraphs. -/
def lineBreak (p : Place) : List Char :=
  match p.head? with
  | some c => if c = '\u2028' ∨ c = '\u2029' then [c] else if isBreak c then ['\n'] else []
  | none => []

/-- Behind blanks and a comment on the same line. -/
def skipComment (p : Place) : Place :=
  let p := p.skipWhile Text.isIndent
  if p.isAt '#' then p.skipWhile (!isBreak ·) else p

/-- Whether a mark of three equal characters stands at the start of a line. -/
def isDocumentMark (p : Place) (c : Char) : Bool :=
  p.mark.column == 0 && p.peek? 0 == some c && p.peek? 1 == some c && p.peek? 2 == some c &&
    p.isGapAt 3

/-- Whether a document starts or ends here. -/
def isDocumentLimit (p : Place) : Bool := p.isDocumentMark '-' || p.isDocumentMark '.'

end Place

end Verbatim.Yaml
