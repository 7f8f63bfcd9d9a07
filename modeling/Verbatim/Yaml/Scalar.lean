import Verbatim.Literal.Hint
import Verbatim.Yaml.Problem

/-!
# Reading scalars

Each reader starts at the first character of a scalar and gives its text and the place behind it. A
single line break inside a flow scalar counts as a space; of more, the first is dropped.
-/

namespace Verbatim.Yaml

namespace Scalar

def fail {α : Type} (context : Context) (start : Mark) (cause : Cause) (p : Place) :
    Except Problem α :=
  .error { cause, mark := p.mark, context := some (context, start) }

/-- The blanks and line breaks between two words of a scalar. -/
structure Gap where
  /-- The blanks, if there is no line break. -/
  blanks : List Char := []
  /-- Whether there is a line break. -/
  broken : Bool := false
  /-- The first line break. -/
  firstBreak : List Char := []
  /-- The other line breaks. -/
  moreBreaks : List Char := []
  deriving DecidableEq, Repr

/-- What a gap counts as. -/
def Gap.text (g : Gap) : List Char :=
  if !g.broken then g.blanks
  else if g.firstBreak = ['\n'] then (if g.moreBreaks = [] then [' '] else g.moreBreaks)
  else g.firstBreak ++ g.moreBreaks

/-- Reads a gap up to the next word. `violates` tells a blank that must not stand behind a line
break. -/
def readGap (violates : Place → Bool) : Nat → Gap → Place → Except Place (Gap × Place)
  | 0, g, p => .ok (g, p)
  | fuel + 1, g, p =>
    match p.head? with
    | none => .ok (g, p)
    | some c =>
      if Text.isIndent c then
        if g.broken then
          if violates p then .error p else readGap violates fuel g (p.skip 1)
        else readGap violates fuel { g with blanks := g.blanks ++ [c] } (p.skip 1)
      else if isBreak c then
        let g :=
          if g.broken then { g with moreBreaks := g.moreBreaks ++ p.lineBreak }
          else { blanks := [], broken := true, firstBreak := p.lineBreak, moreBreaks := [] }
        readGap violates fuel g p.skipLine
      else .ok (g, p)

/-! Plain scalars. -/

/-- Whether a character is a bracket or a comma of flow style. -/
def isFlowIndicator (c : Char) : Bool := ",[]\x7b\x7d".toList.contains c

/-- Whether a word of a plain scalar ends before a character that is no gap. -/
def endsPlain (inFlow : Bool) (p : Place) : Bool :=
  (p.isAt ':' && p.isGapAt 1) || (inFlow && p.startsWith isFlowIndicator)

/-- Whether a colon stands where flow style cannot tell what it means. -/
def isStrayColon (inFlow : Bool) (p : Place) : Bool :=
  inFlow && p.isAt ':' && (p.peek? 1).any fun c => c == '?' || isFlowIndicator c

def readPlainWord (inFlow : Bool) : Nat → Place → Except Place (List Char × Place)
  | 0, p => .ok ([], p)
  | fuel + 1, p =>
    match p.head? with
    | none => .ok ([], p)
    | some c =>
      if isGap c then .ok ([], p)
      else if isStrayColon inFlow p then .error p
      else if endsPlain inFlow p then .ok ([], p)
      else do
        let (word, rest) ← readPlainWord inFlow fuel (p.skip 1)
        return (c :: word, rest)

/-- A plain scalar that has been read. -/
structure Plain where
  text : List Char
  /-- Whether a line break was read behind it. -/
  broken : Bool
  /-- The place behind it and the gap that follows. -/
  place : Place

/-- Reads the words of a plain scalar. `text` and `gap` are what is read already. Outside flow style
a line must be indented by `indent` columns to belong to the scalar. -/
def readPlainWords (inFlow : Bool) (indent : Int) (start : Mark) :
    Nat → List Char → Gap → Place → Except Problem Plain
  | 0, text, gap, p => .ok ⟨text, gap.broken, p⟩
  | fuel + 1, text, gap, p =>
    if p.isDocumentLimit || p.isAt '#' then .ok ⟨text, gap.broken, p⟩
    else
      match readPlainWord inFlow p.rest.length p with
      | .error q => fail .plainScalar start .unexpectedColon q
      | .ok (word, q) =>
        let text := if word = [] then text else text ++ gap.text ++ word
        let gap := if word = [] then gap else {}
        if !q.startsWith isGap then .ok ⟨text, gap.broken, q⟩
        else
          let violates (r : Place) : Bool := (r.mark.column : Int) < indent && r.isAt '\t'
          match readGap violates q.rest.length gap q with
          | .error r => fail .plainScalar start .tabViolation r
          | .ok (gap, r) =>
            if !inFlow && (r.mark.column : Int) < indent then .ok ⟨text, gap.broken, r⟩
            else readPlainWords inFlow indent start fuel text gap r

/-- Reads a plain scalar. -/
def readPlain (inFlow : Bool) (indent : Int) (p : Place) : Except Problem Plain :=
  readPlainWords inFlow indent p.mark (p.rest.length + 1) [] {} p

/-! Quoted scalars. -/

/-- The character that a letter behind a backslash stands for. -/
def escaped? (c : Char) : Option Char :=
  [('0', '\x00'), ('a', '\x07'), ('b', '\x08'), ('t', '\t'), ('\t', '\t'), ('n', '\n'),
   ('v', '\x0b'), ('f', '\x0c'), ('r', '\r'), ('e', '\x1b'), (' ', ' '), ('"', '"'), ('/', '/'),
   ('\\', '\\'), ('N', '\x85'), ('_', '\xa0'), ('L', '\u2028'), ('P', '\u2029')].lookup c

/-- The number of hexadecimal digits that a letter behind a backslash announces. -/
def escapeLength? (c : Char) : Option Nat := [('x', 2), ('u', 4), ('U', 8)].lookup c

/-- Reads an escape sequence. -/
def readEscape (start : Mark) (p : Place) : Except Problem (Char × Place) :=
  match (p.peek? 1).bind escaped?, (p.peek? 1).bind escapeLength? with
  | some c, _ => .ok (c, p.skip 2)
  | none, none => fail .quotedText start .unknownEscape p
  | none, some n =>
    let q := p.skip 2
    let digits := q.rest.take n
    match Hint.natOfDigits? 16 digits with
    | none => fail .quotedText start .expectedHex q
    | some code =>
      if digits.length < n then fail .quotedText start .expectedHex q
      else if code.isValidChar then .ok (Char.ofNat code, q.skip n)
      else fail .quotedText start .badCodePoint q

/-- A word of a quoted scalar that has been read. -/
structure QuotedWord where
  text : List Char
  /-- Whether it ends with an escaped line break. -/
  broken : Bool
  place : Place

/-- Reads a word of a quoted scalar up to a gap or the closing quote. -/
def readQuotedWord (quote : Char) (start : Mark) : Nat → Place → Except Problem QuotedWord
  | 0, p => .ok ⟨[], false, p⟩
  | fuel + 1, p =>
    let isSingle := quote == '\''
    let more (c : Char) (q : Place) : Except Problem QuotedWord := do
      let word ← readQuotedWord quote start fuel q
      return { word with text := c :: word.text }
    match p.head? with
    | none => .ok ⟨[], false, p⟩
    | some c =>
      if isGap c then .ok ⟨[], false, p⟩
      else if isSingle ∧ c = quote ∧ p.peek? 1 = some quote then more quote (p.skip 2)
      else if c = quote then .ok ⟨[], false, p⟩
      else if !isSingle ∧ c = '\\' then
        if (p.peek? 1).any isBreak then .ok ⟨[], true, (p.skip 1).skipLine⟩
        else do
          let (e, q) ← readEscape start p
          more e q
      else more c (p.skip 1)

/-- Reads the words of a quoted scalar up to the closing quote. `text` is what is read already. -/
def readQuotedWords (quote : Char) (start : Mark) :
    Nat → List Char → Place → Except Problem (List Char × Place)
  | 0, text, p => .ok (text, p)
  | fuel + 1, text, p =>
    if p.isDocumentLimit then fail .quotedScalar start .unexpectedDocumentMark p
    else if p.rest.isEmpty then fail .quotedScalar start .unexpectedEnd p
    else do
      let word ← readQuotedWord quote start p.rest.length p
      let text := text ++ word.text
      if word.place.isAt quote then return (text, word.place.skip 1)
      let gapStart : Gap := { broken := word.broken }
      match readGap (fun _ => false) word.place.rest.length gapStart word.place with
      | .error q => fail .quotedScalar start .tabViolation q
      | .ok (gap, q) => readQuotedWords quote start fuel (text ++ gap.text) q

/-- Reads a quoted scalar. -/
def readQuoted (quote : Char) (p : Place) : Except Problem (List Char × Place) :=
  readQuotedWords quote p.mark (p.rest.length + 1) [] (p.skip 1)

/-! Block scalars. -/

/-- What happens to the line breaks at the end of a block scalar. -/
inductive Chomping where
  | strip | clip | keep
  deriving DecidableEq, Repr

/-- Reads the sign that says what happens to the line breaks at the end. -/
def readChomping (p : Place) : Chomping × Place :=
  if p.isAt '+' then (.keep, p.skip 1)
  else if p.isAt '-' then (.strip, p.skip 1)
  else (.clip, p)

/-- Reads the digit that says how far a block is indented, zero if there is none. -/
def readDepth (start : Mark) (p : Place) : Except Problem (Nat × Place) :=
  match p.head? with
  | some c =>
    if c = '0' then fail .blockScalar start .zeroIndentation p
    else if c.isDigit then .ok (c.toNat - '0'.toNat, p.skip 1)
    else .ok (0, p)
  | none => .ok (0, p)

/-- Reads the sign and the digit, which come in either order. -/
def readHeader (start : Mark) (p : Place) : Except Problem (Chomping × Nat × Place) := do
  let (chomping, q) := readChomping p
  let (depth, r) ← readDepth start q
  if chomping = .clip then
    let (chomping, r) := if depth = 0 then (chomping, r) else readChomping r
    return (chomping, depth, r)
  else return (chomping, depth, r)

/-- Empty lines of a block scalar that have been read. -/
structure EmptyLines where
  breaks : List Char
  /-- The greatest indentation among them. -/
  widest : Nat
  place : Place

/-- Skips the indentation of a line: all spaces as long as the depth is not known. -/
def skipIndentation (indent : Nat) (p : Place) : Place :=
  let spaces := (p.rest.takeWhile (· == ' ')).length
  p.skip (if indent = 0 then spaces else min spaces (indent - p.mark.column))

/-- Reads empty lines and the indentation of the line that follows. -/
def readEmptyLines (indent : Nat) (start : Mark) :
    Nat → EmptyLines → Except Problem EmptyLines
  | 0, lines => .ok lines
  | fuel + 1, lines =>
    let p := skipIndentation indent lines.place
    let widest := max lines.widest p.mark.column
    if (indent = 0 ∨ p.mark.column < indent) ∧ p.isAt '\t' then
      fail .blockScalar start .tabIndentation p
    else if p.startsWith isBreak then
      readEmptyLines indent start fuel ⟨lines.breaks ++ p.lineBreak, widest, p.skipLine⟩
    else .ok { lines with widest, place := p }

/-- Reads the lines of a block scalar. `text` is what is read already, `firstBreak` the line break
behind it, `lines` the empty lines after that, and `blank` says whether the last line starts with a
blank. Folded lines are joined unless one of them starts with a blank. -/
def readBlockLines (folded : Bool) (indent : Nat) (start : Mark) :
    Nat → List Char → List Char → Bool → EmptyLines →
      Except Problem (List Char × List Char × EmptyLines)
  | 0, text, firstBreak, _, lines => .ok (text, firstBreak, lines)
  | fuel + 1, text, firstBreak, blank, lines =>
    let p := lines.place
    if p.mark.column ≠ indent ∨ p.rest.isEmpty then .ok (text, firstBreak, lines)
    else do
      let nextBlank := p.startsWith Text.isIndent
      let joint :=
        if folded ∧ firstBreak = ['\n'] ∧ !blank ∧ !nextBlank then
          (if lines.breaks = [] then [' '] else [])
        else firstBreak
      let line := p.rest.takeWhile (!isBreak ·)
      let q := p.skip line.length
      let lines' ← readEmptyLines indent start (q.rest.length + 1) ⟨[], 0, q.skipLine⟩
      readBlockLines folded indent start fuel (text ++ joint ++ lines.breaks ++ line) q.lineBreak
        nextBlank lines'

/-- Reads a block scalar inside a collection that is indented by `outer` columns, or by -1 outside
of all collections. -/
def readBlock (folded : Bool) (outer : Int) (p : Place) : Except Problem (List Char × Place) := do
  let start := p.mark
  let (chomping, depth, q) ← readHeader start (p.skip 1)
  let q := q.skipComment
  if !q.endsLine then
    fail .blockScalar start .expectedLineEnd q
  let q := q.skipLine
  let given := if depth = 0 then 0 else (max outer 0).toNat + depth
  let lines ← readEmptyLines given start (q.rest.length + 1) ⟨[], 0, q⟩
  let indent := if given = 0 then max (max lines.widest (outer + 1).toNat) 1 else given
  let (text, firstBreak, lines) ←
    readBlockLines folded indent start (q.rest.length + 1) [] [] false lines
  let text :=
    match chomping with
    | .strip => text
    | .clip => text ++ firstBreak
    | .keep => text ++ firstBreak ++ lines.breaks
  return (text, lines.place)

end Scalar

end Verbatim.Yaml
