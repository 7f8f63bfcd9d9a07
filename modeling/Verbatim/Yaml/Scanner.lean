import Verbatim.Yaml.Scalar
import Verbatim.Yaml.Tag

/-!
# From text to tokens

A key need not be announced: only the colon behind it tells that a key has been read. So tokens wait
in a queue as long as one of them may turn out to start a key, and the tokens that announce it are
put in front of it when the colon comes. `scan` gives all tokens that left the queue, and the
problem that stopped the reading.
-/

namespace Verbatim.Yaml

/-- A token that may turn out to start a key. -/
structure PossibleKey where
  /-- How many tokens stand before it. -/
  number : Nat
  mark : Mark
  /-- Whether nothing but a key can stand there. -/
  required : Bool
  deriving DecidableEq, Repr

/-- A text that is read up to some place. -/
structure Scanner where
  place : Place
  /-- The tokens that wait. -/
  queue : List Token := []
  /-- How many tokens have left the queue. -/
  delivered : Nat := 0
  /-- Whether a key may start here. -/
  keyAllowed : Bool := true
  /-- The possible key of every flow collection around the place, the innermost first, and of the
  block around them. -/
  keys : List (Option PossibleKey) := [none]
  /-- The column of the block collection around the place, -1 outside of all. -/
  indent : Int := -1
  /-- The columns of the block collections around that one. -/
  indents : List Int := []
  /-- Whether the end of the text is reached. -/
  ended : Bool := false
  deriving DecidableEq, Repr

/-- Reading changes the scanner and may find a problem. -/
abbrev Scan := StateT Scanner (Except Problem)

namespace Scan

/-- Stops at the present place. -/
def fail {α : Type} (cause : Cause) : Scan α := do
  throw { cause, mark := (← get).place.mark }

/-- Stops at the present place, while something is read that starts at a mark. -/
def failWhile {α : Type} (context : Context) (start : Mark) (cause : Cause) : Scan α := do
  throw { cause, mark := (← get).place.mark, context := some (context, start) }

/-- Whether the place is inside a flow collection. -/
def inFlow : Scan Bool := return 1 < (← get).keys.length

/-- The present column. -/
def column : Scan Int := return ((← get).place.mark.column : Int)

/-- Says whether a key may start at the next token. -/
def allowKey (allowed : Bool) : Scan Unit := modify fun s => { s with keyAllowed := allowed }

/-- Puts a token at the end of the queue. -/
def enqueue (kind : TokenKind) (start stop : Mark) : Scan Unit :=
  modify fun s => { s with queue := s.queue ++ [⟨kind, start, stop⟩] }

/-- Puts a token in front of the one that has `number` tokens before it. -/
def insertAt (number : Nat) (kind : TokenKind) (mark : Mark) : Scan Unit :=
  modify fun s => { s with queue := s.queue.insertIdx (number - s.delivered) ⟨kind, mark, mark⟩ }

/-- Takes some characters as a token. -/
def takeToken (length : Nat) (kind : TokenKind) : Scan Unit := do
  let s ← get
  let p := s.place.skip length
  enqueue kind s.place.mark p.mark
  modify fun s => { s with place := p }

/-- A key stands on one line and is not long. Forgets possible keys that cannot be one any more. -/
def dropStaleKeys : Scan Unit := do
  let s ← get
  let isStale (k : PossibleKey) : Bool :=
    k.mark.line < s.place.mark.line || k.mark.index + 1024 < s.place.mark.index
  match s.keys.findSome? (Option.filter fun k => k.required && isStale k) with
  | some k => failWhile .simpleKey k.mark .expectedColon
  | none => set { s with keys := s.keys.map (Option.filter fun k => !isStale k) }

/-- Forgets the innermost possible key. -/
def dropKey : Scan Unit := do
  let s ← get
  match s.keys with
  | some k :: keys =>
    if k.required then failWhile .simpleKey k.mark .expectedColon
    else set { s with keys := none :: keys }
  | _ => pure ()

/-- Remembers that the next token may start a key. -/
def saveKey : Scan Unit := do
  let s ← get
  if s.keyAllowed then
    let required := !(← inFlow) && s.indent == (← column)
    dropKey
    modify fun t =>
      { t with
        keys := some ⟨s.delivered + s.queue.length, s.place.mark, required⟩ :: t.keys.drop 1 }

/-- Opens a block collection at a column that is further in than the one around it. The token that
opens it is put in front of token `number`, or at the end. -/
def rollIndent (column : Int) (number : Option Nat) (kind : TokenKind) (mark : Mark) :
    Scan Unit := do
  let s ← get
  if !(← inFlow) && s.indent < column then
    set { s with indent := column, indents := s.indent :: s.indents }
    match number with
    | some n => insertAt n kind mark
    | none => enqueue kind mark mark

/-- Closes block collections until the innermost is at most at a column. -/
def unrollFrom (column : Int) (mark : Mark) : Int → List Int → Scan Unit
  | indent, [] => modify fun s => { s with indent, indents := [] }
  | indent, outer :: indents => do
    if column < indent then
      enqueue .blockEnd mark mark
      unrollFrom column mark outer indents
    else
      modify fun s => { s with indent, indents := outer :: indents }

/-- Closes the block collections that a token at a column does not belong to. -/
def unrollIndent (column : Int) : Scan Unit := do
  let s ← get
  if !(← inFlow) then
    unrollFrom column s.place.mark s.indent s.indents

/-- The first character of a token. Blanks, comments and line breaks are skipped, and outside flow
style a new line may start a key. Tabs are no indentation. -/
def toNextToken : Nat → Scan Unit
  | 0 => pure ()
  | fuel + 1 => do
    let s ← get
    let flow ← inFlow
    let p := if s.place.mark.index = 0 ∧ s.place.isAt '\ufeff' then s.place.skip 1 else s.place
    let p := p.skipWhile fun c => c == ' ' || ((flow || !s.keyAllowed) && c == '\t')
    let p := if p.isAt '#' then p.skipWhile (!isBreak ·) else p
    if p.startsWith isBreak then
      set { s with place := p.skipLine, keyAllowed := s.keyAllowed || !flow }
      toNextToken fuel
    else
      set { s with place := p }

/-! The kinds of tokens. -/

/-- Closes everything at the end of the text, which counts as the start of a line. -/
def streamEnd : Scan Unit := do
  modify fun s =>
    if s.place.mark.column = 0 then s
    else { s with place.mark := { s.place.mark with line := s.place.mark.line + 1, column := 0 } }
  unrollIndent (-1)
  dropKey
  allowKey false
  takeToken 0 .streamEnd
  modify fun s => { s with ended := true }

/-- Closes all collections before a directive or a document mark. -/
def closeDocument : Scan Unit := do
  unrollIndent (-1)
  dropKey
  allowKey false

/-- Reads a directive. -/
def directive : Scan Unit := do
  closeDocument
  let s ← get
  let (kind, stop, p) ← Tag.readDirective s.place
  enqueue kind s.place.mark stop
  modify fun s => { s with place := p }

/-- Reads a document mark. -/
def documentMark (kind : TokenKind) : Scan Unit := do
  closeDocument
  takeToken 3 kind

/-- Reads an opening bracket. -/
def openFlow (kind : TokenKind) : Scan Unit := do
  saveKey
  modify fun s => { s with keys := none :: s.keys, keyAllowed := true }
  takeToken 1 kind

/-- Reads a closing bracket. -/
def closeFlow (kind : TokenKind) : Scan Unit := do
  dropKey
  modify fun s =>
    { s with keys := if 1 < s.keys.length then s.keys.drop 1 else s.keys, keyAllowed := false }
  takeToken 1 kind

/-- Reads a comma. -/
def flowEntry : Scan Unit := do
  dropKey
  allowKey true
  takeToken 1 .flowEntry

/-- Reads the dash of an element. Inside flow style the dash is left to whoever reads the tokens. -/
def blockEntry : Scan Unit := do
  let s ← get
  if !(← inFlow) then
    if !s.keyAllowed then
      fail .entryNotAllowed
    rollIndent (← column) none .blockSequenceStart s.place.mark
  dropKey
  allowKey true
  takeToken 1 .blockEntry

/-- Reads the question mark that announces a key. -/
def key : Scan Unit := do
  let s ← get
  let flow ← inFlow
  if !flow then
    if !s.keyAllowed then
      fail .keyNotAllowed
    rollIndent (← column) none .blockMappingStart s.place.mark
  dropKey
  allowKey (!flow)
  takeToken 1 .key

/-- Reads the colon behind a key, announced or not. -/
def value : Scan Unit := do
  let s ← get
  let flow ← inFlow
  match s.keys.head?.join with
  | some k =>
    insertAt k.number .key k.mark
    rollIndent k.mark.column (some k.number) .blockMappingStart k.mark
    modify fun s => { s with keys := none :: s.keys.drop 1, keyAllowed := false }
  | none =>
    if !flow then
      if !s.keyAllowed then
        fail .valueNotAllowed
      rollIndent (← column) none .blockMappingStart s.place.mark
    allowKey (!flow)
  takeToken 1 .value

def mayBeKey (read : Place → Except Problem (TokenKind × Place)) : Scan Unit := do
  saveKey
  allowKey false
  let s ← get
  let (kind, p) ← read s.place
  enqueue kind s.place.mark p.mark
  modify fun s => { s with place := p }

/-- Reads a block scalar. -/
def blockScalar (folded : Bool) : Scan Unit := do
  dropKey
  allowKey true
  let s ← get
  let (text, p) ← Scalar.readBlock folded s.indent s.place
  enqueue (.scalar text (if folded then .folded else .literal)) s.place.mark p.mark
  modify fun s => { s with place := p }

/-- Reads a plain scalar. A line break behind it lets the next token start a key. -/
def plainScalar : Scan Unit := do
  let flow ← inFlow
  saveKey
  allowKey false
  let s ← get
  let scalar ← Scalar.readPlain flow (s.indent + 1) s.place
  enqueue (.scalar scalar.text .plain) s.place.mark scalar.place.mark
  modify fun s => { s with place := scalar.place, keyAllowed := scalar.broken }

def startsPlain (flow : Bool) (p : Place) : Bool :=
  match p.head? with
  | none => false
  | some c =>
    if c == '-' then !(p.peek? 1).any Text.isIndent
    else if c == '?' || c == ':' then !flow && !p.isGapAt 1
    else !isGap c && !",[]\x7b\x7d#&*!|>'\"%@\x60".toList.contains c

/-- Reads an anchor or an alias as a token. -/
def namedBy (context : Context) (make : List Char → TokenKind) (p : Place) :
    Except Problem (TokenKind × Place) := do
  let (name, q) ← Tag.readAnchor context p
  return (make name, q)

/-- Reads a quoted scalar as a token. -/
def quoted (quote : Char) (style : ScalarStyle) (p : Place) :
    Except Problem (TokenKind × Place) := do
  let (text, q) ← Scalar.readQuoted quote p
  return (.scalar text style, q)

/-- Reads the token that a character starts. -/
def dispatch (flow : Bool) (p : Place) (c : Char) : Scan Unit :=
  if p.mark.column = 0 ∧ c = '%' then directive
  else if p.isDocumentMark '-' then documentMark .documentStart
  else if p.isDocumentMark '.' then documentMark .documentEnd
  else if c = '[' then openFlow .flowSequenceStart
  else if c = '\x7b' then openFlow .flowMappingStart
  else if c = ']' then closeFlow .flowSequenceEnd
  else if c = '\x7d' then closeFlow .flowMappingEnd
  else if c = ',' then flowEntry
  else if c = '-' ∧ p.isGapAt 1 then blockEntry
  else if c = '?' ∧ (flow ∨ p.isGapAt 1) then key
  else if c = ':' ∧ (flow ∨ p.isGapAt 1) then value
  else if c = '*' then mayBeKey (namedBy .alias .alias)
  else if c = '&' then mayBeKey (namedBy .anchor .anchor)
  else if c = '!' then mayBeKey (Tag.read flow)
  else if c = '|' ∧ ¬ flow then blockScalar false
  else if c = '>' ∧ ¬ flow then blockScalar true
  else if c = '\'' then mayBeKey (quoted c .singleQuoted)
  else if c = '"' then mayBeKey (quoted c .doubleQuoted)
  else if startsPlain flow p then plainScalar
  else failWhile .nextToken p.mark .badTokenStart

/-- Reads the next token, with the ends of the collections that it closes. -/
def next : Scan Unit := do
  toNextToken ((← get).place.rest.length + 1)
  dropStaleKeys
  unrollIndent (← column)
  let p := (← get).place
  match p.head? with
  | none => streamEnd
  | some c => dispatch (← inFlow) p c

end Scan

namespace Scanner

/-- Whether the first token in the queue may still turn out to start a key. -/
def headMayBeKey (s : Scanner) : Bool := s.keys.any (·.any (·.number == s.delivered))

/-- Reads tokens until the text ends or a problem is found. -/
def run : Nat → Scanner → List Token × Option Problem
  | 0, _ => ([], none)
  | fuel + 1, s =>
    let read (s : Scanner) : List Token × Option Problem :=
      match Scan.next s with
      | .error problem => ([], some problem)
      | .ok (_, s) => run fuel s
    match s.queue with
    | [] => if s.ended then ([], none) else read s
    | _ :: _ =>
      match Scan.dropStaleKeys s with
      | .error problem => ([], some problem)
      | .ok (_, s) =>
        if s.headMayBeKey then read s
        else
          match s.queue with
          | [] => ([], none)
          | t :: ts =>
            let (rest, problem) := run fuel { s with queue := ts, delivered := s.delivered + 1 }
            (t :: rest, problem)

end Scanner

/-- The characters that a YAML text may hold. -/
def isAllowed (c : Char) : Bool :=
  c == '\t' || c == '\n' || c == '\r' || (' ' ≤ c && c ≤ '~') || c == '\x85' ||
    ('\xa0' ≤ c && c ≤ '\ufffd') || 0x10000 ≤ c.toNat

/-- The byte offset of the first character that is not allowed. -/
def forbidden? : Nat → List Char → Option Nat
  | _, [] => none
  | offset, c :: s => if isAllowed c then forbidden? (offset + c.utf8Size) s else some offset

/-- The tokens of a text, up to the problem that stopped the reading, if there is one. A byte-order
mark in front is no part of the text. -/
def scan (text : List Char) : List Token × Option Problem :=
  match forbidden? 0 text with
  | some offset => ([], some { cause := .controlCharacter, offset })
  | none =>
    let body := if text.head? = some '\ufeff' then text.drop 1 else text
    -- every character gives four tokens at most
    Scanner.run (8 * body.length + 64) { place := { rest := body } }

end Verbatim.Yaml
