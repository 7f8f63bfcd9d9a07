import Verbatim.Literal.Hint
import Verbatim.Yaml.Problem
import Verbatim.Yaml.Token

/-!
# Reading tags, anchors and directives

Each reader starts at the indicator and gives the token and the place behind it. A tag is a handle,
which a directive may expand, and a suffix.
-/

namespace Verbatim.Yaml

namespace Tag

/-- A problem with what starts at a mark. -/
def fail {α : Type} (context : Context) (start : Mark) (cause : Cause) (p : Place) :
    Except Problem α :=
  .error { cause, mark := p.mark, context := some (context, start) }

def readName (p : Place) : List Char × Place := (p.rest.takeWhile isName, p.skipWhile isName)

/-- Reads an anchor or an alias. -/
def readAnchor (context : Context) (p : Place) : Except Problem (List Char × Place) :=
  let (name, q) := readName (p.skip 1)
  if name = [] ∨ ¬ (q.isGapAt 0 ∨ q.startsWith fun c => "?:,]\x7d%@\x60".toList.contains c) then
    fail context p.mark .expectedName q
  else .ok (name, q)

/-- The characters of a tag. Commas and brackets may stand only where the end of the tag is
marked. -/
def isUri (verbatim : Bool) (c : Char) : Bool :=
  isName c || ";/?:@&=+$.%!~*'()".toList.contains c || (verbatim && ",[]".toList.contains c)

/-- The number of octets that a leading octet announces. -/
def octetCount? (octet : Nat) : Option Nat :=
  if octet < 0x80 then some 1
  else if octet < 0xC0 then none
  else if octet < 0xE0 then some 2
  else if octet < 0xF0 then some 3
  else if octet < 0xF8 then some 4
  else none

/-- Reads an escaped octet. -/
def readOctet (context : Context) (start : Mark) (p : Place) : Except Problem (Nat × Place) :=
  match p.rest with
  | '%' :: a :: b :: _ =>
    match Hint.natOfDigits? 16 [a, b] with
    | some octet => .ok (octet, p.skip 3)
    | none => fail context start .badUriEscape p
  | _ => fail context start .badUriEscape p

/-- Reads the octets after the first of an escaped character. -/
def readTrailingOctets (context : Context) (start : Mark) :
    Nat → Place → Except Problem (List Char × Place)
  | 0, p => .ok ([], p)
  | n + 1, p => do
    let (octet, q) ← readOctet context start p
    if octet / 64 ≠ 2 then
      fail context start .badTrailingOctet p
    let (more, r) ← readTrailingOctets context start n q
    return (Char.ofNat octet :: more, r)

/-- Reads an escaped character. Its octets are kept as characters of their own. -/
def readOctets (context : Context) (start : Mark) (p : Place) :
    Except Problem (List Char × Place) := do
  let (octet, q) ← readOctet context start p
  match octetCount? octet with
  | none => fail context start .badLeadingOctet p
  | some n =>
    let (more, r) ← readTrailingOctets context start (n - 1) q
    return (Char.ofNat octet :: more, r)

def readUriChars (context : Context) (verbatim : Bool) (start : Mark) :
    Nat → Place → Except Problem (List Char × Place)
  | 0, p => .ok ([], p)
  | fuel + 1, p =>
    match p.head? with
    | none => .ok ([], p)
    | some c =>
      if !isUri verbatim c then .ok ([], p)
      else do
        let (chars, q) ← if c = '%' then readOctets context start p else .ok ([c], p.skip 1)
        let (more, r) ← readUriChars context verbatim start fuel q
        return (chars ++ more, r)

/-- Reads a part of a tag behind what is read already, and fails if there is nothing at all. A zero
octet ends the part. -/
def readUri (context : Context) (verbatim : Bool) (start : Mark) (before : List Char) (p : Place) :
    Except Problem (List Char × Place) := do
  let (chars, q) ← readUriChars context verbatim start p.rest.length p
  if before = [] ∧ q.mark.index = p.mark.index then
    fail context start .expectedUri q
  return ((before.drop 1 ++ chars).takeWhile (· ≠ '\x00'), q)

/-- Reads a handle: an exclamation mark, a name, and another exclamation mark if there is one. -/
def readHandle (p : Place) : Option (List Char × Place) :=
  if p.isAt '!' then
    let (name, q) := readName (p.skip 1)
    some (if q.isAt '!' then ('!' :: name ++ ['!'], q.skip 1) else ('!' :: name, q))
  else none

/-- Whether a handle has both exclamation marks. -/
def isWholeHandle (handle : List Char) : Bool := 1 < handle.length && handle.getLast? == some '!'

/-- Reads a handle and a suffix. -/
def readParts (start : Mark) (p : Place) : Except Problem (List Char × List Char × Place) := do
  if p.peek? 1 = some '<' then
    let (suffix, q) ← readUri .tagUri true start [] (p.skip 2)
    if !q.isAt '>' then
      fail .tag start .expectedClosingAngle q
    return ([], suffix, q.skip 1)
  let (handle, q) := (readHandle p).getD ([], p)
  if isWholeHandle handle then
    let (suffix, r) ← readUri .tagUri false start [] q
    return (handle, suffix, r)
  else
    let (suffix, r) ← readUri .tagUri false start handle q
    return if suffix = [] then ([], ['!'], r) else (['!'], suffix, r)

def read (inFlow : Bool) (p : Place) : Except Problem (TokenKind × Place) := do
  let (handle, suffix, q) ← readParts p.mark p
  if !((inFlow && q.isAt ',') || q.isGapAt 0) then
    fail .tag p.mark .expectedGap q
  return (.tag handle suffix, q)

def readVersionNumber (start : Mark) (p : Place) : Except Problem (Nat × Place) :=
  let digits := p.rest.takeWhile Char.isDigit
  if digits = [] then fail .versionDirective start .expectedVersionNumber p
  else if 9 < digits.length then fail .versionDirective start .longVersionNumber (p.skip 9)
  else .ok (Binary64.digitsValue 0 digits, p.skip digits.length)

/-- Reads a version number. -/
def readVersion (start : Mark) (p : Place) : Except Problem (TokenKind × Place) := do
  let (major, q) ← readVersionNumber start (p.skipWhile Text.isIndent)
  if !q.isAt '.' then
    fail .versionDirective start .expectedVersionPoint q
  let (minor, r) ← readVersionNumber start (q.skip 1)
  return (.versionDirective major minor, r)

/-- Reads a handle and what it expands to. -/
def readExpansion (start : Mark) (p : Place) : Except Problem (TokenKind × Place) := do
  let p := p.skipWhile Text.isIndent
  match readHandle p with
  | none => fail .tagDirectiveStart start .expectedHandle p
  | some (handle, q) =>
    if 1 < handle.length ∧ ¬ isWholeHandle handle then
      fail .tagDirectiveHandle start .expectedHandle q
    if !q.startsWith Text.isIndent then
      fail .tagDirective start .expectedBlank q
    let (expansion, r) ← readUri .tagDirectiveUri true start [] (q.skipWhile Text.isIndent)
    if !r.isGapAt 0 then
      fail .tagDirective start .expectedGap r
    return (.tagDirective handle expansion, r)

/-- Reads a directive with the rest of its line. The token ends before a comment. -/
def readDirective (p : Place) : Except Problem (TokenKind × Mark × Place) := do
  let start := p.mark
  let (name, q) := readName (p.skip 1)
  if name = [] then
    fail .directive start .emptyDirectiveName q
  if !q.isGapAt 0 then
    fail .directive start .badDirectiveName q
  let (kind, r) ←
    if name = "YAML".toList then readVersion start q
    else if name = "TAG".toList then readExpansion start q
    else fail .directive start .unknownDirective q
  let s := r.skipComment
  if !s.endsLine then
    fail .directive start .expectedLineEnd s
  return (kind, r.mark, s.skipLine)

end Tag

end Verbatim.Yaml
