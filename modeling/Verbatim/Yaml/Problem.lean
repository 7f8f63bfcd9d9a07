import Verbatim.Yaml.Place

/-!
# What can be wrong with a YAML text

A problem has a cause, the place where it was noticed, and often what was being read, from its
start.
-/

namespace Verbatim.Yaml

/-- What was being read. -/
inductive Context where
  | nextToken | simpleKey
  | directive | versionDirective | tagDirective | tagDirectiveStart | tagDirectiveHandle
  | tagDirectiveUri
  | anchor | alias | tag | tagUri
  | blockScalar | quotedScalar | quotedText | plainScalar
  | node | blockNode | flowNode | blockCollection | blockMapping | flowSequence | flowMapping
  deriving DecidableEq, Repr

/-- What was being read, in words. -/
def Context.message : Context → String
  | nextToken => "while scanning for the next token"
  | simpleKey => "while scanning a simple key"
  | directive => "while scanning a directive"
  | versionDirective => "while scanning a %YAML directive"
  | tagDirective => "while scanning a %TAG directive"
  | tagDirectiveStart => "while scanning a tag directive"
  | tagDirectiveHandle => "while parsing a tag directive"
  | tagDirectiveUri => "while parsing a %TAG directive"
  | anchor => "while scanning an anchor"
  | .alias => "while scanning an alias"
  | tag => "while scanning a tag"
  | tagUri => "while parsing a tag"
  | blockScalar => "while scanning a block scalar"
  | quotedScalar => "while scanning a quoted scalar"
  | quotedText => "while parsing a quoted scalar"
  | plainScalar => "while scanning a plain scalar"
  | node => "while parsing a node"
  | blockNode => "while parsing a block node"
  | flowNode => "while parsing a flow node"
  | blockCollection => "while parsing a block collection"
  | blockMapping => "while parsing a block mapping"
  | flowSequence => "while parsing a flow sequence"
  | flowMapping => "while parsing a flow mapping"

/-- What is wrong. -/
inductive Cause where
  | controlCharacter
  | badTokenStart | expectedColon
  | entryNotAllowed | keyNotAllowed | valueNotAllowed
  | emptyDirectiveName | badDirectiveName | unknownDirective | expectedLineEnd
  | expectedVersionNumber | longVersionNumber | expectedVersionPoint
  | expectedHandle | expectedBlank | expectedGap | expectedUri | expectedClosingAngle
  | badUriEscape | badLeadingOctet | badTrailingOctet
  | expectedName
  | zeroIndentation | tabIndentation
  | unexpectedDocumentMark | unexpectedEnd | unknownEscape | expectedHex | badCodePoint
  | unexpectedColon | tabViolation
  | expectedDocumentStart | duplicateVersion | incompatibleVersion | duplicateTagDirective
  | undefinedHandle | expectedContent | expectedDash | expectedKey
  | expectedCommaOrBracket | expectedCommaOrBrace
  deriving DecidableEq, Repr

/-- What is wrong, in words. -/
def Cause.message : Cause → String
  | controlCharacter => "control characters are not allowed"
  | badTokenStart => "found character that cannot start any token"
  | expectedColon => "could not find expected ':'"
  | entryNotAllowed => "block sequence entries are not allowed in this context"
  | keyNotAllowed => "mapping keys are not allowed in this context"
  | valueNotAllowed => "mapping values are not allowed in this context"
  | emptyDirectiveName => "could not find expected directive name"
  | badDirectiveName => "found unexpected non-alphabetical character"
  | unknownDirective => "found unknown directive name"
  | expectedLineEnd => "did not find expected comment or line break"
  | expectedVersionNumber => "did not find expected version number"
  | longVersionNumber => "found extremely long version number"
  | expectedVersionPoint => "did not find expected digit or '.' character"
  | expectedHandle => "did not find expected '!'"
  | expectedBlank => "did not find expected whitespace"
  | expectedGap => "did not find expected whitespace or line break"
  | expectedUri => "did not find expected tag URI"
  | expectedClosingAngle => "did not find the expected '>'"
  | badUriEscape => "did not find URI escaped octet"
  | badLeadingOctet => "found an incorrect leading UTF-8 octet"
  | badTrailingOctet => "found an incorrect trailing UTF-8 octet"
  | expectedName => "did not find expected alphabetic or numeric character"
  | zeroIndentation => "found an indentation indicator equal to 0"
  | tabIndentation => "found a tab character where an indentation space is expected"
  | unexpectedDocumentMark => "found unexpected document indicator"
  | unexpectedEnd => "found unexpected end of stream"
  | unknownEscape => "found unknown escape character"
  | expectedHex => "did not find expected hexdecimal number"
  | badCodePoint => "found invalid Unicode character escape code"
  | unexpectedColon => "found unexpected ':'"
  | tabViolation => "found a tab character that violates indentation"
  | expectedDocumentStart => "did not find expected <document start>"
  | duplicateVersion => "found duplicate %YAML directive"
  | incompatibleVersion => "found incompatible YAML document"
  | duplicateTagDirective => "found duplicate %TAG directive"
  | undefinedHandle => "found undefined tag handle"
  | expectedContent => "did not find expected node content"
  | expectedDash => "did not find expected '-' indicator"
  | expectedKey => "did not find expected key"
  | expectedCommaOrBracket => "did not find expected ',' or ']'"
  | expectedCommaOrBrace => "did not find expected ',' or '\x7d'"

/-- What is wrong with a text, and where. -/
structure Problem where
  cause : Cause
  /-- Where it was noticed. -/
  mark : Mark := {}
  /-- What was being read, and where that starts. -/
  context : Option (Context × Mark) := none
  /-- The byte offset, where there is no mark. -/
  offset : Nat := 0
  deriving DecidableEq, Repr

/-- A place in words, unless it is the start of the text. -/
def Mark.suffix (m : Mark) : String := if m.isStart then "" else " at " ++ m.show

/-- Where a problem was noticed, in words. -/
def Problem.location (p : Problem) : String :=
  if p.mark.isStart ∧ p.offset ≠ 0 then " at position " ++ toString p.offset else p.mark.suffix

/-- A problem in words. The start of what was being read is given only if it lies elsewhere. -/
def Problem.message (p : Problem) : String :=
  p.cause.message ++ p.location ++
    match p.context with
    | none => ""
    | some (context, start) =>
      let elsewhere := start.line ≠ p.mark.line ∨ start.column ≠ p.mark.column
      ", " ++ context.message ++ (if elsewhere then start.suffix else "")

end Verbatim.Yaml
