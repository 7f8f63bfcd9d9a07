import Verbatim.Span

/-!
# Diagnostics

A diagnostic is a failure made ready for a reader: what kind it is, what it says, and where in which
text it points.
-/

namespace Verbatim

/-- What kind of failure a diagnostic reports. -/
inductive FailureKind where
  /-- A text is not in the grammar. -/
  | parse
  /-- A parse tree has not the shape that its rules promise. -/
  | grammar
  /-- A parse tree does not fit the source. -/
  | cursor
  /-- A text cannot be written in its charset. -/
  | encoding
  /-- A file or an options text cannot be read. -/
  | io
  /-- A document does not print as the text it was read from. -/
  | roundTrip
  deriving DecidableEq, Repr

namespace FailureKind

/-- The words in front of the message. -/
def heading : FailureKind → String
  | parse => "Parse error"
  | grammar => "Grammar inconsistency"
  | cursor => "Cursor out of bounds"
  | encoding => "Encoding error"
  | io => "I/O error"
  | roundTrip => "Round-trip mismatch"

/-- The code by which a report names the kind. -/
def code : FailureKind → String
  | parse => "toml_lst::parse"
  | grammar => "toml_lst::grammar"
  | cursor => "toml_lst::cursor"
  | encoding => "toml_lst::encoding"
  | io => "toml_lst::io"
  | roundTrip => "toml_lst::round_trip"

/-- Whether such a failure is a defect of the program and not of its input. -/
def isInternal : FailureKind → Bool
  | grammar | cursor | roundTrip => true
  | parse | encoding | io => false

end FailureKind

/-- A text with the name that reports give it. -/
structure NamedText where
  name : String
  text : String
  deriving DecidableEq, Repr

/-- A piece of a text that a report underlines, with the words beside it. -/
structure Label where
  message : String
  offset : Nat
  length : Nat
  deriving DecidableEq, Repr

/-- A failure made ready for a reader. -/
structure Diagnostic where
  kind : FailureKind
  /-- What went wrong, without the kind. -/
  message : String
  /-- The text that the span points into. -/
  source : Option NamedText := none
  /-- What the failure points at. -/
  span : Option Span := none
  /-- What to do about it. -/
  help : Option String := none
  /-- The failure behind this one, in words. -/
  cause : Option String := none
  deriving DecidableEq, Repr

namespace Diagnostic

/-- The failure in one line: its kind and its message. -/
def display (d : Diagnostic) : String := d.kind.heading ++ ": " ++ d.message

/-- What a report underlines: the span, or one byte where it is empty. A span without a text cannot
be shown. -/
def label? (d : Diagnostic) : Option Label := do
  let _ ← d.source
  let span ← d.span
  return ⟨d.message, span.start, max span.length 1⟩

end Diagnostic

end Verbatim
