import Verbatim.Charset
import Verbatim.Diagnostic
import Verbatim.Document.Cursor
import Verbatim.Options.Fault
import Verbatim.Toml.Parse

/-!
# Failures

Everything that can go wrong between the bytes of a file and its document, by its cause. The words
are chosen in `Failure.diagnostic`.
-/

namespace Verbatim

namespace Text

/-- The characters of a text, each with the offset where it starts. -/
def charOffsets (start : Nat) : List Char → List (Nat × Char)
  | [] => []
  | c :: s => (start, c) :: charOffsets (start + c.utf8Size) s

/-- The offset of the first character of a text that is not the character in the same place of
another text, if there is one. -/
def difference? (start : Nat) (s t : List Char) : Option Nat :=
  (((charOffsets start s).zip t).find? fun ((_, c), d) => c ≠ d).map (·.1.1)

/-- The number of bytes up to where two texts differ, or up to the end of the shorter one if they do
not. -/
def agreement (s t : List Char) : Nat :=
  (difference? 0 s t).getD (min (byteLength s) (byteLength t))

end Text

/-- Why there is no document. -/
inductive Failure where
  /-- A text is not in the grammar. -/
  | notToml (name text : String) (error : Toml.SyntaxError)
  /-- A parse tree does not fit the text it is said to come from. -/
  | build (name text : String) (fault : BuildFault)
  /-- A text cannot be written in its charset. -/
  | charset (error : Charset.EncodeError)
  /-- A document does not print as its text. -/
  | mismatch (name text printed : String)
  /-- A file cannot be read. -/
  | unreadable (path reason : String)
  /-- A file of options cannot be read. -/
  | unreadableOptions (path reason : String)
  /-- An options text does not give options. -/
  | badOptions (fault : Options.Fault)
  /-- A directory cannot be listed. -/
  | unlistable (root reason : String)
  deriving DecidableEq, Repr

namespace BuildFault

def kind : BuildFault → FailureKind
  | gap _ _ | insideCharacter _ | outside _ => .cursor
  | alternatives _ _ _ _ | missing _ _ _ => .grammar

/-- The fault in words. -/
def message : BuildFault → String
  | gap cursor start =>
    "cannot take space between offsets " ++ toString cursor ++ " and " ++ toString start
  | insideCharacter stop => "stop offset " ++ toString stop ++ " is not on a character boundary"
  | outside cursor => "cursor " ++ toString cursor ++ " is outside the source"
  | alternatives rule _ matched expected =>
    "rule `" ++ rule.name ++ "` matched " ++ toString matched ++ " alternatives, expected " ++
      expected
  | missing rule _ slot => "`" ++ rule.name ++ "` is missing its " ++ slot ++ " slot"

/-- What a fault points at in a source of the given length. Offsets that do not belong to the source
are moved back to its end. -/
def span (length : Nat) : BuildFault → Span
  | gap cursor start => (Span.mk cursor start).clamp length
  | insideCharacter stop => (Span.point stop).clamp length
  | outside cursor => (Span.point cursor).clamp length
  | alternatives _ span _ _ => span
  | missing _ span _ => span

/-- The advice given for a fault. -/
def help? : BuildFault → Option String
  | alternatives _ _ _ _ =>
    some "the grammar and the tree builder disagree about this rule's shape"
  | _ => none

/-- The fault behind a fault. -/
def cause? : BuildFault → Option String
  | fault@(alternatives _ _ _ _) => some fault.message
  | _ => none

end BuildFault

namespace Failure

/-- The words for a file that cannot be read. -/
def ofReason (about reason : String) : Diagnostic :=
  { kind := .io, message := about ++ ": " ++ reason, cause := some reason }

/-- The failure made ready for a reader. -/
def diagnostic : Failure → Diagnostic
  | notToml name text error =>
    { kind := .parse
      message := error.message
      source := some ⟨name, text⟩
      span := some (.point error.offset)
      help := error.help? text.toList
      cause := some (error.excerpt text.toList) }
  | build name text fault =>
    { kind := fault.kind
      message := fault.message
      source := some ⟨name, text⟩
      span := some (fault.span text.utf8ByteSize)
      help := fault.help?
      cause := fault.cause? }
  | charset error => { kind := .encoding, message := error.message }
  | mismatch name text printed =>
    let offset := Text.agreement printed.toList text.toList
    { kind := .roundTrip
      message :=
        "printed document differs from the input at byte " ++ toString offset ++ " (" ++
          toString printed.utf8ByteSize ++ " bytes printed, " ++ toString text.utf8ByteSize ++
          " read)"
      source := some ⟨name, text⟩
      span := some (.point offset)
      help := some "the tree lost or duplicated source text here" }
  | unreadable path reason => ofReason ("cannot read " ++ path) reason
  | unreadableOptions path reason => ofReason ("cannot read options file " ++ path) reason
  | badOptions fault => ofReason "invalid parser options" fault.message
  | unlistable root reason => ofReason ("cannot walk " ++ root) reason

end Failure

end Verbatim
