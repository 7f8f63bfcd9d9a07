import Verbatim.Charset
import Verbatim.Digest.Sha256
import Verbatim.Document.Build
import Verbatim.Document.Print
import Verbatim.Failure
import Verbatim.Options.Basic
import Verbatim.Toml.Parse

/-!
# Reading documents

A text is parsed, the parse tree is built into a document, and on request the document is printed
again and compared with the text. The first failure is the answer; there is no partial document.
-/

namespace Verbatim

/-- A text to read, with what is known about where it comes from. -/
structure Input where
  path : String
  decoded : Charset.Decoded
  attributes : Option FileAttributes := none
  deriving DecidableEq, Repr

namespace Input

/-- The input of the bytes of a file. -/
def ofBytes (path : String) (bytes : List UInt8) : Input := ⟨path, Charset.decode bytes, none⟩

/-- The input of a text that is already decoded. -/
def ofText (path text : String) : Input := ⟨path, Charset.ofText text, none⟩

end Input

namespace Document

/-- The document as bytes in its charset. -/
def toBytes (d : Document) : Except Failure (List UInt8) :=
  (Charset.encode d.print d.charset d.marked).mapError .charset

/-- Fails if the document does not print as a text. -/
def verify (d : Document) (source name : String) : Except Failure Unit :=
  if d.print = source then .ok () else .error (.mismatch name source d.print)

end Document

def Checksum.ofBytes (bytes : List UInt8) : Checksum := ⟨"SHA-256", Sha256.digest bytes⟩

namespace Reader

/-- The parse tree of a named text. -/
def tree (name text : String) : Except Failure (Peg.Tree Toml.Rule) :=
  (Toml.parse text.toList).mapError (.notToml name text)

/-- The checksum of the bytes that a decoded text comes from. -/
def checksum (decoded : Charset.Decoded) : Except Failure Checksum :=
  ((Charset.encode decoded.text decoded.charset decoded.marked).map Checksum.ofBytes).mapError
    .charset

/-- The document of a parse tree that was made from a text. -/
def build (text : String) (origin : Origin) (t : Peg.Tree Toml.Rule) : Except Failure Document :=
  ((Builder.mk text.toList origin {}).build t 1).1.mapError (.build origin.path text)

def read (options : Options) (input : Input) : Except Failure Document := do
  let { text, charset, marked } := input.decoded
  let t ← tree input.path text
  let checksum ←
    if options.computeChecksum then some <$> checksum input.decoded else pure none
  let origin := { path := input.path, charset, marked, checksum, attributes := input.attributes }
  let document ← build text origin t
  if options.verifyRoundTrip then
    document.verify text input.path
  return document

/-- Reads a text that has no file. A byte-order mark is a character like any other. -/
def readString (options : Options) (text : String) : Except Failure Document :=
  read options ⟨"<string>", { text }, none⟩

end Reader

end Verbatim
