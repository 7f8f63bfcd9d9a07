import Verbatim.Text.Quoted

/-!
# Charsets

Input is UTF-8, with or without a byte-order mark. Bytes that are not valid UTF-8 are read as
ISO-8859-1, where every byte is one character, so that any input can be written back unchanged.
-/

namespace Verbatim.Charset

/-- The name of the charset that is tried first. -/
def utf8 : String := "UTF-8"

/-- The name of the charset that takes any bytes. -/
def latin1 : String := "ISO-8859-1"

/-- The three bytes that may stand in front of UTF-8 text. -/
def mark : List UInt8 := [0xEF, 0xBB, 0xBF]

/-- The character that the mark stands for. -/
def markChar : Char := '\uFEFF'

/-- A text, with what is needed to write the bytes it was read from. -/
structure Decoded where
  /-- The text, without the mark. -/
  text : String
  /-- The name of the charset. -/
  charset : String := utf8
  /-- Whether the mark stood in front. -/
  marked : Bool := false
  deriving DecidableEq, Repr

/-- The character of one byte in ISO-8859-1. -/
def latin1Char (b : UInt8) : Char := Char.ofNat b.toNat

/-- Reads bytes. A mark counts as one only if valid UTF-8 follows it; otherwise its bytes are text
like the others. -/
def decode (bytes : List UInt8) : Decoded :=
  let marked := mark.isPrefixOf bytes
  let body := if marked then bytes.drop mark.length else bytes
  match String.fromUTF8? (ByteArray.mk body.toArray) with
  | some text => { text, marked }
  | none => { text := String.ofList (bytes.map latin1Char), charset := latin1 }

/-- A text that is already decoded. A mark in front of it is taken off and remembered. -/
def ofText (text : String) : Decoded :=
  match text.toList with
  | c :: rest =>
    if c = markChar then { text := String.ofList rest, marked := true } else { text }
  | [] => { text }

/-- Why a text cannot be written in a charset. -/
inductive EncodeError where
  /-- ISO-8859-1 has no such character. -/
  | unencodable (c : Char)
  /-- There is no such charset here. -/
  | unsupported (charset : String)
  deriving DecidableEq, Repr

/-- The error in words. -/
def EncodeError.message : EncodeError → String
  | unencodable c => "character " ++ Text.quoteChar c ++ " has no " ++ latin1 ++ " encoding"
  | unsupported charset => "unsupported charset `" ++ charset ++ "`"

/-- The byte of one character in ISO-8859-1. -/
def latin1Byte (c : Char) : Except EncodeError UInt8 :=
  if c.toNat < 256 then .ok (UInt8.ofNat c.toNat) else .error (.unencodable c)

/-- Writes a text in a charset. ISO-8859-1 has no mark, so the flag counts for UTF-8 only. -/
def encode (text : String) (charset : String) (marked : Bool) : Except EncodeError (List UInt8) :=
  if charset = utf8 then .ok ((if marked then mark else []) ++ text.toUTF8.data.toList)
  else if charset = latin1 then text.toList.mapM latin1Byte
  else .error (.unsupported charset)

end Verbatim.Charset
