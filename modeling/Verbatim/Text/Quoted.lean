import Verbatim.Text.Shapeless

/-!
# Quoted characters and texts

How a message shows a character or a text so that a reader can tell what it is: between quotes, with
a backslash before the quote and the backslash, letters for the common control characters, and the
code point for whatever has no shape.
-/

namespace Verbatim.Text

/-- A number in base 16 with lower-case digits. -/
def hex (n : Nat) : String := String.ofList (Nat.toDigits 16 n)

/-- A character as it stands between the given quotes. -/
def escape (quote c : Char) : String :=
  if c = '\x00' then "\\0"
  else if c = '\t' then "\\t"
  else if c = '\r' then "\\r"
  else if c = '\n' then "\\n"
  else if c = '\\' ∨ c = quote then String.ofList ['\\', c]
  else if isShapeless c then "\\u\x7b" ++ hex c.toNat ++ "\x7d"
  else String.singleton c

/-- A character between single quotes. -/
def quoteChar (c : Char) : String := "'" ++ escape '\'' c ++ "'"

/-- A text between double quotes. -/
def quoteString (s : String) : String := "\"" ++ String.join (s.toList.map (escape '"')) ++ "\""

end Verbatim.Text
