import Verbatim.Number.Binary64
import Verbatim.Text.Offset

/-!
# Hints

A hint says what a literal denotes, as far as that is simple to say. It stands beside the verbatim
text and does not replace it: escapes in strings are left alone, and an integer that does not fit 64
bits has no hint.
-/

namespace Verbatim

/-- How a string is written. -/
inductive StringStyle where
  | basic | multiLineBasic | literal | multiLineLiteral
  deriving DecidableEq, Repr

def StringStyle.name : StringStyle → String
  | basic => "Basic"
  | multiLineBasic => "MultiLineBasic"
  | literal => "Literal"
  | multiLineLiteral => "MultiLineLiteral"

/-- The quotes on either side of a string. -/
def StringStyle.delimiter : StringStyle → List Char
  | basic => ['"']
  | multiLineBasic => ['"', '"', '"']
  | literal => ['\'']
  | multiLineLiteral => ['\'', '\'', '\'']

/-- Which parts of a date-time are given. -/
inductive DateTimeKind where
  | offsetDateTime | localDateTime | localDate | localTime
  deriving DecidableEq, Repr

def DateTimeKind.name : DateTimeKind → String
  | offsetDateTime => "OffsetDateTime"
  | localDateTime => "LocalDateTime"
  | localDate => "LocalDate"
  | localTime => "LocalTime"

/-- What a literal denotes. -/
inductive Hint where
  /-- The text between the delimiters, escapes untouched. -/
  | string (style : StringStyle) (content : String)
  | integer (n : Int)
  | float (x : Binary64)
  | boolean (b : Bool)
  | dateTime (kind : DateTimeKind) (text : String)
  deriving DecidableEq, Repr

namespace Hint

/-- The text between the delimiters of a style, cut out at byte offsets. -/
def ofString? (style : StringStyle) (s : List Char) : Option Hint :=
  let n := Text.byteLength style.delimiter
  let total := Text.byteLength s
  if n ≤ total then
    (Text.slice? s n (total - n)).map fun content => string style (String.ofList content)
  else none

/-- The value of a digit in bases up to sixteen. -/
def digitValue? (base : Nat) (c : Char) : Option Nat :=
  let value? :=
    if c.isDigit then some (c.toNat - '0'.toNat)
    else if 'a' ≤ c ∧ c ≤ 'f' then some (c.toNat - 'a'.toNat + 10)
    else if 'A' ≤ c ∧ c ≤ 'F' then some (c.toNat - 'A'.toNat + 10)
    else none
  value?.filter (· < base)

/-- The number that digits denote, the most significant first. -/
def natOfDigits? (base : Nat) (s : List Char) : Option Nat :=
  if s.isEmpty then none
  else s.foldl (fun n? c => n?.bind fun n => (digitValue? base c).map (base * n + ·)) (some 0)

/-- The number that digits with or without a sign denote. -/
def intOfDigits? (base : Nat) (s : List Char) : Option Int :=
  let (negative, digits) := Binary64.splitSign s
  (natOfDigits? base digits).map fun n => if negative then -(n : Int) else n

/-- The base that a text announces, and the digits behind the announcement. -/
def splitBase : List Char → Nat × List Char
  | '0' :: 'x' :: s => (16, s)
  | '0' :: 'o' :: s => (8, s)
  | '0' :: 'b' :: s => (2, s)
  | s => (10, s)

/-- Drops the underscores between digits. -/
def dropUnderscores (s : List Char) : List Char := s.filter (· ≠ '_')

/-- The least number that is too large for a signed word of 64 bits. -/
def wordEnd : Int := 9223372036854775808

/-- Whether a number fits a signed word of 64 bits. -/
def FitsWord (n : Int) : Prop := -wordEnd ≤ n ∧ n < wordEnd

instance (n : Int) : Decidable (FitsWord n) :=
  inferInstanceAs (Decidable (-wordEnd ≤ n ∧ n < wordEnd))

/-- The integer that a text denotes, if it fits 64 bits. -/
def ofInteger? (s : List Char) : Option Hint :=
  let (base, digits) := splitBase (dropUnderscores s)
  ((intOfDigits? base digits).filter fun n => FitsWord n).map integer

/-- The floating-point number that a text denotes. -/
def ofFloat? (s : List Char) : Option Hint := (Binary64.read? (dropUnderscores s)).map float

/-- The truth value that a text denotes. -/
def ofBoolean? (s : List Char) : Option Hint :=
  if s = "true".toList then some (boolean true)
  else if s = "false".toList then some (boolean false)
  else none

end Hint

end Verbatim
