import Verbatim.Literal.Hint
import Verbatim.Number.Binary64

/-!
# Plain scalars

What a YAML scalar without quotes denotes: nothing, a truth value, an integer, a floating-point
number, or the text itself.
-/

namespace Verbatim.Yaml

/-- What a scalar denotes. -/
inductive Plain where
  | null
  | boolean (b : Bool)
  | integer (n : Int)
  | float (x : Binary64)
  | text
  deriving DecidableEq, Repr

namespace Plain

/-- Whether a text stands for nothing. -/
def isNull (s : List Char) : Bool :=
  ["null", "Null", "NULL", "~"].any fun w => s == w.toList

/-- The truth value that a text denotes. -/
def boolean? (s : List Char) : Option Bool :=
  if ["true", "True", "TRUE"].any (fun w => s == w.toList) then some true
  else if ["false", "False", "FALSE"].any (fun w => s == w.toList) then some false
  else none

/-- Whether a text starts with a sign. -/
def isSigned (s : List Char) : Bool := s.head? == some '+' || s.head? == some '-'

/-- The text without one sign in front. -/
def dropSign (s : List Char) : List Char := if isSigned s then s.drop 1 else s

/-- The text without one plus sign in front. -/
def dropPlus : List Char → List Char
  | '+' :: s => s
  | s => s

/-- Whether a text has digits only but starts with a zero that is not its only digit. Such a text is
no number. -/
def isPadded (s : List Char) : Bool :=
  let digits := dropSign s
  1 < digits.length && digits.head? == some '0' && digits.all Char.isDigit

/-- The base that a text announces, and the digits behind the announcement. -/
def announced? : List Char → Option (Nat × List Char)
  | '0' :: 'x' :: s => some (16, s)
  | '0' :: 'o' :: s => some (8, s)
  | '0' :: 'b' :: s => some (2, s)
  | _ => none

/-- The number without a minus sign that a text denotes. -/
def natural? (s : List Char) : Option Nat :=
  let t := dropPlus s
  ((announced? t).bind fun (base, digits) => Hint.natOfDigits? base digits).or
    (if isSigned t ∨ isPadded s then none else Hint.natOfDigits? 10 t)

/-- The number whose minus sign stands in front of a text. -/
def negative? : List Char → Option Nat
  | '-' :: t =>
    ((announced? t).bind fun (base, digits) => Hint.natOfDigits? base digits).or
      (if isPadded ('-' :: t) then none else Hint.natOfDigits? 10 t)
  | _ => none

/-- Half of what 128 bits can tell apart. -/
def halfRange : Nat := 0x80000000000000000000000000000000

/-- The integers that are told from other numbers: those of 128 bits, signed or unsigned. -/
def integer? (s : List Char) : Option Int :=
  ((natural? s).filter (· < 2 * halfRange)).map Int.ofNat |>.or
    (((negative? s).filter (· ≤ halfRange)).map fun n => -(n : Int))

/-- Whether a number is finite. -/
def isFinite : Binary64 → Bool
  | .finite _ _ _ => true
  | _ => false

/-- The floating-point number that a text denotes. A number beyond the range is none. -/
def float? (s : List Char) : Option Binary64 :=
  let t := dropPlus s
  if s.head? = some '+' ∧ isSigned t then none
  else if [".inf", ".Inf", ".INF"].any (fun w => t == w.toList) then some (.infinite false)
  else if ["-.inf", "-.Inf", "-.INF"].any (fun w => s == w.toList) then some (.infinite true)
  else if [".nan", ".NaN", ".NAN"].any (fun w => s == w.toList) then some .nan
  else (Binary64.read? t).filter isFinite

/-- What a scalar without quotes denotes. -/
def ofText (s : List Char) : Plain :=
  if s.isEmpty ∨ isNull s then null
  else
    match boolean? s with
    | some b => boolean b
    | none =>
      match integer? s with
      | some n => integer n
      | none =>
        if isPadded s then text
        else
          match float? s with
          | some x => float x
          | none => text

end Plain

end Verbatim.Yaml
