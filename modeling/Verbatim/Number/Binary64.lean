/-!
# Binary floating-point numbers of 64 bits

A finite number is an integer below 2^53 times a power of two, held exactly, so that equality is
equality of values and of the sign of zero. `ofDecimal` rounds a decimal number to the nearest of
them, ties to the even one.
-/

namespace Verbatim

/-- A 64-bit floating-point number. All not-a-number patterns are one value. -/
inductive Binary64 where
  | nan
  | infinite (negative : Bool)
  /-- The number `significand * 2 ^ exponent` with a sign. -/
  | finite (negative : Bool) (significand : Nat) (exponent : Int)
  deriving DecidableEq, Repr

namespace Binary64

/-- The least exponent, that of zero and of the numbers close to it. -/
def minExponent : Int := -1074

/-- The greatest exponent. -/
def maxExponent : Int := 971

/-- The least significand of 53 bits. -/
def leastFull : Nat := 0x10000000000000

def signBit : Nat := 0x8000000000000000

/-- The quotient rounded to the nearest integer, ties to the even one. -/
def roundDiv (num den : Nat) : Nat :=
  let q := num / den
  let r := num % den
  if 2 * r < den then q
  else if den < 2 * r then q + 1
  else if q % 2 = 0 then q else q + 1

/-- The exponent with which a positive quotient has a significand of 53 bits, or the least one. -/
def exponentOf (num den : Nat) : Int :=
  let d : Int := (num.log2 : Int) - (den.log2 : Int)
  let large := den * Nat.pow 2 d.toNat ≤ num * Nat.pow 2 (-d).toNat
  max minExponent (if large then d - 52 else d - 53)

/-- The number nearest to a positive quotient. -/
def ofQuotient (negative : Bool) (num den : Nat) : Binary64 :=
  let q := exponentOf num den
  let m := roundDiv (num * Nat.pow 2 (-q).toNat) (den * Nat.pow 2 q.toNat)
  let (m, q) := if m = 2 * leastFull then (leastFull, q + 1) else (m, q)
  if maxExponent < q then infinite negative else finite negative m q

/-- The number nearest to `digits * 10 ^ exponent`. Numbers far outside the range are told by their
size alone. -/
def ofDecimal (negative : Bool) (digits : Nat) (exponent : Int) : Binary64 :=
  if digits = 0 then finite negative 0 minExponent
  else
    let size : Int := (Nat.toDigits 10 digits).length + exponent
    if 400 < size then infinite negative
    else if size < -400 then finite negative 0 minExponent
    else ofQuotient negative (digits * Nat.pow 10 exponent.toNat) (Nat.pow 10 (-exponent).toNat)

/-- The 64 bits of a number. -/
def toBits : Binary64 → Nat
  | nan => 0x7FF8000000000000
  | infinite negative => (if negative then signBit else 0) + 0x7FF0000000000000
  | finite negative m q =>
    (if negative then signBit else 0) +
      (if m < leastFull then m else (q + 1075).toNat * leastFull + (m - leastFull))

/-- The value of decimal digits, read from the left on top of `high`. -/
def digitsValue (high : Nat) (s : List Char) : Nat :=
  s.foldl (fun n c => 10 * n + (c.toNat - '0'.toNat)) high

/-- Splits a text into a sign and what follows it. -/
def splitSign : List Char → Bool × List Char
  | '-' :: s => (true, s)
  | '+' :: s => (false, s)
  | s => (false, s)

/-- Reads the exponent part of a number, zero if there is none. -/
def readExponent? : List Char → Option Int
  | [] => some 0
  | c :: s =>
    let (negative, digits) := splitSign s
    if (c = 'e' ∨ c = 'E') ∧ digits ≠ [] ∧ digits.all Char.isDigit then
      let n : Int := digitsValue 0 digits
      some (if negative then -n else n)
    else none

/-- Reads digits, with a fraction and an exponent that may be missing. -/
def readUnsigned? (negative : Bool) (s : List Char) : Option Binary64 :=
  let whole := s.takeWhile Char.isDigit
  match s.dropWhile Char.isDigit with
  | '.' :: t =>
    let part := t.takeWhile Char.isDigit
    if whole = [] ∧ part = [] then none
    else (readExponent? (t.dropWhile Char.isDigit)).map fun e =>
      ofDecimal negative (digitsValue (digitsValue 0 whole) part) (e - part.length)
  | t =>
    if whole = [] then none
    else (readExponent? t).map fun e => ofDecimal negative (digitsValue 0 whole) e

/-- Reads a number, an infinity (`inf`) or not-a-number (`nan`), each with or without a sign. -/
def read? (s : List Char) : Option Binary64 :=
  let (negative, t) := splitSign s
  if t = "inf".toList then some (infinite negative)
  else if t = "nan".toList then some nan
  else readUnsigned? negative t

end Binary64

end Verbatim
