import Verbatim.Number.Binary64

/-!
# Shortest decimal numbers

A finite number stands for all reals that round to it. `Binary64.shortest` finds the decimal of the
fewest digits among them, and of several the one nearest to the number itself. All arithmetic is
exact.
-/

namespace Verbatim

/-- The decimal number `digits * 10 ^ exponent`. -/
structure Decimal where
  digits : Nat
  exponent : Int
  deriving DecidableEq, Repr

/-- Which of two equally near decimals is taken. -/
inductive Tie where
  /-- The one whose last digit is even. -/
  | toEven
  /-- The larger one. -/
  | up
  deriving DecidableEq, Repr

namespace Binary64

/-- Compares `a * 10 ^ i` with `n * 2 ^ j`. -/
def compareScaled (a : Nat) (i : Int) (n : Nat) (j : Int) : Ordering :=
  compare (a * Nat.pow 10 i.toNat * Nat.pow 2 (-j).toNat)
    (n * Nat.pow 2 j.toNat * Nat.pow 10 (-i).toNat)

/-- Whether a decimal is one of the reals that round to `m * 2 ^ q`. They reach halfway to the
neighbours, ends included if `m` is even, and the neighbour below a power of two is only half as far
away. -/
def readsBack (m : Nat) (q : Int) (d : Decimal) : Bool :=
  let narrow := m == leastFull && minExponent < q
  let low := compareScaled d.digits d.exponent (if narrow then 4 * m - 1 else 4 * m - 2) (q - 2)
  let high := compareScaled d.digits d.exponent (4 * m + 2) (q - 2)
  let ends := m % 2 == 0
  (low == .gt || (ends && low == .eq)) && (high == .lt || (ends && high == .eq))

/-- The largest multiple of `10 ^ e` that is at most `m * 2 ^ q`, counted in that power. -/
def floorOn (m : Nat) (q e : Int) : Nat :=
  (m * Nat.pow 2 q.toNat * Nat.pow 10 (-e).toNat) / (Nat.pow 2 (-q).toNat * Nat.pow 10 e.toNat)

/-- The better of the two neighbours of `m * 2 ^ q` among the multiples of `10 ^ e`, if one of them
rounds to it. -/
def nearestOn? (tie : Tie) (m : Nat) (q e : Int) : Option Decimal :=
  let below : Decimal := ⟨floorOn m q e, e⟩
  let above : Decimal := ⟨below.digits + 1, e⟩
  match readsBack m q below, readsBack m q above with
  | false, false => none
  | true, false => some below
  | false, true => some above
  | true, true =>
    -- twice the number against the sum of the two
    match compareScaled (2 * below.digits + 1) e m (q + 1) with
    | .gt => some below
    | .lt => some above
    | .eq =>
      match tie with
      | .up => some above
      | .toEven => some (if below.digits % 2 = 0 then below else above)

/-- Searches the powers of ten from `10 ^ e` downward. -/
def searchFrom (tie : Tie) (m : Nat) (q : Int) : Nat → Int → Option Decimal
  | 0, _ => none
  | fuel + 1, e => (nearestOn? tie m q e).or (searchFrom tie m q fuel (e - 1))

/-- An exponent whose power of ten is above `m * 2 ^ q`, by two at most. -/
def decimalScale (m : Nat) (q : Int) : Int := ((m.log2 : Int) + q + 1) * 30103 / 100000 + 1

/-- The shortest decimal that reads back as `m * 2 ^ q`. Seventeen digits always do. -/
def shortest (tie : Tie) (m : Nat) (q : Int) : Decimal :=
  if m = 0 then ⟨0, 0⟩ else (searchFrom tie m q 22 (decimalScale m q)).getD ⟨m, q⟩

/-- A sign, if the number is negative. -/
def signText (negative : Bool) : List Char := if negative then ['-'] else []

/-- The digits of a number in base ten. -/
def digitsText (n : Nat) : List Char := Nat.toDigits 10 n

/-- The digits with the decimal point before the place `point`, counted from the first digit, and
zeros where digits are missing. A number without a fraction has no point. -/
def pointed (digits : List Char) (point : Int) : List Char :=
  if point ≤ 0 then '0' :: '.' :: List.replicate (-point).toNat '0' ++ digits
  else if point < digits.length then
    digits.take point.toNat ++ '.' :: digits.drop point.toNat
  else digits ++ List.replicate (point.toNat - digits.length) '0'

/-- A text with a fraction of zero where it has none. -/
def withFraction (s : List Char) : List Char := if s.contains '.' then s else s ++ ['.', '0']

/-- The digits with one of them before the point, and the power of ten behind. -/
def scientific (digits : List Char) (point : Int) : List Char :=
  let mantissa := digits.take 1 ++ (if digits.length = 1 then [] else '.' :: digits.drop 1)
  let e := point - 1
  mantissa ++ 'e' :: signText (e < 0) ++ digitsText e.natAbs

/-- A finite number as text that is always read as a floating-point number: positional from `1e-5`
up to sixteen digits, with a power of ten beyond. -/
def compactText (negative : Bool) (m : Nat) (q : Int) : List Char :=
  if m = 0 then signText negative ++ ['0', '.', '0']
  else
    let d := shortest .toEven m q
    let digits := digitsText d.digits
    let point := digits.length + d.exponent
    signText negative ++
      (if -5 < point ∧ point ≤ 16 then withFraction (pointed digits point)
        else scientific digits point)

/-- A finite number as text without a power of ten. -/
def positionalText (negative : Bool) (m : Nat) (q : Int) : List Char :=
  if m = 0 then signText negative ++ ['0', '.', '0']
  else
    let d := shortest .up m q
    let digits := digitsText d.digits
    signText negative ++ withFraction (pointed digits (digits.length + d.exponent))

end Binary64

end Verbatim
