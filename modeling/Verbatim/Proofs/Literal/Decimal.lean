import Verbatim.Proofs.Literal.Numeral

/-!
# Decimal numbers

Which floating-point number a text denotes (`FloatText`): an infinity, not-a-number, or the number
nearest to a decimal number. A decimal number is digits with a fraction and an exponent that may be
missing (`DecimalText`); the digits of the fraction go on with the digits in front of the point, and
each of them makes the exponent smaller by one. Such a text is read as the number that it denotes
(`FloatText.read?_eq`), and it denotes not-a-number in three spellings only (`FloatText.eq_nan_iff`).
-/

namespace Verbatim

open Hint Binary64

/-- What stands for a sign in front of a number, and whether it is a minus. -/
inductive Sign : List Char → Bool → Prop
  | missing : Sign [] false
  | plus : Sign ['+'] false
  | minus : Sign ['-'] true

/-- An exponent behind its letter. Without one it is zero. -/
inductive Exponent : List Char → Int → Prop
  | missing : Exponent [] 0
  | given {letter : Char} {w s : List Char} {negative : Bool} {ds : List Nat}
      (announced : letter = 'e' ∨ letter = 'E') (sign : Sign w negative) (digits : Digits 10 s ds) :
      Exponent (letter :: (w ++ s)) (if negative then -positional 10 ds else positional 10 ds)

/-- A text without a sign denotes an integer times a power of ten. -/
inductive DecimalText : List Char → Nat → Int → Prop
  | whole {s x : List Char} {ds : List Nat} {e : Int} (digits : Digits 10 s ds)
      (exponent : Exponent x e) : DecimalText (s ++ x) (positional 10 ds) e
  | point {s t x : List Char} {ds ps : List Nat} {e : Int} (digits : Digits 10 s ds)
      (part : Digits 10 t ps) (exponent : Exponent x e) :
      DecimalText (s ++ '.' :: (t ++ x)) (positional 10 (ds ++ ps)) (e - ps.length)

/-- A text denotes a floating-point number. -/
inductive FloatText : List Char → Binary64 → Prop
  | infinite {w : List Char} {negative : Bool} (sign : Sign w negative) :
      FloatText (w ++ "inf".toList) (.infinite negative)
  | nan {w : List Char} {negative : Bool} (sign : Sign w negative) :
      FloatText (w ++ "nan".toList) .nan
  | decimal {w s : List Char} {negative : Bool} {m : Nat} {e : Int} (sign : Sign w negative)
      (decimal : DecimalText s m e) : FloatText (w ++ s) (ofDecimal negative m e)

/-- The spellings of not-a-number. -/
def nanSpellings : List (List Char) := ["nan".toList, "+nan".toList, "-nan".toList]

variable {s t w x : List Char} {c : Char} {ds ps : List Nat} {negative : Bool} {m : Nat} {e : Int}
  {y : Binary64}

theorem dropUnderscores_append (s t : List Char) :
    dropUnderscores (s ++ t) = dropUnderscores s ++ dropUnderscores t :=
  List.filter_append ..

theorem dropUnderscores_cons (other : c ≠ '_') (s : List Char) :
    dropUnderscores (c :: s) = c :: dropUnderscores s :=
  List.filter_cons_of_pos (by simpa using other)

/-! ### Digits -/

namespace Digits

theorem length_eq {base : Nat} (h : Digits base s ds) : (dropUnderscores s).length = ds.length := by
  simpa [dropUnderscores] using congrArg List.length h.spelled

theorem isDigit (h : Digits 10 s ds) (member : c ∈ dropUnderscores s) : c.isDigit = true := by
  have lower : c.toLower ∈ ds.map Nat.digitChar := h.spelled ▸ List.mem_map_of_mem member
  obtain ⟨d, digit, same⟩ := List.mem_map.mp lower
  have small : d < 10 := h.small d digit
  have digits : ∀ d < 10, d.digitChar.toNat < 128 := by decide
  have ascii : c.toNat < 128 := ascii_of_toLower (same ▸ digits d small)
  exact forall_ascii (P := fun c => ∀ d < 10, d.digitChar = c.toLower → c.isDigit = true)
    (by decide +kernel) ascii d small same

/-- There is a digit in front. -/
theorem exists_cons (h : Digits 10 s ds) :
    ∃ c rest, dropUnderscores s = c :: rest ∧ c.isDigit = true := by
  obtain ⟨c, rest, front⟩ := List.exists_cons_of_ne_nil h.ne_nil
  exact ⟨c, rest, front, h.isDigit (front ▸ List.mem_cons_self ..)⟩

/-- What stands behind digits is found behind them. -/
theorem takeWhile_append (h : Digits 10 s ds) (stops : ∀ c, x.head? = some c → c.isDigit = false) :
    (dropUnderscores s ++ x).takeWhile Char.isDigit = dropUnderscores s := by
  have nothing : x.takeWhile Char.isDigit = [] := by
    cases x with
    | nil => rfl
    | cons c rest => exact List.takeWhile_cons_of_neg (by simp [stops c rfl])
  rw [List.takeWhile_append_of_pos fun _ => h.isDigit, nothing, List.append_nil]

theorem dropWhile_append (h : Digits 10 s ds) (stops : ∀ c, x.head? = some c → c.isDigit = false) :
    (dropUnderscores s ++ x).dropWhile Char.isDigit = x := by
  have all : x.dropWhile Char.isDigit = x := by
    cases x with
    | nil => rfl
    | cons c rest => exact List.dropWhile_cons_of_neg (by simp [stops c rfl])
  rw [List.dropWhile_append_of_pos fun _ => h.isDigit, all]

end Digits

theorem digitValue?_of_isDigit (digit : c.isDigit = true) :
    digitValue? 10 c = some (c.toNat - '0'.toNat) := by
  have range : 48 ≤ c.toNat ∧ c.toNat ≤ 57 := by
    simpa [Char.isDigit, UInt32.le_iff_toNat_le] using digit
  rw [digitValue?, if_pos digit, Option.filter_some, if_pos]
  simp only [decide_eq_true_eq]
  have zero : '0'.toNat = 48 := rfl
  omega

/-- Digits that are known to be such are read without a check. -/
theorem foldl_of_isDigit (digits : ∀ c ∈ s, c.isDigit = true) (high : Nat) :
    s.foldl (fun n? c => n?.bind fun n => (digitValue? 10 c).map (10 * n + ·)) (some high) =
      some (digitsValue high s) := by
  induction s generalizing high with
  | nil => rfl
  | cons c s ih =>
    have first := digitValue?_of_isDigit (digits c (List.mem_cons_self ..))
    rw [List.foldl_cons, Option.bind_some, first, Option.map_some,
      ih fun d member => digits d (List.mem_cons_of_mem _ member)]
    rfl

namespace Digits

theorem digitsValue_eq (h : Digits 10 s ds) (high : Nat) :
    digitsValue high (dropUnderscores s) = Nat.ofDigits 10 (ds.reverse ++ [high]) :=
  Option.some.inj <| (foldl_of_isDigit (fun _ => h.isDigit) high).symm.trans
    (foldl_digitValue? (by decide) h.small h.spelled high)

theorem digitsValue_zero (h : Digits 10 s ds) :
    digitsValue 0 (dropUnderscores s) = positional 10 ds := by
  rw [h.digitsValue_eq, Nat.ofDigits_append_zero, positional]

/-- The digits of a fraction go on with the digits in front of it. -/
theorem digitsValue_part (h : Digits 10 s ds) (part : Digits 10 t ps) :
    digitsValue (digitsValue 0 (dropUnderscores s)) (dropUnderscores t) =
      positional 10 (ds ++ ps) := by
  rw [h.digitsValue_zero, part.digitsValue_eq, positional, positional, List.reverse_append,
    Nat.ofDigits_append, Nat.ofDigits_append, Nat.ofDigits_singleton]

end Digits

/-! ### Signs and exponents -/

namespace Sign

theorem dropUnderscores_eq (h : Sign w negative) : dropUnderscores w = w := by
  cases h <;> rfl

/-- A sign is split off what has none itself. -/
theorem splitSign_append (h : Sign w negative) (plain : ∀ c, s.head? = some c → c ≠ '+' ∧ c ≠ '-') :
    splitSign (w ++ s) = (negative, s) := by
  cases h with
  | plus | minus => rfl
  | missing =>
    rw [List.nil_append]
    unfold splitSign
    split
    · exact absurd rfl (plain _ rfl).2
    · exact absurd rfl (plain _ rfl).1
    · rfl

theorem splitSign_digit (h : Sign w negative) (digit : c.isDigit = true) (s : List Char) :
    splitSign (w ++ c :: s) = (negative, c :: s) := by
  refine h.splitSign_append fun d front => ?_
  obtain rfl : c = d := Option.some.inj front
  constructor <;> rintro rfl <;> cases digit

end Sign

namespace Exponent

/-- An exponent is read as the integer that it denotes. -/
theorem read?_eq (h : Exponent x e) : readExponent? (dropUnderscores x) = some e := by
  cases h with
  | missing => rfl
  | @given letter w s negative ds announced sign digits =>
    have letters : letter ≠ '_' := by rcases announced with rfl | rfl <;> decide
    obtain ⟨c, rest, front, digit⟩ := digits.exists_cons
    have split : splitSign (w ++ dropUnderscores s) = (negative, dropUnderscores s) := by
      rw [front]
      exact sign.splitSign_digit digit rest
    have all : (dropUnderscores s).all Char.isDigit = true :=
      List.all_eq_true.mpr fun _ => digits.isDigit
    rw [dropUnderscores_cons letters, dropUnderscores_append, sign.dropUnderscores_eq, readExponent?]
    simp only [split]
    rw [if_pos ⟨announced, digits.ne_nil, all⟩, digits.digitsValue_zero]

/-- An exponent goes on with nothing in front of it. -/
theorem stops (h : Exponent x e) (front : (dropUnderscores x).head? = some c) :
    c.isDigit = false ∧ c ≠ '.' := by
  cases h with
  | missing => cases front
  | given announced =>
    rcases announced with rfl | rfl
    all_goals
      rw [dropUnderscores_cons (by decide)] at front
      obtain rfl := Option.some.inj front
      decide

end Exponent

/-! ### Numbers -/

namespace DecimalText

/-- A decimal number is rounded to the nearest floating-point number. -/
theorem read?_eq (h : DecimalText s m e) (negative : Bool) :
    readUnsigned? negative (dropUnderscores s) = some (ofDecimal negative m e) := by
  cases h with
  | @whole s x ds e digits exponent =>
    have stops := fun c front => (exponent.stops (c := c) front).1
    rw [dropUnderscores_append, readUnsigned?]
    simp only [digits.takeWhile_append stops, digits.dropWhile_append stops]
    split
    · rename_i t point
      exact absurd rfl (exponent.stops (c := '.') (by rw [point]; rfl)).2
    · rw [if_neg digits.ne_nil, exponent.read?_eq, Option.map_some, digits.digitsValue_zero]
  | @point s t x ds ps e digits part exponent =>
    have point : ∀ c, ('.' :: (dropUnderscores t ++ dropUnderscores x)).head? = some c →
        c.isDigit = false := by
      intro c front
      obtain rfl : '.' = c := Option.some.inj front
      rfl
    have stops := fun c front => (exponent.stops (c := c) front).1
    rw [dropUnderscores_append, dropUnderscores_cons (by decide), dropUnderscores_append,
      readUnsigned?]
    simp only [digits.takeWhile_append point, digits.dropWhile_append point,
      part.takeWhile_append stops, part.dropWhile_append stops]
    rw [if_neg fun nothing => digits.ne_nil nothing.1, exponent.read?_eq, Option.map_some,
      digits.digitsValue_part part, part.length_eq]

/-- A decimal number starts with a digit. -/
theorem exists_cons (h : DecimalText s m e) :
    ∃ c rest, dropUnderscores s = c :: rest ∧ c.isDigit = true := by
  cases h with
  | whole digits | point digits =>
    obtain ⟨c, rest, front, digit⟩ := digits.exists_cons
    exact ⟨c, _, by rw [dropUnderscores_append, front, List.cons_append], digit⟩

end DecimalText

theorem ofDecimal_ne_nan (negative : Bool) (m : Nat) (e : Int) :
    ofDecimal negative m e ≠ .nan := by
  unfold ofDecimal ofQuotient
  simp only
  split_ifs <;> simp

namespace FloatText

/-- A text is read as the floating-point number that it denotes. -/
theorem read?_eq (h : FloatText w y) : read? (dropUnderscores w) = some y := by
  cases h with
  | infinite sign | nan sign => cases sign <;> decide
  | @decimal w s negative m e sign decimal =>
    obtain ⟨c, rest, front, digit⟩ := decimal.exists_cons
    have split : splitSign (w ++ dropUnderscores s) = (negative, dropUnderscores s) := by
      rw [front]
      exact sign.splitSign_digit digit rest
    have inf : dropUnderscores s ≠ "inf".toList := by
      rw [front]
      rintro ⟨⟩
      cases digit
    have nan : dropUnderscores s ≠ "nan".toList := by
      rw [front]
      rintro ⟨⟩
      cases digit
    rw [dropUnderscores_append, sign.dropUnderscores_eq, read?]
    simp only [split]
    rw [if_neg inf, if_neg nan, decimal.read?_eq]

/-- The hint for a text is the floating-point number that it denotes. -/
theorem ofFloat?_eq (h : FloatText w y) : Hint.ofFloat? w = some (.float y) := by
  rw [Hint.ofFloat?, h.read?_eq, Option.map_some]

/-- A text denotes not-a-number in three spellings only. -/
theorem eq_nan_iff (h : FloatText w y) : y = .nan ↔ w ∈ nanSpellings := by
  constructor
  · rintro rfl
    generalize same : Binary64.nan = y at h
    cases h with
    | infinite => cases same
    | nan sign => cases sign <;> decide
    | decimal => exact absurd same.symm (ofDecimal_ne_nan _ _ _)
  · intro spelling
    have reads : ∀ t ∈ nanSpellings, read? (dropUnderscores t) = some .nan := by decide
    exact Option.some.inj (h.read?_eq.symm.trans (reads w spelling))

end FloatText

/-- The digits of a fraction make the exponent smaller. -/
example : Hint.ofFloat? "-1.2_5e+0_2".toList = some (.float (ofDecimal true 125 0)) := by
  decide

end Verbatim
