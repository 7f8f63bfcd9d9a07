import Verbatim.Dump.Json
import Verbatim.Proofs.Dump.Reading

/-!
# Numbers in a dump are numbers in JSON

A number is written without leading zeros, with digits on both sides of a decimal point, and with
digits in its power of ten. For that the shortest decimal of a number other than zero has to be
other than zero, which it is because it reads back as the number (`shortest_pos`).
-/

namespace Verbatim.Json

open Binary64

variable {s w fraction power : List Char} {v : Value}

theorem word?_of_isNumber (number : isNumber s = true) :
    word? s = some (.number (String.ofList s)) := by
  rw [word?, if_pos number]

/-! ### Parts of a number -/

theorem isDigits_iff : isDigits s = true ↔ s ≠ [] ∧ ∀ c ∈ s, c.isDigit = true := by
  simp [isDigits]

theorem isDigits_append {t : List Char} (front : isDigits s = true)
    (back : ∀ c ∈ t, c.isDigit = true) : isDigits (s ++ t) = true := by
  rw [isDigits_iff] at front ⊢
  refine ⟨by simp [front.1], fun c member => ?_⟩
  obtain member | member := List.mem_append.mp member
  · exact front.2 c member
  · exact back c member

/-- Some of the digits. -/
theorem isDigits_of_subset {t : List Char} (digits : isDigits s = true) (part : t ⊆ s)
    (some_digits : t ≠ []) : isDigits t = true :=
  isDigits_iff.mpr ⟨some_digits, fun c member => (isDigits_iff.mp digits).2 c (part member)⟩

theorem isDigit_of_mem_zeros {k : Nat} {c : Char} (member : c ∈ List.replicate k '0') :
    c.isDigit = true := by
  rw [List.eq_of_mem_replicate member]
  rfl

/-- Digits with more zeros in front. -/
theorem isDigits_zeros_append (k : Nat) (digits : isDigits s = true) :
    isDigits (List.replicate k '0' ++ s) = true := by
  obtain ⟨some_digits, all_digits⟩ := isDigits_iff.mp digits
  refine isDigits_iff.mpr ⟨by simp [some_digits], fun c member => ?_⟩
  obtain member | member := List.mem_append.mp member
  · exact isDigit_of_mem_zeros member
  · exact all_digits c member

theorem isDigit_of_isWhole (whole : isWhole s = true) : ∀ c ∈ s, c.isDigit = true :=
  (isDigits_iff.mp (Bool.and_eq_true_iff.mp whole).1).2

theorem head?_toDigits {n : Nat} (positive : 0 < n) : (Nat.toDigits 10 n).head? ≠ some '0' := by
  induction n using Nat.strongRecOn with
  | ind n ih =>
    by_cases small : n < 10
    · rw [Nat.toDigits_of_lt_base small]
      simpa using positive.ne'
    · have front := ih (n / 10) (by omega) (by omega)
      rw [Nat.toDigits_of_base_le (by omega) (by omega),
        List.head?_append_of_ne_nil _ Nat.toDigits_ne_nil]
      exact front

theorem isDigits_toDigits (n : Nat) : isDigits (Nat.toDigits 10 n) = true :=
  isDigits_iff.mpr ⟨Nat.toDigits_ne_nil,
    fun _ member => Nat.isDigit_of_mem_toDigits (by omega) (by omega) member⟩

/-- A number written in base ten has no leading zeros. -/
theorem isWhole_toDigits (n : Nat) : isWhole (Nat.toDigits 10 n) = true := by
  by_cases zero : n = 0
  · subst zero
    rfl
  · simp [isWhole, isDigits_toDigits, head?_toDigits (Nat.pos_of_ne_zero zero)]

/-- A power of ten starts with a letter, and digits follow. -/
theorem isPower_cons {c : Char} : isPower (c :: s) = true ↔
    (c = 'e' ∨ c = 'E') ∧ isDigits (unsigned s) = true := by
  simp [isPower]

theorem head?_of_isPower (h : isPower power = true) : ∀ c ∈ power.head?, c = 'e' ∨ c = 'E' := by
  cases power with
  | nil => simp
  | cons c t => simpa using (isPower_cons.mp h).1

theorem unsigned_of_isDigits (h : isDigits s = true) : unsigned s = s := by
  unfold unsigned
  split
  next => simp [isDigits] at h
  next => simp [isDigits] at h
  next => rfl

theorem mem_unsigned {c : Char} (member : c ∈ s) : c = '+' ∨ c = '-' ∨ c ∈ unsigned s := by
  unfold unsigned
  split
  next => exact (List.mem_cons.mp member).imp_right .inr
  next => exact .inr (List.mem_cons.mp member)
  next => exact .inr (.inr member)

theorem isPower_exponent (e : Int) :
    isPower ('e' :: signText (e < 0) ++ digitsText e.natAbs) = true := by
  have digits := isDigits_toDigits e.natAbs
  refine isPower_cons.mpr ⟨.inl rfl, ?_⟩
  by_cases negative : e < 0
  · simpa [signText, negative, unsigned, digitsText] using digits
  · simpa [signText, negative, digitsText, unsigned_of_isDigits digits] using digits

/-! ### Whole numbers and fractions -/

theorem isPower_nil : isPower [] = true := rfl

theorem isUnsigned_of_power (whole : isWhole w = true) (h : isPower power = true) :
    isUnsigned (w ++ power) = true := by
  have ends : ∀ c ∈ power.head?, c.isDigit = false := by
    intro c first
    obtain rfl | rfl := head?_of_isPower h c first <;> rfl
  have noPoint : ∀ t, power ≠ '.' :: t := by
    rintro t rfl
    have := head?_of_isPower h '.' rfl
    simp at this
  have ⟨front, back⟩ := span_append (isDigit_of_isWhole whole) ends
  rw [isUnsigned, front, back, whole, Bool.true_and]
  split
  next t => exact absurd rfl (noPoint t)
  next => exact h

theorem isUnsigned_of_fraction (whole : isWhole w = true) (digits : isDigits fraction = true)
    (h : isPower power = true) : isUnsigned (w ++ '.' :: (fraction ++ power)) = true := by
  have ends : ∀ c ∈ power.head?, c.isDigit = false := by
    intro c first
    obtain rfl | rfl := head?_of_isPower h c first <;> rfl
  have point : ∀ c ∈ ('.' :: (fraction ++ power)).head?, c.isDigit = false := by simp
  have ⟨front, back⟩ := span_append (isDigit_of_isWhole whole) point
  have ⟨front', back'⟩ := span_append (isDigits_iff.mp digits).2 ends
  rw [isUnsigned, front, back, whole, Bool.true_and]
  simp only [front', back', digits, h, Bool.and_self]

theorem isNumber_signed (negative : Bool) (h : isUnsigned s = true) :
    isNumber (signText negative ++ s) = true := by
  cases negative with
  | true => exact h
  | false =>
    show isNumber s = true
    unfold isNumber
    split
    next t => simp [isUnsigned, isWhole, isDigits] at h
    next => exact h

theorem isWordChar_of_isDigit {c : Char} (h : c.isDigit = true) : isWordChar c = true := by
  simp [isWordChar, Char.isAlphanum, h]

theorem isWordChar_of_isPower (h : isPower power = true) : ∀ c ∈ power, isWordChar c = true := by
  cases power with
  | nil => simp
  | cons c t =>
    obtain ⟨letter, digits⟩ := isPower_cons.mp h
    intro d member
    obtain rfl | member := List.mem_cons.mp member
    · obtain rfl | rfl := letter <;> rfl
    · obtain rfl | rfl | member := mem_unsigned member
      · rfl
      · rfl
      · exact isWordChar_of_isDigit ((isDigits_iff.mp digits).2 d member)

theorem isWordChar_of_isUnsigned (h : isUnsigned s = true) : ∀ c ∈ s, isWordChar c = true := by
  obtain ⟨whole, behind⟩ := Bool.and_eq_true_iff.mp h
  intro c member
  rw [← List.takeWhile_append_dropWhile (p := Char.isDigit) (l := s)] at member
  obtain member | member := List.mem_append.mp member
  · exact isWordChar_of_isDigit (isDigit_of_isWhole whole c member)
  split at behind
  next t rest =>
    rw [rest] at member
    obtain ⟨digits, power⟩ := Bool.and_eq_true_iff.mp behind
    obtain rfl | member := List.mem_cons.mp member
    · rfl
    rw [← List.takeWhile_append_dropWhile (p := Char.isDigit) (l := t)] at member
    obtain member | member := List.mem_append.mp member
    · exact isWordChar_of_isDigit ((isDigits_iff.mp digits).2 c member)
    · exact isWordChar_of_isPower power c member
  next => exact isWordChar_of_isPower behind c member

/-- Every character of a number is one of a word. -/
theorem isWordChar_of_isNumber (h : isNumber s = true) : ∀ c ∈ s, isWordChar c = true := by
  unfold isNumber at h
  split at h
  next => simpa using ⟨rfl, isWordChar_of_isUnsigned h⟩
  next => exact isWordChar_of_isUnsigned h

theorem ne_nil_of_isNumber (h : isNumber s = true) : s ≠ [] := by
  rintro rfl
  cases h

/-! ### Integers -/

theorem isNumber_whole (negative : Bool) (n : Nat) :
    isNumber (signText negative ++ Nat.toDigits 10 n) = true := by
  have whole := isUnsigned_of_power (isWhole_toDigits n) isPower_nil
  rw [List.append_nil] at whole
  exact isNumber_signed negative whole

theorem isNumber_integer (n : Int) : isNumber (toString n).toList = true := by
  rw [Int.toString_eq_repr, Int.repr_eq_if]
  split
  next =>
    rw [Nat.toList_repr]
    exact isNumber_whole false n.toNat
  next =>
    rw [String.toList_append, Nat.toList_repr]
    exact isNumber_whole true (-n).toNat

/-! ### Finite numbers -/

variable {tie : Tie} {m : Nat} {q e : Int} {d : Decimal}

/-- Zero is no decimal that reads back as another number. -/
theorem readsBack_pos (positive : 0 < m) (h : readsBack m q d = true) : 0 < d.digits := by
  by_contra zero
  have nothing : d.digits = 0 := by omega
  have below : ∀ n, 0 < n → compareScaled 0 d.exponent n (q - 2) = .lt := by
    intro n some_number
    rw [compareScaled, Nat.compare_eq_lt, Nat.zero_mul, Nat.zero_mul]
    exact Nat.mul_pos (Nat.mul_pos some_number (Nat.pow_pos (by omega))) (Nat.pow_pos (by omega))
  have low := below (if m == leastFull && minExponent < q then 4 * m - 1 else 4 * m - 2)
    (by split <;> omega)
  simp only [readsBack, nothing] at h
  rw [low] at h
  simp at h

theorem nearestOn?_readsBack (found : nearestOn? tie m q e = some d) : readsBack m q d = true := by
  unfold nearestOn? at found
  cases low : readsBack m q ⟨floorOn m q e, e⟩ <;>
    cases high : readsBack m q ⟨floorOn m q e + 1, e⟩ <;> simp only [low, high] at found
  all_goals grind

theorem searchFrom_readsBack {fuel : Nat} (found : searchFrom tie m q fuel e = some d) :
    readsBack m q d = true := by
  induction fuel generalizing e with
  | zero => cases found
  | succ fuel ih =>
    obtain found | ⟨_, found⟩ := Option.or_eq_some_iff.mp found
    · exact nearestOn?_readsBack found
    · exact ih found

theorem shortest_pos (tie : Tie) (q : Int) (positive : 0 < m) :
    0 < (shortest tie m q).digits := by
  rw [shortest, if_neg positive.ne']
  cases found : searchFrom tie m q 22 (decimalScale m q) with
  | none => exact positive
  | some d => exact readsBack_pos positive (searchFrom_readsBack found)

theorem isWhole_of_first (digits : isDigits s = true) (first : s.head? ≠ some '0') :
    isWhole s = true := by
  simp [isWhole, digits, first]

theorem withFraction_point (s t : List Char) : withFraction (s ++ '.' :: t) = s ++ '.' :: t := by
  simp [withFraction]

/-- Digits in front of a decimal point and behind it. -/
theorem isUnsigned_point (whole : isWhole w = true) (digits : isDigits fraction = true) :
    isUnsigned (w ++ '.' :: fraction) = true := by
  have := isUnsigned_of_fraction whole digits isPower_nil
  rwa [List.append_nil] at this

/-- A number without a fraction is given one. -/
theorem isUnsigned_withFraction (whole : isWhole s = true) : isUnsigned (withFraction s) = true := by
  rw [withFraction, if_neg]
  · exact isUnsigned_point whole rfl
  · intro found
    have := isDigit_of_isWhole whole '.' (by simpa using found)
    cases this

/-- A decimal point in front of digits without a leading zero, among them, or behind them. -/
theorem isUnsigned_pointed {digits : List Char} (some_digits : isDigits digits = true)
    (first : digits.head? ≠ some '0') (point : Int) :
    isUnsigned (withFraction (pointed digits point)) = true := by
  have filled : digits ≠ [] := (isDigits_iff.mp some_digits).1
  unfold pointed
  split
  next front =>
    rw [List.cons_append, List.cons_append, ← List.singleton_append, withFraction_point]
    exact isUnsigned_point rfl (isDigits_zeros_append _ some_digits)
  next ahead =>
    split
    next inside =>
      obtain ⟨k, rfl⟩ : ∃ k : Nat, point = (k + 1 : Nat) := ⟨point.toNat - 1, by omega⟩
      rw [withFraction_point, Int.toNat_natCast]
      have whole : isWhole (digits.take (k + 1)) = true := by
        apply isWhole_of_first
        · exact isDigits_of_subset some_digits (List.take_subset ..) (by simp [filled])
        · simpa [List.head?_take] using first
      have behind : digits.drop (k + 1) ≠ [] := by
        rw [Ne, List.drop_eq_nil_iff]
        omega
      exact isUnsigned_point whole (isDigits_of_subset some_digits (List.drop_subset ..) behind)
    next behind =>
      apply isUnsigned_withFraction
      apply isWhole_of_first
      · exact isDigits_append some_digits fun c => isDigit_of_mem_zeros
      · rwa [List.head?_append_of_ne_nil _ filled]

/-- The first of some digits in front of a decimal point, and a power of ten behind. -/
theorem isUnsigned_scientific {digits : List Char} (some_digits : isDigits digits = true)
    (point : Int) : isUnsigned (scientific digits point) = true := by
  have power := isPower_exponent (point - 1)
  unfold scientific
  cases digits with
  | nil => cases some_digits
  | cons c t =>
    have digit : c.isDigit = true := (isDigits_iff.mp some_digits).2 c List.mem_cons_self
    have whole : isWhole [c] = true := by simp [isWhole, isDigits, digit]
    cases t with
    | nil => simpa using isUnsigned_of_power whole power
    | cons d t =>
      have fraction : isDigits (d :: t) = true :=
        isDigits_of_subset some_digits (List.subset_cons_self ..) (List.cons_ne_nil d t)
      simpa using isUnsigned_of_fraction whole fraction power

theorem isNumber_compactText (negative : Bool) (m : Nat) (q : Int) :
    isNumber (compactText negative m q) = true := by
  unfold compactText
  split
  next => exact isNumber_signed negative rfl
  next positive =>
    refine isNumber_signed negative ?_
    split
    · have first := head?_toDigits (shortest_pos .toEven q (Nat.pos_of_ne_zero positive))
      exact isUnsigned_pointed (isDigits_toDigits _) first _
    · exact isUnsigned_scientific (isDigits_toDigits _) _

end Verbatim.Json
