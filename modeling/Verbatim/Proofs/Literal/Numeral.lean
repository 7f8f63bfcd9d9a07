import Mathlib.Data.Nat.Digits.Defs
import Mathlib.Tactic.Ring
import Verbatim.Literal.Hint

/-!
# Numerals

Which integer a text denotes (`Numeral`): decimal digits with or without a sign, or digits behind
the announcement of another base. The value of digits is the positional one, and underscores among
them do not count. A numeral is read as the integer that it denotes (`Numeral.value?_eq`), however
large that is, so it denotes only one.
-/

namespace Verbatim

/-- Digits of a base, the most significant one first. Letters count as digits in either case, and
underscores do not count. -/
structure Digits (base : Nat) (s : List Char) (ds : List Nat) : Prop where
  some_digit : ds ≠ []
  small : ∀ d ∈ ds, d < base
  spelled : (s.filter (· ≠ '_')).map Char.toLower = ds.map Nat.digitChar

/-- The value of digits, the most significant one first. -/
def positional (base : Nat) (ds : List Nat) : Nat := Nat.ofDigits base ds.reverse

/-- The letters that announce a base. -/
def announcedBases : List (Char × Nat) := [('x', 16), ('o', 8), ('b', 2)]

/-- A text denotes an integer. -/
inductive Numeral : List Char → Int → Prop
  | plain {s : List Char} {ds : List Nat} (digits : Digits 10 s ds) : Numeral s (positional 10 ds)
  | plus {s : List Char} {ds : List Nat} (digits : Digits 10 s ds) :
      Numeral ('+' :: s) (positional 10 ds)
  | minus {s : List Char} {ds : List Nat} (digits : Digits 10 s ds) :
      Numeral ('-' :: s) (-positional 10 ds)
  | based {letter : Char} {base : Nat} {s : List Char} {ds : List Nat}
      (announced : (letter, base) ∈ announcedBases) (digits : Digits base s ds) :
      Numeral ('0' :: letter :: s) (positional base ds)

variable {base : Nat} {s w : List Char} {ds : List Nat} {c : Char} {n m : Int}

/-! ### Single digits -/

/-- What holds of the first 128 characters holds of every character among them. -/
theorem forall_ascii {P : Char → Prop} (h : ∀ k < 128, P (Char.ofNat k)) (ascii : c.toNat < 128) :
    P c := by
  rw [← Char.ofNat_toNat c]
  exact h _ ascii

theorem ascii_of_le {top : Char} (h : c ≤ top) (ascii : top.toNat < 128) : c.toNat < 128 :=
  Nat.lt_of_le_of_lt h ascii

/-- A character outside the first 128 is its own lower case. -/
theorem ascii_of_toLower (h : c.toLower.toNat < 128) : c.toNat < 128 := by
  by_cases upper : c.val ≥ 'A'.val ∧ c.val ≤ 'Z'.val
  · exact ascii_of_le upper.2 (by decide)
  · have same : c.toLower = c := dif_neg upper
    rwa [same] at h

/-- A character that spells a digit is read as this digit. -/
theorem digitValue?_of_toLower {d : Nat} (below : base ≤ 16) (small : d < base)
    (h : c.toLower = d.digitChar) : Hint.digitValue? base c = some d := by
  have digits : ∀ d < 16, d.digitChar.toNat < 128 := by decide
  have ascii : c.toNat < 128 := ascii_of_toLower (h ▸ digits d (by omega))
  have largest : Hint.digitValue? 16 c = some d :=
    forall_ascii (P := fun c => ∀ d < 16, c.toLower = d.digitChar →
      Hint.digitValue? 16 c = some d) (by decide +kernel) ascii d (by omega) h
  rw [Hint.digitValue?, Option.filter_eq_some_iff] at largest ⊢
  exact ⟨largest.1, by simpa using small⟩

/-! ### Digits -/

/-- Reading goes on with what the digits so far amount to. -/
theorem foldl_digitValue? (below : base ≤ 16) (small : ∀ d ∈ ds, d < base)
    (spelled : s.map Char.toLower = ds.map Nat.digitChar) (high : Nat) :
    s.foldl (fun n? c => n?.bind fun n => (Hint.digitValue? base c).map (base * n + ·))
      (some high) = some (Nat.ofDigits base (ds.reverse ++ [high])) := by
  induction ds generalizing s high with
  | nil =>
    obtain rfl : s = [] := by simpa using spelled
    simp
  | cons d ds ih =>
    obtain ⟨c, s, rfl, first, rest⟩ := List.map_eq_cons_iff.mp spelled
    have value : Hint.digitValue? base c = some d :=
      digitValue?_of_toLower below (small d (List.mem_cons_self ..)) first
    have later : ∀ e ∈ ds, e < base := fun e member => small e (List.mem_cons_of_mem _ member)
    have step : Nat.ofDigits base [base * high + d] = Nat.ofDigits base ([d] ++ [high]) := by
      simp only [Nat.ofDigits_append, Nat.ofDigits_singleton, List.length_singleton, pow_one]
      ring
    rw [List.foldl_cons, Option.bind_some, value, Option.map_some, ih later rest,
      List.reverse_cons, List.append_assoc, Nat.ofDigits_append, Nat.ofDigits_append, step]

namespace Digits

theorem ne_nil (h : Digits base s ds) : Hint.dropUnderscores s ≠ [] := by
  intro nothing
  have nobody := h.spelled
  rw [← Hint.dropUnderscores, nothing] at nobody
  exact h.some_digit (List.map_eq_nil_iff.mp nobody.symm)

theorem natOfDigits?_eq (h : Digits base s ds) (below : base ≤ 16) :
    Hint.natOfDigits? base (Hint.dropUnderscores s) = some (positional base ds) := by
  have some_text : (Hint.dropUnderscores s).isEmpty = false :=
    List.isEmpty_eq_false_iff.mpr h.ne_nil
  rw [Hint.natOfDigits?, some_text, if_neg Bool.false_ne_true, positional,
    ← Nat.ofDigits_append_zero ds.reverse]
  exact foldl_digitValue? below h.small h.spelled 0

/-- Digits contain no character that spells none. -/
theorem not_mem (h : Digits base s ds) (other : ∀ d < base, c.toLower ≠ d.digitChar) :
    c ∉ Hint.dropUnderscores s := by
  intro member
  have lower : c.toLower ∈ ds.map Nat.digitChar := h.spelled ▸ List.mem_map_of_mem member
  obtain ⟨d, digit, same⟩ := List.mem_map.mp lower
  exact other d (h.small d digit) same.symm

/-- Digits have no sign. -/
theorem splitSign_eq (h : Digits base s ds) (below : base ≤ 16) :
    Binary64.splitSign (Hint.dropUnderscores s) = (false, Hint.dropUnderscores s) := by
  have minus : '-' ∉ Hint.dropUnderscores s :=
    h.not_mem fun d small => (by decide : ∀ d < 16, '-'.toLower ≠ d.digitChar) d (by omega)
  have plus : '+' ∉ Hint.dropUnderscores s :=
    h.not_mem fun d small => (by decide : ∀ d < 16, '+'.toLower ≠ d.digitChar) d (by omega)
  unfold Binary64.splitSign
  split
  · rename_i split
    simp [split] at minus
  · rename_i split
    simp [split] at plus
  · rfl

/-- Decimal digits announce no base. -/
theorem splitBase_eq (h : Digits 10 s ds) :
    Hint.splitBase (Hint.dropUnderscores s) = (10, Hint.dropUnderscores s) := by
  have hex : 'x' ∉ Hint.dropUnderscores s := h.not_mem (by decide)
  have oct : 'o' ∉ Hint.dropUnderscores s := h.not_mem (by decide)
  have bin : 'b' ∉ Hint.dropUnderscores s := h.not_mem (by decide)
  unfold Hint.splitBase
  split
  · rename_i split
    simp [split] at hex
  · rename_i split
    simp [split] at oct
  · rename_i split
    simp [split] at bin
  · rfl

end Digits

/-! ### Numerals -/

theorem intOfDigits?_eq {negative : Bool} {digits : List Char} {k : Nat}
    (sign : Binary64.splitSign s = (negative, digits))
    (value : Hint.natOfDigits? base digits = some k) :
    Hint.intOfDigits? base s = some (if negative then -(k : Int) else k) := by
  simp [Hint.intOfDigits?, sign, value]

/-- The number that a text is read as, of any size. -/
def numeralValue? (w : List Char) : Option Int :=
  Hint.intOfDigits? (Hint.splitBase (Hint.dropUnderscores w)).1
    (Hint.splitBase (Hint.dropUnderscores w)).2

theorem numeralValue?_eq {digits : List Char}
    (split : Hint.splitBase (Hint.dropUnderscores w) = (base, digits)) :
    numeralValue? w = Hint.intOfDigits? base digits := by
  rw [numeralValue?, split]

theorem ofInteger?_eq_filter (w : List Char) :
    Hint.ofInteger? w = ((numeralValue? w).filter fun n => Hint.FitsWord n).map Hint.integer := rfl

namespace Numeral

/-- A numeral is read as the integer that it denotes. -/
theorem value?_eq (h : Numeral w n) : numeralValue? w = some n := by
  cases h with
  | plain digits =>
    rw [numeralValue?_eq digits.splitBase_eq]
    exact intOfDigits?_eq (digits.splitSign_eq (by decide)) (digits.natOfDigits?_eq (by decide))
  | @plus s ds digits =>
    have split : Hint.splitBase (Hint.dropUnderscores ('+' :: s)) =
        (10, '+' :: Hint.dropUnderscores s) := rfl
    rw [numeralValue?_eq split]
    exact intOfDigits?_eq rfl (digits.natOfDigits?_eq (by decide))
  | @minus s ds digits =>
    have split : Hint.splitBase (Hint.dropUnderscores ('-' :: s)) =
        (10, '-' :: Hint.dropUnderscores s) := rfl
    rw [numeralValue?_eq split]
    exact intOfDigits?_eq rfl (digits.natOfDigits?_eq (by decide))
  | @based letter base s ds announced digits =>
    have below : base ≤ 16 :=
      (by decide : ∀ entry ∈ announcedBases, entry.2 ≤ 16) _ announced
    have split : Hint.splitBase (Hint.dropUnderscores ('0' :: letter :: s)) =
        (base, Hint.dropUnderscores s) := by
      simp only [announcedBases, List.mem_cons, Prod.mk.injEq, List.not_mem_nil, or_false]
        at announced
      obtain ⟨rfl, rfl⟩ | ⟨rfl, rfl⟩ | ⟨rfl, rfl⟩ := announced <;> rfl
    rw [numeralValue?_eq split]
    exact intOfDigits?_eq (digits.splitSign_eq below) (digits.natOfDigits?_eq below)

/-- A numeral denotes one integer only. -/
theorem unique (h : Numeral w n) (h' : Numeral w m) : m = n :=
  Option.some.inj (h'.value?_eq.symm.trans h.value?_eq)

/-- The hint for a numeral is the integer that it denotes, if that fits a word. -/
theorem ofInteger?_eq (h : Numeral w n) :
    Hint.ofInteger? w = if Hint.FitsWord n then some (.integer n) else none := by
  rw [ofInteger?_eq_filter, h.value?_eq]
  by_cases fits : Hint.FitsWord n
  · simp [Option.filter, fits]
  · simp [Option.filter, fits]

end Numeral

end Verbatim
