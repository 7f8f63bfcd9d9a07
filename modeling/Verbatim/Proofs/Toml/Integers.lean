import Verbatim.Proofs.Document.Forms
import Verbatim.Proofs.Literal.Numeral

/-!
# Integers are hinted exactly

What the grammar takes as an integer is a numeral (`exists_numeral`): the digits of each base are
characters that spell digits, the first one is no underscore, and nothing but digits and underscores
follows. The hint for it is therefore the integer that it denotes, if that fits a word
(`integer_hint_exact`).
-/

namespace Verbatim.Toml

open Peg Grammar Text

variable {depth base pos : Nat} {mode : Mode} {s t w x : List Char} {ts : List (Peg.Tree Rule)}
  {member : Char → Bool}

/-! ### Characters that spell digits -/

/-- A class of characters that spell the digits of a base. -/
def SpellsDigits (base : Nat) (member : Char → Bool) : Prop :=
  ∀ c, member c = true → ∃ d < base, c.toLower = d.digitChar

theorem spellsDigits_hex : SpellsDigits 16 fun c =>
    c.isDigit || ('a' ≤ c && c ≤ 'f') || ('A' ≤ c && c ≤ 'F') := by
  intro c found
  have ascii : c.toNat < 128 := by
    simp only [Char.isDigit, Bool.or_eq_true, Bool.and_eq_true, decide_eq_true_eq] at found
    obtain (⟨_, top⟩ | ⟨_, top⟩) | ⟨_, top⟩ := found
    all_goals exact ascii_of_le top (by decide)
  exact forall_ascii (P := fun c => (c.isDigit || ('a' ≤ c && c ≤ 'f') || ('A' ≤ c && c ≤ 'F')) →
    ∃ d < 16, c.toLower = d.digitChar) (by decide +kernel) ascii found

theorem spellsDigits_oct : SpellsDigits 8 fun c => '0' ≤ c && c ≤ '7' := by
  intro c found
  have ascii : c.toNat < 128 := by
    simp only [Bool.and_eq_true, decide_eq_true_eq] at found
    exact ascii_of_le found.2 (by decide)
  exact forall_ascii (P := fun c => ('0' ≤ c && c ≤ '7') → ∃ d < 8, c.toLower = d.digitChar)
    (by decide +kernel) ascii found

theorem spellsDigits_bin : SpellsDigits 2 fun c => "01".toList.contains c := by
  intro c found
  have known : c = '0' ∨ c = '1' := by simpa using found
  rcases known with rfl | rfl <;> decide

theorem spellsDigits_dec : SpellsDigits 10 Char.isDigit := by
  intro c found
  have ascii : c.toNat < 128 := by
    simp only [Char.isDigit, Bool.and_eq_true, decide_eq_true_eq] at found
    exact ascii_of_le found.2 (by decide)
  exact forall_ascii (P := fun c => c.isDigit → ∃ d < 10, c.toLower = d.digitChar)
    (by decide +kernel) ascii found

namespace SpellsDigits

theorem exists_values (spells : SpellsDigits base member) (h : ∀ c ∈ s, member c = true) :
    ∃ ds : List Nat, (∀ d ∈ ds, d < base) ∧ s.map Char.toLower = ds.map Nat.digitChar := by
  induction s with
  | nil => exact ⟨[], by simp, rfl⟩
  | cons c s ih =>
    obtain ⟨ds, small, rest⟩ := ih fun e inside => h e (List.mem_cons_of_mem _ inside)
    obtain ⟨d, digit, first⟩ := spells c (h c (List.mem_cons_self ..))
    refine ⟨d :: ds, ?_, by rw [List.map_cons, List.map_cons, first, rest]⟩
    simpa using ⟨digit, small⟩

/-- A text of such characters and underscores that does not start with an underscore. -/
theorem exists_digits (spells : SpellsDigits base member) (small : base ≤ 16)
    (inside : ∀ c ∈ t, member c = true ∨ c = '_') (front : Text.StartsIn (member · = true) t) :
    ∃ ds, Digits base t ds := by
  obtain ⟨first, head, digit⟩ := front
  have counted : first ∈ t.filter (· ≠ '_') := by
    refine List.mem_filter.mpr ⟨List.mem_of_mem_head? head, ?_⟩
    simp only [ne_eq, decide_not, Bool.not_eq_true', decide_eq_false_iff_not]
    rintro rfl
    obtain ⟨d, below, same⟩ := spells '_' digit
    exact (by decide : ∀ d < 16, '_'.toLower ≠ d.digitChar) d (by omega) same
  have digits : ∀ c ∈ t.filter (· ≠ '_'), member c = true := by
    intro c kept
    obtain ⟨here, other⟩ := List.mem_filter.mp kept
    exact (inside c here).resolve_right (by simpa using other)
  obtain ⟨ds, below, spelled⟩ := spells.exists_values digits
  refine ⟨ds, ?_, below, spelled⟩
  rintro rfl
  rw [List.map_nil, List.map_eq_nil_iff] at spelled
  rw [spelled] at counted
  cases counted

/-- A run of digits of one class, with underscores between them. -/
theorem exists_of_digitRun (spells : SpellsDigits base member) (small : base ≤ 16)
    (h : (matcher depth (digitRun (.char member))).Takes .token pos w x ts) :
    ∃ ds, Digits base w ds := by
  have one : (Expr.char member : Production).Avoids (fun c => (member c || c == '_') = false)
      .token := by
    intro c found other
    simp [found] at other
  have underscore : (lit "_").Avoids (fun c => (member c || c == '_') = false) .token := by
    intro c here other
    obtain rfl : c = '_' := by simpa using here
    simp at other
  have avoids : (digitRun (.char member)).Avoids (fun c => (member c || c == '_') = false)
      .token := avoids_then one ⟨tight_token, rfl, avoids_then underscore one⟩
  have starts : (digitRun (.char member)).StartsIn (member · = true) := fun _ => id
  refine spells.exists_digits small (fun c here => ?_) (Expr.text_startsIn starts h)
  have inside := Expr.text_of_avoids (productive depth) avoids h c here
  rwa [Bool.not_eq_false, Bool.or_eq_true, beq_iff_eq] at inside

end SpellsDigits

/-! ### Integers -/

theorem exists_digits_of_unsignedDec
    (h : (matcher depth unsignedDec).Takes .token pos w x ts) : ∃ ds, Digits 10 w ds := by
  have starts : unsignedDec.StartsIn (Char.isDigit · = true) :=
    ⟨⟨'0', rfl, rfl⟩, fun _ found => (Bool.and_eq_true_iff.mp found).1⟩
  have numeric : unsignedDec.Avoids (isNumeric · = false) .token := numeric_unsignedDec fun _ => id
  refine spellsDigits_dec.exists_digits (by decide) (fun c here => ?_)
    (Expr.text_startsIn starts h)
  have inside := Expr.text_of_avoids (productive depth) numeric h c here
  rwa [Bool.not_eq_false, isNumeric, Bool.or_eq_true, beq_iff_eq] at inside

/-- A decimal integer is a numeral with or without a sign. -/
theorem exists_numeral_of_decInt (h : (matcher depth decInt).Takes mode pos w x ts) :
    ∃ n, Numeral w n := by
  obtain ⟨_, inside, _⟩ := Expr.takes_rule.mp h
  obtain ⟨signs, digits, _, _, rfl, _, signed, unsigned⟩ :=
    Expr.takes_seq_tight (covers depth) tight_token inside
  obtain ⟨ds, decimal⟩ := exists_digits_of_unsignedDec unsigned
  obtain found | ⟨_, rfl, _⟩ := Expr.takes_opt.mp signed
  · obtain ⟨c, rest, _, sign, same⟩ := Expr.parseWith_char.mp found
    obtain rfl : signs = [c] := congrArg Match.text same
    have known : c = '+' ∨ c = '-' := by simpa using sign
    rcases known with rfl | rfl
    · exact ⟨_, .plus decimal⟩
    · exact ⟨_, .minus decimal⟩
  · exact ⟨_, .plain decimal⟩

/-- Digits behind the announcement of a base are a numeral. -/
theorem exists_numeral_of_based {r : Rule} {letter : Char}
    (announced : (letter, base) ∈ announcedBases) (spells : SpellsDigits base member)
    (h : (matcher depth (.rule r .token (.seq (.word ['0', letter]) (digitRun (.char member))))).Takes
      mode pos w x ts) : ∃ n, Numeral w n := by
  have small : base ≤ 16 := (by decide : ∀ entry ∈ announcedBases, entry.2 ≤ 16) _ announced
  obtain ⟨_, inside, _⟩ := Expr.takes_rule.mp h
  obtain ⟨front, digits, _, _, rfl, _, found, run⟩ :=
    Expr.takes_seq_tight (covers depth) tight_token inside
  obtain ⟨rfl, _⟩ := Expr.takes_word.mp found
  obtain ⟨ds, based⟩ := spells.exists_of_digitRun small run
  exact ⟨_, .based announced based⟩

/-- What is taken as an integer is a numeral. -/
theorem exists_numeral (h : (matcher depth integer).Takes mode pos w x ts) :
    ∃ n, Numeral w n := by
  obtain ⟨_, inside, _⟩ := Expr.takes_rule.mp h
  obtain hex | ⟨_, inside⟩ := Expr.takes_alt.mp inside
  · exact exists_numeral_of_based (by decide) spellsDigits_hex hex
  obtain oct | ⟨_, inside⟩ := Expr.takes_alt.mp inside
  · exact exists_numeral_of_based (by decide) spellsDigits_oct oct
  obtain bin | ⟨_, inside⟩ := Expr.takes_alt.mp inside
  · exact exists_numeral_of_based (by decide) spellsDigits_bin bin
  · exact exists_numeral_of_decInt inside

/-- The hint for what is matched as an integer as a whole is exact: the text denotes one integer,
and the hint is this integer if it lies between the least and the largest number of 64 bits, and
missing otherwise. -/
theorem integer_hint_exact (whole : MatchesAll .integer w) :
    ∃ n : Int, Numeral w n ∧ (∀ m, Numeral w m → m = n) ∧
      Hint.ofInteger? w = if -2 ^ 63 ≤ n ∧ n ≤ 2 ^ 63 - 1 then some (.integer n) else none := by
  obtain ⟨_, found⟩ := matchesAll_iff.mp whole
  obtain ⟨n, numeral⟩ := exists_numeral found
  have word : Hint.FitsWord n ↔ -2 ^ 63 ≤ n ∧ n ≤ 2 ^ 63 - 1 := by
    rw [Hint.FitsWord, Hint.wordEnd]
    omega
  refine ⟨n, numeral, fun m => numeral.unique, ?_⟩
  rw [numeral.ofInteger?_eq]
  simp only [word]

/-- The least number of 64 bits has a hint although its negation has none. -/
theorem integer_hint_exact_least :
    MatchesAll .integer "-9_223_372_036_854_775_808".toList ∧
      ∃ n : Int, Numeral "-9_223_372_036_854_775_808".toList n ∧
        (∀ m, Numeral "-9_223_372_036_854_775_808".toList m → m = n) ∧
        Hint.ofInteger? "-9_223_372_036_854_775_808".toList =
          if -2 ^ 63 ≤ n ∧ n ≤ 2 ^ 63 - 1 then some (.integer n) else none := by
  have whole : MatchesAll .integer "-9_223_372_036_854_775_808".toList := by
    unfold MatchesAll
    decide +kernel
  exact ⟨whole, integer_hint_exact whole⟩

/-- The highest bit of a word is no sign. -/
example : Hint.ofInteger? "0x8000_0000_0000_0000".toList = none := by decide

end Verbatim.Toml
