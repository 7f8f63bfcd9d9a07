import Verbatim.Proofs.Literal.Decimal
import Verbatim.Proofs.Toml.Integers

/-!
# Floating-point numbers are hinted

What the grammar takes as a floating-point number denotes one (`exists_floatText`): a sign or none,
in front of one of the two words or of digits with a fraction, an exponent or both. So each of them
has a hint.
-/

namespace Verbatim.Toml

open Peg Grammar Text

variable {depth pos : Nat} {mode : Mode} {w x : List Char} {ts : List (Peg.Tree Rule)}

theorem exists_sign (h : (matcher depth sign).Takes mode pos w x ts) :
    ∃ negative, Sign w negative := by
  obtain found | ⟨_, rfl, _⟩ := Expr.takes_opt.mp h
  · obtain ⟨c, rfl, known, _⟩ := Expr.takes_char.mp found
    have signs : c = '+' ∨ c = '-' := by simpa using known
    rcases signs with rfl | rfl
    · exact ⟨_, .plus⟩
    · exact ⟨_, .minus⟩
  · exact ⟨_, .missing⟩

theorem exists_digits_of_run (h : (matcher depth (digitRun digit)).Takes .token pos w x ts) :
    ∃ ds, Digits 10 w ds :=
  spellsDigits_dec.exists_of_digitRun (by decide) h

theorem exists_exponent (h : (matcher depth exponent).Takes .token pos w x ts) :
    ∃ e, Exponent w e := by
  obtain ⟨letters, rest, _, _, rfl, _, letter, behind⟩ :=
    Expr.takes_seq_tight (covers depth) tight_token h
  obtain ⟨signs, digits, _, _, rfl, _, signed, run⟩ :=
    Expr.takes_seq_tight (covers depth) tight_token behind
  obtain ⟨c, rfl, known, _⟩ := Expr.takes_char.mp letter
  have announced : c = 'e' ∨ c = 'E' := by simpa using known
  obtain ⟨_, sign⟩ := exists_sign signed
  obtain ⟨_, decimal⟩ := exists_digits_of_run run
  have exponent := Exponent.given announced sign decimal
  exact ⟨_, exponent⟩

/-- A fraction, with or without an exponent behind it. -/
theorem exists_part
    (h : (matcher depth (.seq fraction (.opt exponent))).Takes .token pos w x ts) :
    ∃ t u ps e, w = '.' :: (t ++ u) ∧ Digits 10 t ps ∧ Exponent u e := by
  obtain ⟨front, u, _, _, rfl, _, found, behind⟩ :=
    Expr.takes_seq_tight (covers depth) tight_token h
  obtain ⟨point, t, _, _, rfl, _, word, run⟩ :=
    Expr.takes_seq_tight (covers depth) tight_token found
  obtain ⟨rfl, _⟩ := Expr.takes_word.mp word
  obtain ⟨ps, part⟩ := exists_digits_of_run run
  obtain given | ⟨_, rfl, _⟩ := Expr.takes_opt.mp behind
  · obtain ⟨e, exponent⟩ := exists_exponent given
    exact ⟨t, u, ps, e, by simp, part, exponent⟩
  · exact ⟨t, [], ps, 0, by simp, part, .missing⟩

/-- Digits with a fraction, an exponent or both. -/
theorem exists_decimal
    (h : (matcher depth (.seq unsignedDec
      (.alt exponent (.seq fraction (.opt exponent))))).Takes .token pos w x ts) :
    ∃ m e, DecimalText w m e := by
  obtain ⟨front, rest, _, _, rfl, _, whole, behind⟩ :=
    Expr.takes_seq_tight (covers depth) tight_token h
  obtain ⟨_, digits⟩ := exists_digits_of_unsignedDec whole
  obtain given | ⟨_, pointed⟩ := Expr.takes_alt.mp behind
  · obtain ⟨_, exponent⟩ := exists_exponent given
    exact ⟨_, _, .whole digits exponent⟩
  · obtain ⟨t, u, ps, e, rfl, part, exponent⟩ := exists_part pointed
    exact ⟨_, _, .point digits part exponent⟩

/-- What is taken as a floating-point number denotes one. -/
theorem exists_floatText (h : (matcher depth floatingPoint).Takes mode pos w x ts) :
    ∃ y, FloatText w y := by
  obtain ⟨_, inside, _⟩ := Expr.takes_rule.mp h
  obtain ⟨signs, number, _, _, rfl, _, signed, unsigned⟩ :=
    Expr.takes_seq_tight (covers depth) tight_token inside
  obtain ⟨_, sign⟩ := exists_sign signed
  obtain word | ⟨_, digits⟩ := Expr.takes_alt.mp unsigned
  · obtain inf | ⟨_, nan⟩ := Expr.takes_alt.mp word
    · obtain ⟨rfl, _⟩ := Expr.takes_word.mp inf
      exact ⟨_, .infinite sign⟩
    · obtain ⟨rfl, _⟩ := Expr.takes_word.mp nan
      exact ⟨_, .nan sign⟩
  · obtain ⟨_, _, decimal⟩ := exists_decimal digits
    exact ⟨_, .decimal sign decimal⟩

/-- Each front part of a text that is matched as a floating-point number denotes one. -/
theorem exists_floatText_of_parse {s : List Char} {m : Match Rule}
    (found : grammar.parse floatingPoint .spaced 0 s = some m) : ∃ y, FloatText m.text y := by
  rw [parse_eq_matcher _ (Nat.le_refl _)] at found
  have covering : (matcher s.length floatingPoint).CoversIn .spaced := fun _ _ _ => matcher_covers
  exact exists_floatText (covering.takes found)

end Verbatim.Toml
