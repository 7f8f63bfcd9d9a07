import Verbatim.Proofs.Document.Hints
import Verbatim.Proofs.Reader.Forms

/-!
# Hints of values that are read

Every value that is read has a hint if it should have one, and the hint agrees with its kind and its
source. Every text that is matched as a floating-point number has a hint (`readString_hints`).
-/

namespace Verbatim.Reader

open Peg Toml

/-- The hints of values are there if they should be and agree with the kinds. Each text that the
grammar matches as a floating-point number, be it all of a text or the front of one, has a hint,
which is not-a-number in three spellings only. -/
theorem readString_hints (options : Options) (s : String) (d : Document)
    (found : readString options s = .ok d) :
    (∀ kv ∈ d.keyValues, kv.value.HintAgrees) ∧
    ∀ t m, grammar.parse Grammar.floatingPoint .spaced 0 t = some m →
      ∃ x, Hint.ofFloat? m.text = some (.float x) ∧ (x = .nan ↔ m.text ∈ nanSpellings) := by
  constructor
  · intro kv member
    exact (legible_of_read found member).hintAgrees
  · intro t m taken
    obtain ⟨x, denotes⟩ := exists_floatText_of_parse taken
    exact ⟨x, denotes.ofFloat?_eq, denotes.eq_nan_iff⟩

/-- A value with a hint, one without, and the front of a text that is matched as a floating-point
number with all that it may have. -/
theorem readString_hints_kinds :
    (∃ d, readString { computeChecksum := false } "a=-nan\nb=[]" = .ok d ∧
      d.keyValues.map (fun kv => (kv.value.kind, kv.value.hint.isSome)) =
        [(.float, true), (.array, false)] ∧
      ∀ kv ∈ d.keyValues, kv.value.HintAgrees) ∧
    ∃ m x, grammar.parse Grammar.floatingPoint .spaced 0 "-6_0.2_2E+2_3 #".toList = some m ∧
      m.text = "-6_0.2_2E+2_3".toList ∧ Hint.ofFloat? m.text = some (.float x) ∧ x ≠ .nan := by
  have values :
      (readString { computeChecksum := false } "a=-nan\nb=[]").toOption.map
        (·.keyValues.map fun kv => (kv.value.kind, kv.value.hint.isSome)) =
      some [(.float, true), (.array, false)] := by decide +kernel
  have front :
      (grammar.parse Grammar.floatingPoint .spaced 0 "-6_0.2_2E+2_3 #".toList).map (·.text) =
        some "-6_0.2_2E+2_3".toList := by decide +kernel
  obtain ⟨d, read, kinds⟩ := Option.map_eq_some_iff.mp values
  obtain ⟨m, taken, text⟩ := Option.map_eq_some_iff.mp front
  have found := ok_of_toOption read
  obtain ⟨agree, floats⟩ := readString_hints _ _ d found
  obtain ⟨x, hint, nan⟩ := floats _ m taken
  refine ⟨⟨d, found, kinds, agree⟩, m, x, taken, text, hint, ?_⟩
  rw [ne_eq, nan, text]
  decide

end Verbatim.Reader
