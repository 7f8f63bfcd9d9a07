import Verbatim.Proofs.Reader.Accepted
import Verbatim.Proofs.Text.Agreement
import Verbatim.Proofs.Toml.Rejected

/-!
# What is said of a rejected text

A text that the grammar does not match is answered by a diagnostic that points between two of its
characters, so the text behind that place can be looked at. What is complete is not blamed: where
the text starts with lines that are a document by themselves, the diagnostic points behind them
(`tree_rejected`).
-/

namespace Verbatim

open Text Toml

namespace Reader

variable {name text : String} {t : Peg.Tree Rule}

theorem tree_eq_ok : tree name text = .ok t ↔ parse text.toList = .ok t := by
  unfold tree
  cases parse text.toList <;> simp [Except.mapError]

/-- A rejected text is reported at a place between two characters, and not inside complete lines in
front that are a document by themselves. -/
theorem tree_rejected (name text : String) (f : Failure) (rejected : tree name text = .error f) :
    ∃ e, f = .notToml name text e ∧
      grammar.parse Grammar.document .spaced 0 text.toList = none ∧
      f.diagnostic.kind = .parse ∧ f.diagnostic.span = some ⟨e.offset, e.offset⟩ ∧
      e.offset ≤ text.utf8ByteSize ∧ IsBoundary text.toList e.offset ∧
      (∃ rest, dropBytes? e.offset text.toList = some rest) ∧
      ∀ s r name' t, text = s ++ r → tree name' s = .ok t → s.toList.getLast? = some '\n' →
        s.utf8ByteSize ≤ e.offset := by
  unfold tree at rejected
  cases parsed : parse text.toList with
  | ok t =>
    rw [parsed] at rejected
    cases rejected
  | error e =>
    rw [parsed] at rejected
    obtain rfl := Except.error.inj rejected
    obtain ⟨unmatched, furthest⟩ := parse_eq_error.mp parsed
    obtain ⟨u, v, split, place⟩ : IsBoundary text.toList e.offset :=
      furthest ▸ isBoundary_offset text.toList
    have whole := congrArg byteLength split
    rw [byteLength_toList, byteLength_append] at whole
    refine ⟨e, rfl, Peg.Expr.rule_eq_none unmatched, rfl, rfl, by omega, ⟨u, v, split, place⟩,
      ?_, ?_⟩
    · exact ⟨v, by rw [← place, split, dropBytes?_append]⟩
    · rintro s r name' t rfl accepted ended
      rw [← byteLength_toList]
      rw [String.toList_append] at parsed
      exact le_offset (tree_eq_ok.mp accepted) ended parsed

/-- Behind the key of the second line, nothing but an equals sign is missing. -/
example : furthestFailure "a = 1\nb".toList = ⟨7, [.equals]⟩ := by
  decide +kernel

/-- The line in front of a line without a value is not blamed. -/
theorem tree_rejected_missingValue :
    ∃ f e, tree "<string>" "a = 1\nb" = .error f ∧ f = .notToml "<string>" "a = 1\nb" e ∧
      "a = 1\n".utf8ByteSize ≤ e.offset := by
  obtain ⟨f, rejected⟩ : ∃ f, tree "<string>" "a = 1\nb" = .error f :=
    exists_error_of_isOk (by decide +kernel)
  obtain ⟨t, accepted⟩ : ∃ t, tree "<string>" "a = 1\n" = .ok t :=
    exists_ok_of_isOk (by decide +kernel)
  obtain ⟨e, same, _, _, _, _, _, _, behind⟩ := tree_rejected "<string>" "a = 1\nb" f rejected
  exact ⟨f, e, rejected, same, behind "a = 1\n" "b" "<string>" t rfl accepted (by decide)⟩

end Reader

end Verbatim
