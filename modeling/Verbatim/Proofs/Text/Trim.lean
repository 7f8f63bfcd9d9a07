import Verbatim.Proofs.Peg.Border
import Verbatim.Proofs.Toml.Production

/-!
# The blanks at the end of a text

`trimEnd` cuts off blanks and nothing else, and all of them: what starts with a visible character
still starts with it, and ends in a visible one.
-/

namespace Verbatim.Text

variable {c : Char}

theorem trimEnd_append (s : List Char) :
    trimEnd s ++ (s.reverse.takeWhile isBlank).reverse = s := by
  rw [trimEnd, ← List.reverse_append, List.takeWhile_append_dropWhile, List.reverse_reverse]

theorem exists_trimEnd (s : List Char) :
    ∃ blanks, s = trimEnd s ++ blanks ∧ ∀ c ∈ blanks, isBlank c = true :=
  ⟨(s.reverse.takeWhile isBlank).reverse, (trimEnd_append s).symm, fun _ member =>
    List.mem_takeWhile_imp (List.mem_reverse.mp member)⟩

/-- Behind a visible character the blanks at the end are cut off, and the character stays. -/
theorem trimEnd_visible (visible : Visible c) (s : List Char) :
    ∃ rest, trimEnd (c :: s) = c :: rest ∧ EndsIn Visible (c :: rest) := by
  have first := List.head?_dropWhile_not isBlank s.reverse
  rw [trimEnd, List.reverse_cons, List.dropWhile_append]
  cases left : s.reverse.dropWhile isBlank with
  | nil =>
    have stays : [c].dropWhile isBlank = [c] := List.dropWhile_cons_of_neg (by simp [visible])
    exact ⟨[], by simp [stays], c, rfl, visible⟩
  | cons d more =>
    rw [left] at first
    exact ⟨(d :: more).reverse, by simp, d, by simp [List.getLast?_cons], by simpa using first⟩

end Verbatim.Text
