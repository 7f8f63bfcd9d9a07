import Verbatim.Proofs.Text.Filler

/-!
# Escapes

A backslash protects the character behind it, be it a backslash, a quote or a line break. So a text
with escapes is read from the left in whole steps (`Whole`), and a text stands in another one
unprotected if nothing but whole steps stand in front of it (`Occurs`).
-/

namespace Verbatim.Text

/-- Characters and escapes, none of them cut: each backslash comes with the character that it
protects. -/
inductive Whole : List Char → Prop where
  | nil : Whole []
  | char {c : Char} {s : List Char} (plain : c ≠ '\\') (more : Whole s) : Whole (c :: s)
  | escape (c : Char) {s : List Char} (more : Whole s) : Whole ('\\' :: c :: s)

/-- A text stands inside another. Where backslashes escape, the one in front of it protects some
other character. -/
def Occurs (escapes : Bool) (text s : List Char) : Prop :=
  ∃ front back, s = front ++ (text ++ back) ∧ (escapes = true → Whole front)

theorem Whole.append {s t : List Char} (front : Whole s) (back : Whole t) : Whole (s ++ t) := by
  induction front with
  | nil => exact back
  | char plain _ ih => exact .char plain ih
  | escape c _ ih => exact .escape c ih

/-- In front of a character stand whole escapes, or the backslash that protects the character. -/
theorem Whole.in_front {s front back : List Char} {c : Char} (h : Whole s)
    (split : s = front ++ c :: back) :
    Whole front ∨ ∃ front', front = front' ++ ['\\'] ∧ Whole front' := by
  induction h generalizing front with
  | nil => simp at split
  | @char d s plain more ih =>
    cases front with
    | nil => exact Or.inl .nil
    | cons e front =>
      obtain ⟨rfl, behind⟩ := List.cons.inj split
      rcases ih behind with whole | ⟨front', rfl, whole⟩
      · exact Or.inl (.char plain whole)
      · exact Or.inr ⟨d :: front', rfl, .char plain whole⟩
  | @escape d s more ih =>
    cases front with
    | nil => exact Or.inl .nil
    | cons e front =>
      obtain ⟨rfl, behind⟩ := List.cons.inj split
      cases front with
      | nil => exact Or.inr ⟨[], rfl, .nil⟩
      | cons e front =>
        obtain ⟨rfl, later⟩ := List.cons.inj behind
        rcases ih later with whole | ⟨front', rfl, whole⟩
        · exact Or.inl (.escape d whole)
        · exact Or.inr ⟨'\\' :: d :: front', rfl, .escape d whole⟩

/-- Each line break stands behind a backslash that protects it. -/
def BreaksEscaped (s : List Char) : Prop :=
  ∀ front c back, s = front ++ c :: back → isLineEnd c = true →
    ∃ front', front = front' ++ ['\\'] ∧ Whole front'

theorem occurs_of_mem {c : Char} {s : List Char} (member : c ∈ s) : Occurs false [c] s := by
  obtain ⟨front, back, rfl⟩ := List.append_of_mem member
  exact ⟨front, back, rfl, nofun⟩

end Verbatim.Text
