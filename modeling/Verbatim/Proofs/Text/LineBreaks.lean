import Mathlib.Data.List.Infix
import Verbatim.Proofs.Text.Filler

/-!
# Line breaks by line feeds and by pairs

`crlf` breaks the lines of a text by a carriage return and a line feed where the text breaks them by
line feeds alone. Whatever is cut from the one at a place without a line break is cut from the other
at the same place (`crlf_eq_append`), and text without content stays such (`Filler.crlf` and the
lemmas behind it). A backslash protects a single character, so that a line feed behind one is a
matter of its own and left out by `PlainBreaks`.
-/

namespace Verbatim.Text

variable {c : Char} {s t w : List Char} {p : Char → Bool}

/-- The text with a carriage return in front of each line feed. -/
def crlf (s : List Char) : List Char := s.flatMap fun c => if c = '\n' then ['\r', '\n'] else [c]

@[simp] theorem crlf_nil : crlf [] = [] := rfl

@[simp] theorem crlf_append (s t : List Char) : crlf (s ++ t) = crlf s ++ crlf t :=
  List.flatMap_append

theorem crlf_feed (s : List Char) : crlf ('\n' :: s) = '\r' :: '\n' :: crlf s := rfl

theorem crlf_cons (inside : c ≠ '\n') (s : List Char) : crlf (c :: s) = c :: crlf s := by
  simp [crlf, inside]

/-- A text without line breaks stays as it is. -/
theorem OneLine.crlf_eq_self (h : OneLine s) : crlf s = s := by
  induction s with
  | nil => rfl
  | cons c s ih =>
    obtain ⟨inside, later⟩ := List.forall_mem_cons.mp h
    rw [crlf_cons, ih later]
    rintro rfl
    cases inside

theorem crlf_ne_nil (h : s ≠ []) : crlf s ≠ [] := by
  cases s with
  | nil => exact absurd rfl h
  | cons c s =>
    by_cases feed : c = '\n'
    · simp [feed, crlf_feed]
    · simp [crlf_cons feed]

theorem forall_isLineEnd {P : Char → Prop} :
    (∀ c, isLineEnd c = true → P c) ↔ P '\n' ∧ P '\r' := by
  simp [isLineEnd]

/-- Text without a line break is in front of the one exactly where it is in front of the other. -/
theorem crlf_eq_append (oneLine : OneLine w) :
    crlf s = w ++ t ↔ ∃ rest, s = w ++ rest ∧ t = crlf rest := by
  induction w generalizing s with
  | nil => simp [eq_comm]
  | cons d w ih =>
    have inside : isLineEnd d = false := oneLine d (List.mem_cons_self ..)
    have later : OneLine w := fun e member => oneLine e (List.mem_cons_of_mem d member)
    cases s with
    | nil => simp
    | cons c s =>
      by_cases feed : c = '\n'
      · subst feed
        have apart : ¬ '\r' = d ∧ ¬ '\n' = d := by
          constructor <;> rintro rfl <;> exact absurd inside (by decide)
        simp [crlf_feed, apart]
      · simp [crlf_cons feed, ih later, and_assoc]

theorem dropWhile_crlf (feed : p '\n' = false) (carriage : p '\r' = false) (s : List Char) :
    (crlf s).dropWhile p = crlf (s.dropWhile p) := by
  induction s with
  | nil => rfl
  | cons c s ih =>
    by_cases same : c = '\n'
    · simp [same, crlf_feed, feed, carriage]
    · cases found : p c <;> simp [crlf_cons same, found, ih]

theorem takeWhile_crlf (feed : p '\n' = false) (carriage : p '\r' = false) (s : List Char) :
    (crlf s).takeWhile p = s.takeWhile p := by
  induction s with
  | nil => rfl
  | cons c s ih =>
    by_cases same : c = '\n'
    · simp [same, crlf_feed, feed, carriage]
    · cases found : p c <;> simp [crlf_cons same, found, ih]

/-! ### Texts with line feeds only -/

/-- Lines are broken by line feeds only, and no backslash stands directly in front of one. -/
structure PlainBreaks (s : List Char) : Prop where
  feeds : '\r' ∉ s
  unescaped : ¬ ['\\', '\n'] <:+: s

namespace PlainBreaks

instance (s : List Char) : Decidable (PlainBreaks s) :=
  decidable_of_iff ('\r' ∉ s ∧ ¬ ['\\', '\n'] <:+: s)
    ⟨fun h => ⟨h.1, h.2⟩, fun h => ⟨h.feeds, h.unescaped⟩⟩

theorem of_infix (h : PlainBreaks t) (inside : s <:+: t) : PlainBreaks s :=
  ⟨fun member => h.feeds (inside.subset member), fun escape => h.unescaped (escape.trans inside)⟩

theorem behind (h : PlainBreaks (s ++ t)) : PlainBreaks t :=
  h.of_infix (List.suffix_append s t).isInfix

theorem front (h : PlainBreaks (s ++ t)) : PlainBreaks s :=
  h.of_infix (List.prefix_append s t).isInfix

theorem tail (h : PlainBreaks (c :: s)) : PlainBreaks s :=
  h.of_infix (List.suffix_cons c s).isInfix

theorem ne_carriage (h : PlainBreaks (c :: s)) : c ≠ '\r' := by
  rintro rfl
  exact h.feeds (List.mem_cons_self ..)

theorem ne_feed (h : PlainBreaks ('\\' :: c :: s)) : c ≠ '\n' := by
  rintro rfl
  exact h.unescaped ⟨[], s, rfl⟩

end PlainBreaks

/-! ### Text without content -/

/-- What becomes of a line break starts with a line break. Behind it there may be one more. -/
theorem crlf_of_isLineBreak {b : List Char} (h : IsLineBreak b) :
    ∃ b' more, crlf b = b' ++ more ∧ IsLineBreak b' ∧ Filler more := by
  rcases h with rfl | rfl | rfl
  · exact ⟨['\r', '\n'], [], rfl, Or.inr (Or.inl rfl), .nil⟩
  · exact ⟨['\r'], ['\r', '\n'], rfl, Or.inr (Or.inr rfl), .of_lineBreak (Or.inr (Or.inl rfl))⟩
  · exact ⟨['\r'], [], rfl, Or.inr (Or.inr rfl), .nil⟩

theorem Filler.crlf (h : Filler s) : Filler (crlf s) := by
  induction h with
  | nil => exact .nil
  | @indent c s blank _ ih =>
    rw [crlf_cons]
    · exact .indent blank ih
    · rintro rfl
      cases blank
  | @lineBreak b s broken _ ih =>
    obtain ⟨b', more, split, broken', filler⟩ := crlf_of_isLineBreak broken
    rw [crlf_append, split, List.append_assoc]
    exact .lineBreak broken' (filler.append ih)
  | @comment body b s inside broken _ ih =>
    obtain ⟨b', more, split, broken', filler⟩ := crlf_of_isLineBreak broken
    rw [List.cons_append, List.cons_append, crlf_cons (by decide), crlf_append, crlf_append, split,
      inside.crlf_eq_self]
    have line := Filler.comment inside broken' (filler.append ih)
    simpa using line

theorem OpenFiller.crlf (h : OpenFiller s) : OpenFiller (crlf s) := by
  obtain ⟨u, body, rfl, front, inside⟩ := h
  refine ⟨Text.crlf u, body, ?_, front.crlf, inside⟩
  rw [crlf_append, crlf_cons (by decide), inside.crlf_eq_self]

theorem Trivia.crlf (h : Trivia s) : Trivia (crlf s) :=
  h.imp Filler.crlf OpenFiller.crlf

theorem InlineBlanks.crlf_eq_self (h : InlineBlanks s) : crlf s = s :=
  OneLine.crlf_eq_self fun c member => (h c member).2

theorem Separator.crlf (h : Separator s) : Separator (crlf s) := by
  obtain ⟨blanks, b, filler, rfl, inline, broken, isFiller⟩ := h
  obtain ⟨b', more, split, broken', moreFiller⟩ := crlf_of_isLineBreak broken
  refine ⟨blanks, b', more ++ Text.crlf filler, ?_, inline, broken',
    moreFiller.append isFiller.crlf⟩
  simp [split, inline.crlf_eq_self]

theorem Tail.crlf (h : Tail s) : Tail (crlf s) := by
  obtain ⟨blanks, rest, rfl, inline, trivia⟩ := h
  exact ⟨blanks, Text.crlf rest, by rw [crlf_append, inline.crlf_eq_self], inline, trivia.crlf⟩

end Verbatim.Text
