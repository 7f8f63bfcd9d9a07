import Mathlib.Data.List.TakeWhile
import Verbatim.Text.Blank

/-!
# Text without content

What may stand between the lines of content of a document: blanks, line breaks and comment lines.
`Filler` is such text cut at the end of a line, `Trivia` allows a last comment without a line break,
and `Separator` and `Tail` are the two as they stand behind a line of content.
-/

namespace Verbatim.Text

/-- A line break: a line feed, a carriage return, or both in this order. -/
def IsLineBreak (b : List Char) : Prop := b = ['\n'] ∨ b = ['\r', '\n'] ∨ b = ['\r']

/-- Text without a line break in it. -/
def OneLine (s : List Char) : Prop := ∀ c ∈ s, isLineEnd c = false

/-- Spaces and tabs only. -/
def Indents (s : List Char) : Prop := ∀ c ∈ s, isIndent c = true

/-- Blanks that do not break the line. -/
def InlineBlanks (s : List Char) : Prop := ∀ c ∈ s, isBlank c = true ∧ isLineEnd c = false

/-- Spaces, tabs, line breaks and comment lines, where a line break ends each comment. -/
inductive Filler : List Char → Prop where
  | nil : Filler []
  | indent {c : Char} {s : List Char} (h : isIndent c = true) (more : Filler s) : Filler (c :: s)
  | lineBreak {b s : List Char} (h : IsLineBreak b) (more : Filler s) : Filler (b ++ s)
  | comment {body b s : List Char} (inside : OneLine body) (h : IsLineBreak b) (more : Filler s) :
      Filler ('#' :: body ++ b ++ s)

/-- Filler with one more comment behind it, which nothing ends. -/
def OpenFiller (s : List Char) : Prop :=
  ∃ u body, s = u ++ '#' :: body ∧ Filler u ∧ OneLine body

/-- Spaces, tabs, line breaks and comment lines. A line break or the end of the text ends each
comment. -/
def Trivia (s : List Char) : Prop := Filler s ∨ OpenFiller s

/-- What stands between two lines of content: the blanks behind the first, a line break, and
filler. -/
def Separator (s : List Char) : Prop :=
  ∃ blanks b filler, s = blanks ++ b ++ filler ∧ InlineBlanks blanks ∧ IsLineBreak b ∧ Filler filler

/-- What stands behind the last line of content: blanks and trivia. -/
def Tail (s : List Char) : Prop :=
  ∃ blanks rest, s = blanks ++ rest ∧ InlineBlanks blanks ∧ Trivia rest

theorem isLineEnd_of_isIndent {c : Char} (h : isIndent c = true) : isLineEnd c = false := by
  simp only [isIndent, Bool.or_eq_true, beq_iff_eq] at h
  rcases h with rfl | rfl <;> decide

theorem OneLine.append {s t : List Char} (left : OneLine s) (right : OneLine t) :
    OneLine (s ++ t) := by
  intro c member
  rcases List.mem_append.mp member with member | member
  · exact left c member
  · exact right c member

theorem inlineBlanks_nil : InlineBlanks [] := by
  intro c member
  cases member

theorem InlineBlanks.append {s t : List Char} (left : InlineBlanks s) (right : InlineBlanks t) :
    InlineBlanks (s ++ t) := by
  intro c member
  rcases List.mem_append.mp member with member | member
  · exact left c member
  · exact right c member

theorem Indents.oneLine {s : List Char} (h : Indents s) : OneLine s :=
  fun c member => isLineEnd_of_isIndent (h c member)

theorem Indents.inlineBlanks {s : List Char} (h : Indents s) : InlineBlanks s :=
  fun c member => ⟨isBlank_of_isIndent (h c member), isLineEnd_of_isIndent (h c member)⟩

/-- Where characters of a class end is told by the text. -/
theorem same_front {p : Char → Bool} {a b x y : List Char} {c d : Char}
    (inside : ∀ c ∈ a, p c = true) (inside' : ∀ c ∈ b, p c = true) (outside : p c = false)
    (outside' : p d = false) (same : a ++ c :: x = b ++ d :: y) : a = b ∧ c :: x = d :: y := by
  have fronts := congrArg (List.takeWhile p) same
  rw [List.takeWhile_append_of_pos inside, List.takeWhile_append_of_pos inside',
    List.takeWhile_cons_of_neg (by simp [outside]), List.takeWhile_cons_of_neg (by simp [outside']),
    List.append_nil, List.append_nil] at fronts
  subst fronts
  exact ⟨rfl, List.append_cancel_left same⟩

/-- What is no indent starts somewhere. -/
theorem exists_of_not_indents {lead : List Char} (h : ¬ Indents lead) :
    ∃ front c more, lead = front ++ c :: more ∧ Indents front ∧ isIndent c = false := by
  have first := List.head?_dropWhile_not isIndent lead
  cases rest : lead.dropWhile isIndent with
  | nil => exact absurd (List.dropWhile_eq_nil_iff.mp rest) h
  | cons c more =>
    rw [rest] at first
    refine ⟨lead.takeWhile isIndent, c, more, ?_, fun d => List.mem_takeWhile_imp, ?_⟩
    · rw [← rest, List.takeWhile_append_dropWhile]
    · simpa using first

namespace Filler

theorem append {s t : List Char} (left : Filler s) (right : Filler t) : Filler (s ++ t) := by
  induction left with
  | nil => exact right
  | indent h _ ih => exact .indent h ih
  | lineBreak h _ ih =>
    rw [List.append_assoc]
    exact .lineBreak h ih
  | comment inside h _ ih =>
    rw [List.append_assoc]
    exact .comment inside h ih

theorem of_indents {s : List Char} (h : Indents s) : Filler s := by
  induction s with
  | nil => exact .nil
  | cons c s ih =>
    exact .indent (h c (by simp)) (ih fun d member => h d (by simp [member]))

theorem of_lineBreak {b : List Char} (h : IsLineBreak b) : Filler b := by
  have alone := Filler.lineBreak h .nil
  rwa [List.append_nil] at alone

theorem append_comment {s body b : List Char} (front : Filler s) (inside : OneLine body)
    (h : IsLineBreak b) : Filler (s ++ '#' :: body ++ b) := by
  have line := front.append (.comment inside h .nil)
  simpa using line

end Filler

namespace Trivia

theorem append_indents {s gap : List Char} (h : Trivia s) (blanks : Indents gap) :
    Trivia (s ++ gap) := by
  rcases h with closed | ⟨u, body, rfl, front, inside⟩
  · exact Or.inl (closed.append (.of_indents blanks))
  · refine Or.inr ⟨u, body ++ gap, by simp, front, inside.append blanks.oneLine⟩

theorem tail {s : List Char} (h : Trivia s) : Tail s :=
  ⟨[], s, rfl, inlineBlanks_nil, h⟩

/-- Trivia that end in a line feed end no comment but with a line break. -/
theorem filler {s : List Char} (h : Trivia s) (ended : s.getLast? = some '\n') : Filler s := by
  rcases h with closed | ⟨v, body, rfl, _, inside⟩
  · exact closed
  · have last : ('#' :: body).getLast? = some '\n' := by simpa using ended
    have member := List.mem_of_getLast? last
    rcases List.mem_cons.mp member with impossible | inBody
    · cases impossible
    · cases inside _ inBody

end Trivia

end Verbatim.Text
