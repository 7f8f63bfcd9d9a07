import Verbatim.Proofs.Document.Legible

/-!
# Lines behind other lines

Filler and separators stay what they are when filler is put behind them. So the lines of one text
can stand behind the lines of another, with what is left of the first text in front of them
(`Continues.append`). What is left of a text may stand there if it ends in a line break and no
comment in it goes on with the last line of content (`Continues.closes`).
-/

namespace Verbatim

open Peg Text Toml

variable {previous : Option Bool} {es es' : List Expression} {e : Expression}
  {gap left left' u : List Char} {d d' : Document}

/-! ### More text behind a gap -/

theorem Before.append (h : Before previous gap) (more : Filler u) : Before previous (gap ++ u) := by
  cases previous with
  | none => exact Filler.append h more
  | some commented =>
    obtain ⟨blanks, b, filler, rfl, inline, broken, isFiller⟩ := h
    exact ⟨blanks, b, filler ++ u, by simp, inline, broken, isFiller.append more⟩

/-- A gap in front of a line can as well stand at the end, with trivia behind it. -/
theorem Before.after (h : Before previous gap) (more : Trivia u) : After previous (gap ++ u) := by
  cases previous with
  | none =>
    rcases more with closed | ⟨v, body, rfl, front, inside⟩
    · exact Or.inl (Filler.append h closed)
    · exact Or.inr ⟨gap ++ v, body, by simp, Filler.append h front, inside⟩
  | some commented =>
    refine ⟨?_, lineEnd_of_separator h commented u⟩
    obtain ⟨blanks, b, filler, rfl, inline, broken, isFiller⟩ := h
    refine ⟨blanks, b ++ filler ++ u, by simp, inline, ?_⟩
    have closed : Filler (b ++ filler) := .lineBreak broken isFiller
    rcases more with filled | ⟨v, body, rfl, front, inside⟩
    · exact Or.inl (closed.append filled)
    · exact Or.inr ⟨b ++ filler ++ v, body, by simp, closed.append front, inside⟩

/-- Blanks alone may stand behind the last line. -/
theorem after_blanks (blanks : InlineBlanks u) (commented : Bool) : After (some commented) u := by
  refine ⟨⟨u, [], by simp, blanks, Or.inl .nil⟩, ?_⟩
  rw [← List.append_nil u]
  cases commented with
  | false => exact Ahead.inlineBlanks blanks (fun _ blank => blank) Ahead.nil
  | true =>
    rw [LineEnd, endsLine_append blanks]
    rfl

/-! ### Lines behind lines -/

/-- The two spaces one after the other. -/
def Space.append (s t : Space) : Space := ⟨s.text ++ t.text⟩

@[simp] theorem Space.chars_append (s t : Space) : (s.append t).chars = s.chars ++ t.chars :=
  String.toList_append

/-- The lines with more text in front of the first. -/
def inFront (front : Space) : List Expression → List Expression
  | [] => []
  | e :: es => { e with before := front.append e.before } :: es

/-- A line of content behind a gap and an indent. -/
theorem Continues.cons {indent : List Char} (start : Before previous gap) (indents : Indents indent)
    (legible : e.Legible) (more : Continues (some e.comment.isSome) es left) :
    Continues previous ({ e with before := .ofList (gap ++ indent) } :: es) left := by
  refine ⟨?_, ⟨legible.markers, legible.item, legible.comment⟩, more⟩
  rw [Space.chars_ofList]
  exact start.append (.of_indents indents)

/-- The lines of two documents. What is left of the first stands in front of the first line of the
second, or of what is left of the second. -/
def Document.followedBy (d d' : Document) : Document :=
  { d with
    expressions := d.expressions ++ inFront d.trailing d'.expressions
    trailing := if d'.expressions = [] then d.trailing.append d'.trailing else d'.trailing }

/-- Lines from the start of a text can stand behind a gap. -/
theorem Continues.inFront {front rest : Space} (h : Continues none es rest.chars)
    (closed : Before previous front.chars) : Continues previous (inFront front es)
      (if es = [] then front.append rest else rest).chars := by
  cases es with
  | nil =>
    rw [if_pos rfl, Space.chars_append]
    exact closed.after h
  | cons e es =>
    obtain ⟨filler, legible, more⟩ := h
    rw [if_neg (List.cons_ne_nil e es)]
    refine ⟨?_, ⟨legible.markers, legible.item, legible.comment⟩, more⟩
    rw [Space.chars_append]
    exact closed.append filler

/-- Lines from the start of a text can stand behind other lines. -/
theorem Continues.append {front rest : Space} (h : Continues previous es front.chars)
    (closed : Before (if es = [] then previous else some true) front.chars)
    (h' : Continues none es' rest.chars) : Continues previous (es ++ Verbatim.inFront front es')
      (if es' = [] then front.append rest else rest).chars := by
  induction es generalizing previous with
  | nil => exact h'.inFront closed
  | cons e es ih =>
    obtain ⟨filler, legible, more⟩ := h
    refine ⟨filler, legible, ih more ?_⟩
    split <;> exact closed

theorem linesText_append (es es' : List Expression) :
    linesText (es ++ es') = linesText es ++ linesText es' := by
  simp [linesText]

theorem linesText_inFront (front rest : Space) (es : List Expression) :
    linesText (inFront front es) ++ (if es = [] then front.append rest else rest).chars =
      front.chars ++ (linesText es ++ rest.chars) := by
  cases es with
  | nil => simp [inFront, linesText_nil]
  | cons e es => simp [inFront, linesText_cons, Expression.body]

theorem Document.Legible.followedBy (h : d.Legible) (h' : d'.Legible)
    (closed : Before (if d.expressions = [] then none else some true) d.trailing.chars) :
    (d.followedBy d').Legible :=
  ⟨h.before, h.markers, h.lines.append closed h'.lines⟩

theorem Document.Legible.print_followedBy (h : d.Legible) (h' : d'.Legible)
    (closed : Before (if d.expressions = [] then none else some true) d.trailing.chars) :
    (d.followedBy d').print = d.print ++ d'.print := by
  rw [← String.toList_inj, String.toList_append, (h.followedBy h' closed).toList_print,
    h.toList_print, h'.toList_print]
  simp only [Document.followedBy, linesText_append, List.append_assoc, linesText_inFront]

/-! ### What is left of a text -/

/-- The text of a legible line ends in a character that is no blank. -/
theorem Expression.Legible.endsVisible (h : e.Legible) : EndsIn Visible e.body := by
  obtain ⟨t, line, _⟩ := h.exists_isLine 0
  have behind : LineEnd e.comment.isSome [] := by
    cases e.comment with
    | none => exact Ahead.nil
    | some c => rfl
  exact expression_endsVisible (line.takes behind le_rfl)

theorem Continues.linesText_endsVisible (h : Continues previous es left) (some_line : es ≠ []) :
    EndsIn Visible (linesText es) := by
  induction es generalizing previous with
  | nil => exact absurd rfl some_line
  | cons e es ih =>
    obtain ⟨_, legible, more⟩ := h
    rw [linesText_cons]
    cases es with
    | nil =>
      rw [linesText_nil, List.append_nil]
      exact legible.endsVisible.append
    | cons e' es => exact (ih more (List.cons_ne_nil e' es)).append

/-- More blanks may stand in front of a separator. -/
theorem separator_behind_blanks (inline : InlineBlanks gap) (h : Separator u) :
    Separator (gap ++ u) := by
  obtain ⟨blanks, b, filler, rfl, more, broken, isFiller⟩ := h
  exact ⟨gap ++ blanks, b, filler, by simp, inline.append more, broken, isFiller⟩

/-- Filler without a comment in its first line is that line alone, or goes on behind a line
break. -/
theorem blanks_or_separator_of_filler (h : Filler u)
    (plain : '#' ∉ u.takeWhile fun c => !isLineEnd c) : InlineBlanks u ∨ Separator u := by
  induction h with
  | nil => exact Or.inl inlineBlanks_nil
  | @indent c s blank more ih =>
    have front : Indents [c] := by
      intro d member
      obtain rfl := List.mem_singleton.mp member
      exact blank
    have later : '#' ∉ s.takeWhile fun c => !isLineEnd c := by
      intro member
      apply plain
      simp [isLineEnd_of_isIndent blank, member]
    rcases ih later with inline | separator
    · exact Or.inl (front.inlineBlanks.append inline)
    · exact Or.inr (separator_behind_blanks front.inlineBlanks separator)
  | lineBreak broken more => exact Or.inr ⟨[], _, _, by simp, inlineBlanks_nil, broken, more⟩
  | comment _ _ _ => exact absurd (by simp [isLineEnd]) plain

/-- Filler that ends in a line feed, without a comment in its first line. -/
theorem separator_of_filler (h : Filler u) (ended : u.getLast? = some '\n')
    (plain : '#' ∉ u.takeWhile fun c => !isLineEnd c) : Separator u := by
  rcases blanks_or_separator_of_filler h plain with inline | separator
  · cases (inline _ (List.mem_of_getLast? ended)).2
  · exact separator

theorem separator_of_tail (h : Tail u) (ended : u.getLast? = some '\n')
    (plain : '#' ∉ u.takeWhile fun c => !isLineEnd c) : Separator u := by
  obtain ⟨blanks, rest, rfl, inline, trivia⟩ := h
  have later : rest.getLast? = some '\n' := by
    cases rest with
    | nil =>
      rw [List.append_nil] at ended
      cases (inline _ (List.mem_of_getLast? ended)).2
    | cons c rest => simpa [List.getLast?_append] using ended
  rw [List.takeWhile_append_of_pos fun c member => by simp [(inline c member).2]] at plain
  have filler := trivia.filler later
  refine separator_behind_blanks inline (separator_of_filler filler later fun member => ?_)
  exact plain (List.mem_append_right blanks member)

/-- What is left of a text may stand behind any line, with a comment or without one, if no comment
in it stands behind the last line of content. -/
theorem after_of_tail (h : Tail u) (plain : '#' ∉ u.takeWhile fun c => !isLineEnd c)
    (commented : Bool) : After (some commented) u := by
  obtain ⟨blanks, rest, rfl, inline, trivia⟩ := h
  rw [List.takeWhile_append_of_pos fun c member => by simp [(inline c member).2]] at plain
  have plain_rest : '#' ∉ rest.takeWhile fun c => !isLineEnd c := by
    intro member
    exact plain (List.mem_append_right blanks member)
  rcases trivia with closed | ⟨v, body, rfl, front, inside⟩
  · rcases blanks_or_separator_of_filler closed plain_rest with more | separator
    · exact after_blanks (inline.append more) commented
    · have behind : Before (some commented) (blanks ++ rest) :=
        separator_behind_blanks inline separator
      have ended := behind.after (Or.inl Filler.nil)
      rwa [List.append_nil] at ended
  · -- the comment at the end is not in the first line, so a line break stands in front of it
    have plain_front : '#' ∉ v.takeWhile fun c => !isLineEnd c := by
      intro member
      apply plain_rest
      rw [List.takeWhile_append]
      split
      · exact List.mem_append_left _ ((List.takeWhile_prefix _).subset member)
      · exact member
    rcases blanks_or_separator_of_filler front plain_front with more | separator
    · refine absurd ?_ plain_rest
      rw [List.takeWhile_append_of_pos fun c member => by simp [(more c member).2]]
      simp [isLineEnd]
    · have behind : Before (some commented) (blanks ++ v) :=
        separator_behind_blanks inline separator
      have ended := behind.after (Or.inr ⟨[], body, rfl, .nil, inside⟩)
      rwa [List.append_assoc] at ended

/-- What is left of a text that ends in a line feed may stand in front of a line, if no comment in
it stands behind the last line of content. -/
theorem Continues.closes (h : Continues none es left)
    (ended : linesText es ++ left = [] ∨ (linesText es ++ left).getLast? = some '\n')
    (plain : es ≠ [] → '#' ∉ left.takeWhile fun c => !isLineEnd c) :
    Before (if es = [] then none else some true) left := by
  cases es with
  | nil =>
    rcases ended with nothing | last
    · obtain rfl : left = [] := by simpa [linesText_nil] using nothing
      exact Filler.nil
    · exact Trivia.filler h (by simpa [linesText_nil] using last)
  | cons e es =>
    have some_line := List.cons_ne_nil e es
    obtain ⟨c, last, visible⟩ := h.linesText_endsVisible some_line
    rw [if_neg some_line]
    refine separator_of_tail h.linesSpaced.2 ?_ (plain some_line)
    rcases ended with nothing | ended
    · rw [List.append_eq_nil_iff.mp nothing |>.1] at last
      cases last
    · cases left with
      | nil =>
        rw [List.append_nil, last] at ended
        obtain rfl := Option.some.inj ended
        cases visible
      | cons d left => simpa [List.getLast?_append] using ended

end Verbatim
