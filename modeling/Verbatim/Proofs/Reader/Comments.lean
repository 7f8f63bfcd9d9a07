import Verbatim.Proofs.Document.Edit
import Verbatim.Proofs.Reader.Accepted

/-!
# Inline comments

A number sign behind the content of a line starts the comment of the line if nothing but spaces and
tabs stands in between (`readString_captures`). Behind any other blank it does not: on the way to a
comment the grammar skips spaces and tabs and no other blanks. If such a text is accepted at all,
the line is the last one, and the blank and what follows it are left to the end of the document.
-/

namespace Verbatim

open Peg Text Toml

variable {previous : Option Bool} {es : List Expression} {e : Expression}
  {gap back lead left : List Char} {i : Nat} {d : Document}

/-! ### Texts with a number sign -/

/-- A number sign in the rest of a line stands behind a blank that is no space and no tab, and there
is no comment in the line. -/
theorem wide_of_lineEnd {commented : Bool} (h : LineEnd commented (lead ++ '#' :: back))
    (inside : OneLine lead) :
    commented = false ∧ ∃ c ∈ lead, isBlank c = true ∧ isIndent c = false := by
  cases commented with
  | true =>
    have sign : EndsIn Visible (lead ++ ['#']) := ⟨'#', by simp, by decide⟩
    have hash : OneLine ['#'] := by simp [OneLine, isLineEnd]
    have apart := endsLine_eq_false (inside.append hash) sign back
    rw [List.append_assoc] at apart
    exact absurd (h.symm.trans apart) (by decide)
  | false =>
    refine ⟨rfl, ?_⟩
    by_cases indents : Indents lead
    · have skipped : skip grammar.blank .spaced (lead ++ '#' :: back) = (lead, '#' :: back) :=
        skip_indents indents fun c first => by
          obtain rfl : '#' = c := Option.some.inj first
          decide
      exact absurd (h '#' (by rw [skipped]; rfl)) (by decide)
    · obtain ⟨front, c, more, rfl, indents, other⟩ := exists_of_not_indents indents
      have skipped : skip grammar.blank .spaced (front ++ c :: (more ++ '#' :: back)) =
          (front, c :: (more ++ '#' :: back)) :=
        skip_indents indents fun d first => by
          obtain rfl : c = d := Option.some.inj first
          exact other
      rw [List.append_assoc, List.cons_append] at h
      exact ⟨c, by simp, h c (by rw [skipped]; rfl), other⟩

/-- A separator has no number sign in front of its first line break. -/
theorem hash_not_in_separator (h : Separator gap) :
    '#' ∉ gap.takeWhile fun c => !isLineEnd c := by
  obtain ⟨blanks, b, filler, rfl, inline, broken, _⟩ := h
  rw [List.append_assoc, List.takeWhile_append_of_pos fun c member => by simp [(inline c member).2]]
  have stops : (b ++ filler).takeWhile (fun c => !isLineEnd c) = [] := by
    rcases broken with rfl | rfl | rfl <;> rfl
  rw [stops, List.append_nil]
  intro member
  cases (inline _ member).1

/-- Blanks in front of a number sign are not the start of a separator. -/
theorem separator_ne_hash (h : Separator gap) (inline : InlineBlanks lead) (x : List Char) :
    gap ++ x ≠ lead ++ '#' :: back := by
  obtain ⟨blanks, b, filler, rfl, inline', broken, _⟩ := h
  intro same
  obtain ⟨c, more, broke, ends⟩ : ∃ c more, b = c :: more ∧ isLineEnd c = true := by
    rcases broken with rfl | rfl | rfl
    all_goals exact ⟨_, _, rfl, rfl⟩
  subst broke
  have fronts := same_front (p := fun c => isBlank c && !isLineEnd c) (a := blanks) (b := lead)
    (c := c) (d := '#') (x := more ++ (filler ++ x)) (y := back)
    (fun c member => by simp [inline' c member]) (fun c member => by simp [inline c member])
    (by simp [ends]) (by decide) (by simpa using same)
  obtain rfl := (List.cons.inj fronts.2).1
  cases ends

/-! ### What stands behind the content of a line -/

/-- The lines behind a line go on behind it. -/
theorem Continues.behind (h : Continues previous es left) (found : es[i]? = some e) :
    Continues (some e.comment.isSome) (es.drop (i + 1)) left := by
  induction es generalizing previous i with
  | nil => cases found
  | cons first es ih =>
    obtain ⟨_, _, more⟩ := h
    cases i with
    | zero =>
      obtain rfl : first = e := Option.some.inj found
      exact more
    | succ i => exact ih more found

namespace Document

/-- The text up to the end of the content of a line. -/
def upToContent (d : Document) (i : Nat) (e : Expression) : List Char :=
  Piece.chars (d.piecesBefore i ++ .ofSpace e.before :: (e.item.map Item.pieces).getD [])

/-- The text behind the content of a line: its comment, the lines behind it, and the end. -/
def behindContent (d : Document) (i : Nat) (e : Expression) : List Char :=
  Piece.chars (e.commentPieces ++ d.piecesBehind i)

/-- Wherever gaps of a kind and a number sign stand behind the content of a line, the line has the
comment that starts at the number sign. -/
def Captures (kind : List Char → Prop) (d : Document) : Prop :=
  ∀ i e gap back, d.expressions[i]? = some e → kind gap → d.behindContent i e = gap ++ '#' :: back →
    ∃ c body rest, e.comment = some c ∧ c.before.chars = gap ∧ c.text.toList = '#' :: body ∧
      back = body ++ rest

theorem chars_around_content (found : d.expressions[i]? = some e) :
    d.upToContent i e ++ d.behindContent i e = d.print.toList := by
  have pieces := pieces_setLine found e
  rw [setLine_self found] at pieces
  rw [print, Piece.toList_join, pieces]
  simp [upToContent, behindContent, Expression.pieces, Expression.commentPieces]

theorem behindContent_eq (d : Document) (i : Nat) (e : Expression) :
    d.behindContent i e = Piece.chars e.commentPieces ++
      (linesText (d.expressions.drop (i + 1)) ++ d.trailing.chars) := by
  simp [behindContent, piecesBehind, linesText, Piece.ofSpace]

/-- Behind the content of a line, blanks and a number sign are the comment of the line, or stand at
the end of the document with a blank that is no space and no tab. -/
theorem Legible.behindContent_cases (h : d.Legible) (found : d.expressions[i]? = some e)
    (inline : InlineBlanks gap) (behind : d.behindContent i e = gap ++ '#' :: back) :
    (Indents gap ∧ ∃ c body rest, e.comment = some c ∧ c.before.chars = gap ∧
      c.text.toList = '#' :: body ∧ back = body ++ rest) ∨
    (¬ Indents gap ∧ i + 1 = d.expressions.length ∧ e.comment = none ∧
      d.trailing.chars = gap ++ '#' :: back) := by
  have legible := (h.lines.line found).2
  have more := h.lines.behind found
  rw [behindContent_eq] at behind
  cases noted : e.comment with
  | some c =>
    have comment := legible.comment c noted
    obtain ⟨body, text, _⟩ := comment.text.hash
    have sign : ∀ {s : List Char}, InlineBlanks s → ∀ c ∈ s, (c != '#') = true := by
      intro s inline c member
      rw [bne_iff_ne]
      rintro rfl
      cases (inline _ member).1
    obtain ⟨front, rest⟩ := same_front (p := (· != '#')) (a := c.before.chars) (b := gap)
      (c := '#') (d := '#') (y := back) (sign comment.before.inlineBlanks) (sign inline) rfl rfl
      (by simpa [Expression.commentPieces, noted, Comment.pieces, Piece.ofSpace, text] using behind)
    exact Or.inl ⟨front ▸ comment.before, c, body, _, rfl, front, text, (List.cons.inj rest).2.symm⟩
  | none =>
    rw [noted] at more
    have rest : linesText (d.expressions.drop (i + 1)) ++ d.trailing.chars =
        gap ++ '#' :: back := by
      simpa [Expression.commentPieces, noted] using behind
    have lineEnd := more.lineEnd
    rw [rest] at lineEnd
    obtain ⟨_, c, member, _, wide⟩ := wide_of_lineEnd lineEnd fun c member => (inline c member).2
    refine Or.inr ⟨fun indents => ?_, ?_⟩
    · rw [indents c member] at wide
      cases wide
    · cases later : d.expressions.drop (i + 1) with
      | nil =>
        have inside := (List.getElem?_eq_some_iff.mp found).1
        have outside := List.drop_eq_nil_iff.mp later
        exact ⟨by omega, rfl, by simpa [later, linesText_nil] using rest⟩
      | cons e' es =>
        rw [later] at more rest
        rw [linesText_cons] at rest
        simp only [List.append_assoc] at rest
        exact absurd rest (separator_ne_hash more.1 inline _)

/-- Where a document ends behind a line, a number sign in the rest of that line stands behind a
blank that is no space and no tab. -/
theorem Legible.hash_in_trailing (h : d.Legible) (some_line : d.expressions ≠ [])
    (ends : d.trailing.chars = lead ++ '#' :: back) (inside : OneLine lead) :
    ∃ c ∈ lead, isBlank c = true ∧ isIndent c = false := by
  have last : d.expressions[d.expressions.length - 1]? =
      some (d.expressions.getLast some_line) := by
    rw [List.getLast_eq_getElem, List.getElem?_eq_getElem]
  have more := h.lines.behind last
  have positive := List.length_pos_iff.mpr some_line
  rw [List.drop_eq_nil_of_le (by omega)] at more
  have lineEnd := more.2
  rw [ends] at lineEnd
  exact (wide_of_lineEnd lineEnd inside).2

end Document

namespace Reader

/-- Behind the content of a line, a number sign behind spaces and tabs starts the comment of the
line. Behind other blanks it does not; it then stands at the end of the document, whose last line
this is. So no number sign stands in the rest of a line but in comments and behind such a blank. -/
theorem readString_captures (options : Options) (s : String) (d : Document)
    (found : readString options s = .ok d) :
    (∀ i e, d.expressions[i]? = some e →
      s.toList = d.upToContent i e ++ d.behindContent i e) ∧
    d.Captures Indents ∧
    (∀ i e gap back, d.expressions[i]? = some e → InlineBlanks gap → ¬ Indents gap →
      d.behindContent i e = gap ++ '#' :: back →
      i + 1 = d.expressions.length ∧ e.comment = none ∧ d.trailing.chars = gap ++ '#' :: back) ∧
    (∀ i e, d.expressions[i + 1]? = some e →
      '#' ∉ e.before.chars.takeWhile fun c => !isLineEnd c) ∧
    (d.expressions ≠ [] → ∀ lead back, d.trailing.chars = lead ++ '#' :: back → OneLine lead →
      ∃ c ∈ lead, isBlank c = true ∧ isIndent c = false) := by
  obtain ⟨prints, legible⟩ := fresh_of_readString found
  refine ⟨?_, ?_, ?_, ?_, ?_⟩
  · intro i e line
    rw [Document.chars_around_content line, prints]
  · intro i e gap back line indents behind
    rcases legible.behindContent_cases line indents.inlineBlanks behind with ⟨_, captured⟩ | other
    · exact captured
    · exact absurd indents other.1
  · intro i e gap back line inline wide behind
    rcases legible.behindContent_cases line inline behind with ⟨indents, _⟩ | ⟨_, left⟩
    · exact absurd indents wide
    · exact left
  · intro i e line
    exact hash_not_in_separator (legible.lines.line line).1
  · intro some_line lead back ends inside
    exact legible.hash_in_trailing some_line ends inside

theorem readString_captures_tab :
    ∃ d, readString {} "a = 1\t# b\n[c]\u3000" = .ok d ∧ d.Captures Indents := by
  obtain ⟨d, found⟩ := exists_ok_of_isOk (x := readString {} "a = 1\t# b\n[c]\u3000")
    (by decide +kernel)
  exact ⟨d, found, (readString_captures {} _ d found).2.1⟩

/-- Behind an ideographic space a comment is not captured. -/
theorem readString_not_captures_wide :
    ∃ d, readString { computeChecksum := false } "a = 1\u3000# c" = .ok d ∧
      ¬ d.Captures InlineBlanks ∧ d.expressions ≠ [] ∧
      '#' ∈ d.trailing.chars.takeWhile fun c => !isLineEnd c := by
  let e := pairLine "a" "1" .integer (some (.integer 1)) none
  let d := singleLine e ⟨"\u3000# c"⟩
  have found : readString { computeChecksum := false } "a = 1\u3000# c" = .ok d :=
    ok_of_toOption (by decide +kernel)
  refine ⟨d, found, ?_, List.cons_ne_nil _ _, by decide +kernel⟩
  intro captures
  have wide : InlineBlanks ['\u3000'] := by
    intro c member
    obtain rfl := List.mem_singleton.mp member
    decide
  obtain ⟨c, _, _, noted, _⟩ :=
    captures 0 _ ['\u3000'] [' ', 'c'] rfl wide (by decide +kernel)
  cases noted

end Reader

end Verbatim
