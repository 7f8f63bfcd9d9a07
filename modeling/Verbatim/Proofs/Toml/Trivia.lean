import Verbatim.Proofs.Text.Filler
import Verbatim.Proofs.Toml.Production

/-!
# Line breaks, comments and blanks

What the productions without content match. None of them makes a node. A line break is told by the
first character (`newline_eq_none`), a comment line reaches to the end of its line, and the trivia
between two lines of content are `Filler` (`trivia_repeats`). An inline comment ends before the
blanks that lead to the end of its line (`comment_match`).
-/

namespace Verbatim.Toml

open Peg Grammar Text

variable {depth : Nat} {mode : Mode} {pos : Nat} {s : List Char} {m : Match Rule}

/-! ### Line breaks -/

theorem newline_match (h : matcher depth newline mode pos s = some m) :
    IsLineBreak m.text ∧ m.trees = [] := by
  simp only [newline, Expr.first, lit, Expr.parseWith_alt, Expr.parseWith_word] at h
  rcases h with ⟨rest, _, rfl⟩ | ⟨_, ⟨rest, _, rfl⟩ | ⟨_, rest, _, rfl⟩⟩
  · exact ⟨Or.inl (by simp), rfl⟩
  · exact ⟨Or.inr (Or.inl (by simp)), rfl⟩
  · exact ⟨Or.inr (Or.inr (by simp)), rfl⟩

/-- There is no line break exactly where no character stands that ends a line. -/
theorem newline_eq_none : matcher depth newline mode pos s = none ↔
    ∀ c, s.head? = some c → isLineEnd c = false := by
  cases s with
  | nil => simp [newline, Expr.first, lit, Expr.parseWith]
  | cons c rest =>
    by_cases feed : c = '\n'
    · simp [newline, Expr.first, lit, Expr.parseWith, feed, isLineEnd]
    by_cases carriage : c = '\r'
    · simp [newline, Expr.first, lit, Expr.parseWith, carriage, isLineEnd]
    · simp [newline, Expr.first, lit, Expr.parseWith, isLineEnd, feed, carriage, Ne.symm feed,
        Ne.symm carriage]

theorem isSome_newline_cons (depth : Nat) (mode : Mode) (pos : Nat) (c : Char) (s : List Char) :
    (matcher depth newline mode pos (c :: s)).isSome = isLineEnd c := by
  cases ends : isLineEnd c with
  | true =>
    rw [Option.isSome_iff_ne_none, ne_eq, newline_eq_none]
    simp [ends]
  | false =>
    rw [← Bool.not_eq_true, Option.not_isSome_iff_eq_none, newline_eq_none]
    simp [ends]

/-- A lookahead for a line break leaves the characters of a class that end no line. -/
theorem absent_newline (member : Char → Bool) (front : skip grammar.blank mode s = ([], s)) :
    matcher depth (.seq (.absent newline) (.char member)) mode pos s =
      matcher depth (.char fun c => member c && !isLineEnd c) mode pos s := by
  rw [matcher, Expr.parseWith_absent_seq front]
  cases s with
  | nil => simp [Expr.parseWith]
  | cons c rest =>
    have ahead := isSome_newline_cons depth mode pos c rest
    cases ends : isLineEnd c <;> simp [ahead, ends, Expr.parseWith]

/-! ### Comment lines -/

/-- Nothing but spaces and tabs stands before the end of the line or of the text. -/
def AtLineEnd (s : List Char) : Prop :=
  ∀ c, (skip grammar.blank .spaced s).2.head? = some c → isLineEnd c = true

theorem indents_skip (mode : Mode) (s : List Char) : Indents (skip grammar.blank mode s).1 :=
  fun _ member => blank_of_mem_skip member

/-- A comment line reaches to the end of its line, perhaps without the blanks there. -/
theorem commentLine_match (h : matcher depth commentLine .spaced pos s = some m) :
    (∃ body, m.text = '#' :: body ∧ OneLine body) ∧ AtLineEnd m.rest ∧ m.trees = [] := by
  obtain ⟨first, second, hash, turns, rfl⟩ := Expr.parseWith_seq.mp h
  obtain ⟨rest, rfl, rfl⟩ := Expr.parseWith_word.mp hash
  have repeats := star_repeats (e := .seq (.absent newline) .any) rfl (skip_skip _ _ _) turns
  have single := repeats.of_single fun pos s m front found => by
    rw [Expr.any, absent_newline _ front] at found
    exact Expr.parseWith_char.mp found
  obtain ⟨pos', stops⟩ := repeats.exhausted
  refine ⟨⟨(skip grammar.blank .spaced rest).1 ++ second.text, by simp, ?_⟩, ?_, by simp [single.1]⟩
  · refine (indents_skip _ _).oneLine.append fun c member => ?_
    rcases single.2 c member with inside | ⟨_, indent⟩
    · simpa using inside
    · exact isLineEnd_of_isIndent indent
  · intro c ahead
    rw [Expr.any, absent_newline _ (skip_skip _ _ _), Expr.parseWith_char_eq_none] at stops
    simpa using stops c ahead

/-! ### Trivia -/

/-- Text between lines of content while it is read: whole lines, or with a comment at the end that
reaches to the end of its line. -/
def FillerUpTo (u s : List Char) : Prop := Filler u ∨ OpenFiller u ∧ AtLineEnd s

theorem FillerUpTo.trivia {u : List Char} (h : FillerUpTo u s) : Trivia u :=
  h.imp_right And.left

/-- In front of content only whole lines and indents are possible. -/
theorem FillerUpTo.filler {u : List Char} (h : FillerUpTo u s)
    (content : StartsIn (isLineEnd · = false) (skip grammar.blank .spaced s).2) :
    Filler (u ++ (skip grammar.blank .spaced s).1) := by
  rcases h with closed | ⟨_, ended⟩
  · exact closed.append (.of_indents (indents_skip _ _))
  · obtain ⟨c, first, inside⟩ := content
    have outside := ended c first
    rw [inside] at outside
    cases outside

theorem newline_turn {u b gap : List Char} (before : Trivia u) (blanks : Indents gap)
    (h : IsLineBreak b) : Filler (u ++ gap ++ b) := by
  rcases before with closed | ⟨v, body, rfl, front, inside⟩
  · exact (closed.append (.of_indents blanks)).append (.of_lineBreak h)
  · have line := front.append_comment (inside.append blanks.oneLine) h
    simpa using line

theorem trivia_turn {u : List Char} (before : FillerUpTo u s)
    (h : matcher depth trivia .spaced pos (skip grammar.blank .spaced s).2 = some m) :
    FillerUpTo (u ++ ((skip grammar.blank .spaced s).1 ++ m.text)) m.rest ∧ m.trees = [] := by
  rw [← List.append_assoc]
  rcases Expr.parseWith_alt.mp h with broken | ⟨_, comment⟩
  · obtain ⟨lineBreak, bare⟩ := newline_match broken
    exact ⟨Or.inl (newline_turn before.trivia (indents_skip _ _) lineBreak), bare⟩
  · obtain ⟨⟨body, text, inside⟩, ended, bare⟩ := commentLine_match comment
    have split := (matcher_covers comment).split
    have content : StartsIn (isLineEnd · = false) (skip grammar.blank .spaced s).2 :=
      ⟨'#', by simp [← split, text], by decide⟩
    refine ⟨Or.inr ⟨⟨_, body, by rw [text], before.filler content, inside⟩, ended⟩, bare⟩

/-- Reading trivia turn by turn. -/
theorem trivia_repeats {u : List Char} (before : FillerUpTo u s)
    (h : Repeats grammar.blank (matcher depth trivia) .spaced pos s m) :
    FillerUpTo (u ++ m.text) m.rest ∧ m.trees = [] := by
  induction h generalizing u with
  | stop _ => simpa [Match.empty] using before
  | turn found _ ih =>
    obtain ⟨after, bare⟩ := trivia_turn before found
    obtain ⟨later, none_later⟩ := ih after
    refine ⟨by simpa using later, by simp [bare, none_later]⟩

/-- The blanks that follow change nothing. -/
theorem FillerUpTo.skip {u : List Char} (h : FillerUpTo u s) :
    FillerUpTo (u ++ (skip grammar.blank .spaced s).1) (skip grammar.blank .spaced s).2 := by
  have blanks : Indents (Peg.skip grammar.blank .spaced s).1 := indents_skip .spaced s
  rcases h with closed | ⟨⟨v, body, rfl, front, inside⟩, ended⟩
  · exact Or.inl (closed.append (.of_indents blanks))
  · refine Or.inr ⟨⟨v, _, List.append_assoc _ _ _, front, inside.append blanks.oneLine⟩, ?_⟩
    rwa [AtLineEnd, skip_skip]

/-- All trivia that stand at a place, behind other trivia and blanks. -/
theorem star_trivia {u : List Char} (before : FillerUpTo u s)
    (h : matcher depth (.star trivia) .spaced pos (skip grammar.blank .spaced s).2 = some m) :
    FillerUpTo (u ++ (skip grammar.blank .spaced s).1 ++ m.text) m.rest ∧ m.trees = [] :=
  trivia_repeats before.skip (star_repeats (e := trivia) rfl (skip_skip _ _ _) h)

/-! ### Blanks behind a line of content -/

theorem lineTail_match (h : matcher depth lineTail .spaced pos
      (skip grammar.blank .spaced s).2 = some m) : InlineBlanks m.text ∧ m.trees = [] := by
  have repeats := star_repeats (e := inlineBlank) rfl (skip_skip _ _ _) h
  have single := repeats.of_single fun pos s m front found =>
    Expr.parseWith_char.mp ((absent_newline isBlank front).symm.trans found)
  refine ⟨fun c member => ?_, single.1⟩
  rcases single.2 c member with inside | ⟨_, indent⟩
  · simpa using inside
  · exact ⟨isBlank_of_isIndent indent, isLineEnd_of_isIndent indent⟩

/-! ### Inline comments -/

/-- Whether only blanks stand before the end of the line or of the text. -/
def endsLine : List Char → Bool
  | [] => true
  | c :: s => isLineEnd c || (isBlank c && endsLine s)

theorem endsLine_append {blanks : List Char} (h : InlineBlanks blanks) (s : List Char) :
    endsLine (blanks ++ s) = endsLine s := by
  induction blanks with
  | nil => rfl
  | cons c blanks ih =>
    have inline := h c (by simp)
    simp [endsLine, inline.1, inline.2, ih fun d member => h d (by simp [member])]

/-- The lookahead of a comment finds the blanks that lead to the end of the line, and nothing
else. -/
theorem isSome_commentBlanks (depth pos : Nat) (s : List Char) :
    (matcher depth commentBlanks .token pos s).isSome = endsLine s := by
  obtain ⟨blanks, turns⟩ : ∃ m, matcher depth (.star inlineBlank) .token pos s = some m :=
    ⟨_, rfl⟩
  have repeats := star_repeats (e := inlineBlank) rfl rfl turns
  have single := repeats.of_single fun pos s m front found =>
    Expr.parseWith_char.mp ((absent_newline isBlank front).symm.trans found)
  have inline : InlineBlanks blanks.text := by
    intro c member
    rcases single.2 c member with inside | ⟨impossible, _⟩
    · simpa using inside
    · cases impossible
  obtain ⟨pos', stops⟩ := repeats.exhausted
  have visible := Expr.parseWith_char_eq_none.mp ((absent_newline isBlank rfl).symm.trans stops)
  have split := (matcher_covers turns).split
  have behind : (matcher depth commentBlanks .token pos s).isSome =
      (matcher depth (.alt newline (.absent .any)) .token
        (pos + byteLength blanks.text) blanks.rest).isSome := by
    simp only [matcher, commentBlanks, Expr.all, Expr.first] at turns ⊢
    rw [Expr.parseWith, thenMatch, turns]
    cases found : matcher depth (.alt newline (.absent .any)) .token
      (pos + byteLength blanks.text) blanks.rest <;> simp [skip, found]
  rw [behind, ← split, endsLine_append inline]
  cases left : blanks.rest with
  | nil => simp [Expr.parseWith, Expr.any, newline, Expr.first, lit, endsLine]
  | cons c rest =>
    have notInline := visible c (by simp [skip, left])
    have ahead := isSome_newline_cons depth .token (pos + byteLength blanks.text) c rest
    cases ends : isLineEnd c with
    | true =>
      rw [ends] at ahead
      simp [Expr.parseWith, ahead, endsLine, ends]
    | false =>
      rw [ends, Option.isSome_eq_false_iff, Option.isNone_iff_eq_none] at ahead
      have notBlank : isBlank c = false := by simpa [ends] using notInline
      simp [Expr.parseWith, Expr.any, ahead, endsLine, ends, notBlank]

/-- The characters of a comment behind the number sign, one by one: each stands in front of more
than the blanks at the end of the line. -/
theorem commentBody_repeats
    (h : Repeats grammar.blank (matcher depth (.seq (.absent commentBlanks) .any)) .token pos s m) :
    OneLine m.text ∧ (m.text = [] ∧ m.rest = s ∨ EndsIn Visible m.text) ∧
      endsLine m.rest = true := by
  induction h with
  | @stop pos s exhausted =>
    refine ⟨(fun _ member => nomatch member), Or.inl ⟨rfl, rfl⟩, ?_⟩
    rw [matcher, Expr.parseWith_absent_seq rfl, isSome_commentBlanks] at exhausted
    cases s with
    | nil => rfl
    | cons c rest => simpa [skip, Expr.any, Expr.parseWith, Match.empty] using exhausted
  | @turn pos s here more found _ ih =>
    rw [matcher, Expr.parseWith_absent_seq rfl, isSome_commentBlanks] at found
    split at found
    · cases found
    next goesOn =>
      obtain ⟨c, rest, behind, _, rfl⟩ := Expr.parseWith_char.mp found
      obtain ⟨inside, last, ended⟩ := ih
      simp only [behind, endsLine, Bool.or_eq_true, Bool.and_eq_true, not_or, not_and,
        Bool.not_eq_true] at goesOn
      refine ⟨?_, Or.inr ?_, ended⟩
      · intro d member
        simp only [skip, List.nil_append, List.cons_append, List.mem_cons] at member
        rcases member with rfl | later
        · exact goesOn.1
        · exact inside d later
      · rcases last with ⟨empty, same⟩ | visible
        · -- the blanks that lead to the end of the line start behind this character
          have notBlank : isBlank c = false := by
            by_contra blank
            have continues : endsLine rest = false := goesOn.2 (by simpa using blank)
            rw [← show more.rest = rest from same, ended] at continues
            cases continues
          exact ⟨c, by simp [skip, empty], notBlank⟩
        · exact visible.append

/-- An inline comment is the number sign and the rest of its line, without the blanks at the end. -/
theorem comment_match (h : matcher depth comment mode pos s = some m) :
    (∃ body, m.text = '#' :: body ∧ OneLine body) ∧ EndsIn Visible m.text ∧
      endsLine m.rest = true := by
  obtain ⟨found, matched, rfl⟩ := Expr.parseWith_rule.mp h
  obtain ⟨first, second, hash, turns, rfl⟩ := Expr.parseWith_seq.mp matched
  obtain ⟨rest, rfl, rfl⟩ := Expr.parseWith_word.mp hash
  have repeats := star_repeats (e := .seq (.absent commentBlanks) .any) rfl rfl turns
  obtain ⟨inside, last, ended⟩ := commentBody_repeats repeats
  have text : "#".toList ++ (skip grammar.blank (RuleKind.token.inside mode) rest).1 ++
      second.text = '#' :: second.text := by
    simp [skip_fst_eq_nil (token_inside_ne_spaced mode)]
  split
  all_goals
    simp only [text]
    refine ⟨⟨second.text, rfl, inside⟩, ?_, ended⟩
    rcases last with ⟨empty, _⟩ | visible
    · exact ⟨'#', by simp [empty], by decide⟩
    · exact visible.append (s := ['#'])

end Verbatim.Toml
