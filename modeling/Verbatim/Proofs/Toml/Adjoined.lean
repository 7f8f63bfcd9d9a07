import Verbatim.Proofs.Toml.Rejected

/-!
# Two lines of content on one line

Content with other content behind it, and only spaces and tabs between them, is no document. The
first is taken as it is alone: no blank joins it to what follows, since no key starts like a time
(`unjoined_content`). What is expected in front of the second is the end of the text or a comment,
and nothing else is reported (`parse_adjoined`).
-/

namespace Verbatim.Toml

open Peg Grammar Text

variable {depth : Nat} {mode : Mode} {pos : Nat} {s w x y gap : List Char} {m : Match Rule}
  {ts : List (Peg.Tree Rule)} {node : Nat → Peg.Tree Rule}

/-! ### How content starts -/

/-- A character that a key or a header starts with. -/
abbrev OpensContent (c : Char) : Prop := (bareChar c = true ∨ c = '"' ∨ c = '\'') ∨ c = '['

theorem OpensContent.visible {c : Char} (h : OpensContent c) : Visible c := by
  rcases h with (bare | rfl | rfl) | rfl
  · exact visible_of_keyChar bare
  all_goals decide

/-- A line of content starts with such a character. -/
theorem OpensContent.startsContent {c : Char} (h : OpensContent c) : StartsContent c := by
  have visible := h.visible
  refine ⟨Bool.eq_false_iff.mpr fun indent => ?_, Bool.eq_false_iff.mpr fun ends => ?_, ?_⟩
  · rw [Visible, isBlank_of_isIndent indent] at visible
    cases visible
  · rw [Visible, isBlank_of_isLineEnd ends] at visible
    cases visible
  · rintro rfl
    revert h
    decide

theorem IsContent.startsIn (h : IsContent w node) : StartsIn OpensContent w := by
  have taken : (matcher w.length lineContent).Takes .spaced 0 w [] [node 0] :=
    h.takes .nil le_rfl 0
  have pair : keyValue.StartsIn OpensContent := keyValue_startsIn.mono fun _ => .inl
  have bracket : table.StartsIn OpensContent := ⟨⟨'[', rfl, .inr rfl⟩, ⟨'[', rfl, .inr rfl⟩⟩
  have starts : lineContent.StartsIn OpensContent := ⟨pair, bracket⟩
  exact Expr.text_startsIn starts taken

/-- A key without quotes has only characters of such keys. -/
theorem bare_of_unquotedKey (h : (matcher depth unquotedKey).Takes mode pos w x ts) :
    ∀ c ∈ w, bareChar c = true := by
  obtain ⟨_, body, _⟩ := Expr.takes_rule.mp h
  obtain ⟨t, u, _, _, rfl, _, first, turns⟩ :=
    Expr.takes_seq_tight (covers depth) tight_token body
  obtain ⟨c, rfl, bare, _⟩ := Expr.takes_char.mp first
  have repeats := star_repeats rfl (skip_of_ne_spaced tight_token _) turns
  have single := repeats.of_single fun pos s m front found => Expr.parseWith_char.mp found
  intro d member
  rcases List.mem_cons.mp member with rfl | later
  · exact bare
  · exact (single.2 d later).resolve_right fun spaced => tight_token spaced.1

/-- A key starts with its first part, and no colon stands behind that part. -/
theorem exists_firstPart (h : (matcher depth key).Takes .spaced pos w x ts) (behind : KeyEnd x) :
    ∃ t z ts', w ++ x = t ++ z ∧ (matcher depth simpleKey).Takes .spaced pos t z ts' ∧
      Ahead (fun c => c = '.' ∨ c = '=' ∨ c = ']') z := by
  obtain ⟨_, body, _⟩ := Expr.takes_rule.mp h
  rcases Expr.takes_alt.mp body with dotted | ⟨_, simple⟩
  · obtain ⟨_, parts, _⟩ := Expr.takes_rule.mp dotted
    obtain ⟨t, u, _, _, rfl, _, first, others⟩ :=
      Expr.takes_seq_tight (covers depth) tight_adjacent parts
    obtain ⟨_, _, part, _⟩ := Expr.parseWith_seq.mp others
    obtain ⟨blanks, rest, split, indents⟩ := ahead_dottedPart part
    refine ⟨t, u ++ x, _, List.append_assoc .., first, ?_⟩
    rw [split]
    exact (ahead_bracket indents rfl).mono fun _ => .inl
  · exact ⟨w, x, _, rfl, simple, behind.mono fun _ => .inr⟩

theorem exists_of_partialTime (h : matcher depth partialTime .token pos s = some m) :
    ∃ c d rest, s = c :: d :: ':' :: rest ∧ c.isDigit = true ∧ d.isDigit = true := by
  obtain ⟨hour, _, digits, colon, _⟩ := Expr.parseWith_seq.mp h
  obtain ⟨_, _, first, second, rfl⟩ := Expr.parseWith_seq.mp digits
  obtain ⟨c, _, rfl, digit, rfl⟩ := Expr.parseWith_char.mp first
  obtain ⟨d, _, split, digit', rfl⟩ := Expr.parseWith_char.mp second
  obtain ⟨_, _, sign, _⟩ := Expr.parseWith_seq.mp colon
  obtain ⟨rest, split', _⟩ := Expr.parseWith_word.mp sign
  simp only [skip_of_ne_spaced tight_token] at split split'
  exact ⟨c, d, rest, by rw [split, split']; rfl, digit, digit'⟩

/-- A colon is neither in the first part of a key nor behind it. -/
theorem time_ne_key {c d : Char} {rest t z : List Char} (bare : ∀ e ∈ [c, d], bareChar e = true)
    (inside : ∀ e ∈ t, bareChar e = true) (ahead : Ahead (fun c => c = '.' ∨ c = '=' ∨ c = ']') z) :
    c :: d :: ':' :: rest ≠ t ++ z := by
  intro same
  cases z with
  | nil =>
    have colon := inside ':' (by rw [List.append_nil] at same; simp [← same])
    cases colon
  | cons e z =>
    have known := ahead.head (List.head?_cons)
    have other : bareChar e = false := by
      rcases known with blank | rfl | rfl | rfl
      · exact not_bareChar_of_isIndent blank
      all_goals decide
    obtain ⟨_, behind⟩ := same_front bare inside (by decide) other
      (show [c, d] ++ ':' :: rest = t ++ e :: z from same)
    obtain ⟨rfl, _⟩ := List.cons_eq_cons.mp behind
    rcases known with blank | impossible | impossible | impossible
    · cases blank
    all_goals cases impossible

/-- No content starts with a time. -/
theorem IsContent.untimed (h : IsContent y node) (depth pos : Nat) :
    matcher depth partialTime .token pos y = none := by
  rw [Option.eq_none_iff_forall_ne_some]
  intro m time
  obtain ⟨c, d, rest, text, digit, digit'⟩ := exists_of_partialTime time
  have bare : ∀ e ∈ [c, d], bareChar e = true := by
    simp [bareChar, Char.isAlphanum, digit, digit']
  cases h with
  | header spelled =>
    have bracket : table.StartsIn (· = '[') := ⟨⟨'[', rfl, rfl⟩, ⟨'[', rfl, rfl⟩⟩
    obtain ⟨e, first, rfl⟩ := Expr.text_startsIn bracket spelled
    rw [text] at first
    obtain rfl := Option.some.inj first
    cases digit
  | @pair k g₁ g₂ v tk tv parts =>
    have keyEnd : KeyEnd (g₁ ++ '=' :: (g₂ ++ v)) := KeyEnd.of_cons parts.indents.1 _ (Or.inl rfl)
    have taken : (matcher k.length key).Takes .spaced 0 k (g₁ ++ '=' :: (g₂ ++ v)) _ :=
      parts.key.takes keeps_key Ahead.nil keyEnd le_rfl 0
    obtain ⟨t, z, _, split, first, ahead⟩ := exists_firstPart taken keyEnd
    have same : c :: d :: ':' :: rest = t ++ z := text.symm.trans split
    obtain ⟨_, form, _⟩ := Expr.takes_rule.mp first
    rcases Expr.takes_alt.mp form with quoted | ⟨_, unquoted⟩
    · obtain ⟨e, head, other⟩ := (Expr.text_startsIn quotedKey_startsIn quoted).append (t := z)
      rw [← same] at head
      obtain rfl := Option.some.inj head
      rw [bare c (List.mem_cons_self ..)] at other
      cases other
    · exact time_ne_key bare (bare_of_unquotedKey unquoted) ahead same

/-- Blanks and content behind them do not go on with a value. -/
theorem unjoined_content (h : IsContent y node) (blanks : Indents gap) (apart : gap ≠ []) :
    Unjoined (gap ++ y) := by
  obtain ⟨b, gap, rfl⟩ := List.exists_cons_of_ne_nil apart
  constructor
  · intro c first
    obtain rfl : b = c := Option.some.inj first
    exact closesValue_of_isBlank (isBlank_of_isIndent (blanks b (List.mem_cons_self ..)))
  · intro later split depth pos
    obtain ⟨_, rfl⟩ := List.cons_eq_cons.mp split
    cases gap with
    | nil => exact h.untimed depth pos
    | cons c gap =>
      have digits : partialTime.StartsIn (Char.isDigit · = true) := fun c digit => digit
      refine Expr.eq_none_of_startsIn (covers depth) digits fun d first digit => ?_
      obtain rfl : c = d := Option.some.inj first
      have blank := isBlank_of_isIndent (blanks c (by simp))
      rw [visible_of_isDigit digit] at blank
      cases blank

/-! ### The line with both -/

theorem attempts_comment (nothing : matcher depth comment .spaced pos s = none)
    (known : Attempts Rule) : tracker depth comment .spaced pos s known =
      known.report .comment pos (known.countAt pos) :=
  Expr.attempts_rule_of_quiet (by decide) rfl nothing known

/-- Content, then spaces and tabs, and then other content. -/
structure Adjoined (w gap y : List Char) : Prop where
  first : ∃ node, IsContent w node
  second : ∃ node, IsContent y node
  indents : Indents gap
  apart : gap ≠ []

namespace Adjoined

theorem opens (h : Adjoined w gap y) : StartsIn OpensContent y :=
  have ⟨_, content⟩ := h.second
  content.startsIn

theorem cut (h : Adjoined w gap y) : skip grammar.blank .spaced (gap ++ y) = (gap, y) := by
  obtain ⟨c, first, opens⟩ := h.opens
  refine skip_indents h.indents fun d same => ?_
  obtain rfl := Option.some.inj (first.symm.trans same)
  exact opens.startsContent.1

/-- The first content is taken as it is alone. -/
theorem takes_content (h : Adjoined w gap y) (enough : w.length ≤ depth) (pos : Nat) :
    ∃ t, (matcher depth lineContent).Takes .spaced pos w (gap ++ y) [t] := by
  obtain ⟨_, first⟩ := h.first
  obtain ⟨_, second⟩ := h.second
  exact ⟨_, first.takes (unjoined_content second h.indents h.apart) enough pos⟩

theorem comment_eq_none (h : Adjoined w gap y) (depth pos : Nat) :
    matcher depth comment .spaced pos y = none := by
  obtain ⟨c, first, opens⟩ := h.opens
  have hash : comment.StartsIn (· = '#') := ⟨'#', rfl, rfl⟩
  refine Expr.eq_none_of_startsIn (covers depth) hash fun d same => ?_
  obtain rfl := Option.some.inj (first.symm.trans same)
  exact opens.startsContent.2.2

/-- The first content is a line without a comment. -/
theorem takes_expression (h : Adjoined w gap y) (enough : w.length ≤ depth) (pos : Nat) :
    matcher depth (.seq lineContent comment) .spaced pos (w ++ (gap ++ y)) = none ∧
      ∃ t, (matcher depth expression).Takes .spaced t.start t.text (gap ++ y) [t] ∧
        t.start = pos ∧ t.text = w := by
  obtain ⟨t, taken⟩ := h.takes_content enough pos
  have bare : matcher depth (.seq lineContent comment) .spaced pos (w ++ (gap ++ y)) = none := by
    refine (Expr.seq_eq_none_iff taken).mpr ?_
    simp only [h.cut]
    exact h.comment_eq_none depth _
  exact ⟨bare, .node .expression pos w [t],
    Expr.takes_rule.mpr ⟨_, Expr.takes_alt.mpr (Or.inr ⟨bare, taken⟩), rfl⟩, rfl, rfl⟩

theorem front (h : Adjoined w gap y) :
    skip grammar.blank .spaced (w ++ (gap ++ y)) = ([], w ++ (gap ++ y)) := by
  obtain ⟨_, content⟩ := h.first
  obtain ⟨c, first, opens⟩ := content.startsIn.append (t := gap ++ y)
  refine skip_eq_self .spaced fun d same => ?_
  obtain rfl := Option.some.inj (first.symm.trans same)
  exact opens.startsContent.1

theorem gap_pos (h : Adjoined w gap y) : 0 < byteLength gap := by
  obtain ⟨c, gap, rfl⟩ := List.exists_cons_of_ne_nil h.apart
  exact Nat.add_pos_left c.utf8Size_pos _

/-- No failure in the first content is reported behind its end. -/
theorem within_content (h : Adjoined w gap y) (enough : w.length ≤ depth) :
    (tracker depth lineContent).Within .spaced 0 (w ++ (gap ++ y)) (byteLength w) := by
  obtain ⟨_, taken⟩ := h.takes_content enough 0
  have inside := inside_lineContent trivial h.front taken
  rwa [Nat.zero_add] at inside

/-- With a comment tried behind the first content, the comment alone is missed. -/
theorem attempts_commented (h : Adjoined w gap y) (enough : w.length ≤ depth) :
    tracker depth (.seq lineContent comment) .spaced 0 (w ++ (gap ++ y)) Attempts.none =
      ⟨byteLength (w ++ gap), [.comment]⟩ := by
  obtain ⟨_, taken⟩ := h.takes_content enough 0
  have room := h.gap_pos
  have near := (h.within_content enough Attempts.none).le
  generalize known : tracker depth lineContent .spaced 0 (w ++ (gap ++ y)) Attempts.none = before
    at near
  calc tracker depth (.seq lineContent comment) .spaced 0 (w ++ (gap ++ y)) Attempts.none
    _ = tracker depth comment .spaced (0 + byteLength w + byteLength gap) y before := by
        rw [← known]
        exact Expr.attempts_seq_of_takes taken h.cut _
    _ = before.report .comment _ (before.countAt _) :=
        attempts_comment (h.comment_eq_none depth _) _
    _ = ⟨0 + byteLength w + byteLength gap, [.comment]⟩ := Attempts.report_behind _ _
        (near.trans_lt (by simp [Attempts.none]; omega))
    _ = ⟨byteLength (w ++ gap), [.comment]⟩ := by rw [byteLength_append, Nat.zero_add]

/-- Only the comment is missed behind the first content. What fails before lies within the content,
and so does what the content without a comment tries once more. -/
theorem attempts_expression (h : Adjoined w gap y) (enough : w.length ≤ depth) :
    tracker depth expression .spaced 0 (w ++ (gap ++ y)) Attempts.none =
      ⟨byteLength (w ++ gap), [.comment]⟩ := by
  obtain ⟨bare, line, matched, start, text⟩ := h.takes_expression enough 0
  rw [start, text] at matched
  obtain ⟨_, body, _⟩ := Expr.takes_rule.mp matched
  have room := h.gap_pos
  calc tracker depth expression .spaced 0 (w ++ (gap ++ y)) Attempts.none
    _ = tracker depth (.alt (.seq lineContent comment) lineContent) .spaced 0 (w ++ (gap ++ y))
          Attempts.none := Expr.attempts_rule_of_some body _
    _ = tracker depth lineContent .spaced 0 (w ++ (gap ++ y))
          (tracker depth (.seq lineContent comment) .spaced 0 (w ++ (gap ++ y)) Attempts.none) :=
        Expr.attempts_alt_of_none bare _
    _ = tracker depth lineContent .spaced 0 (w ++ (gap ++ y))
          ⟨byteLength (w ++ gap), [.comment]⟩ := by rw [h.attempts_commented enough]
    _ = ⟨byteLength (w ++ gap), [.comment]⟩ := (h.within_content enough _).same (by simp [room])

theorem dropBlanks_eq (h : Adjoined w gap y) : dropBlanks (gap ++ y) = y := by
  obtain ⟨c, first, opens⟩ := h.opens
  rw [dropBlanks_append h.indents.inlineBlanks]
  refine dropBlanks_eq_self fun d same blank => ?_
  obtain rfl := Option.some.inj (first.symm.trans same)
  rw [opens.visible] at blank
  cases blank

/-- The second content is not on a line of its own. -/
theorem nextLine_silent (h : Adjoined w gap y) (depth pos : Nat) :
    matcher depth nextLine .spaced pos y = none ∧
      ∀ known, tracker depth nextLine .spaced pos y known = known := by
  obtain ⟨c, first, opens⟩ := h.opens
  have noBreak : matcher depth newline .spaced pos y = none := by
    refine newline_eq_none.mpr fun d same => ?_
    obtain rfl := Option.some.inj (first.symm.trans same)
    exact opens.startsContent.2.1
  exact ⟨Expr.seq_eq_none_of_left noBreak, fun known =>
    (Expr.attempts_seq_eq noBreak known).trans (Expr.attempts_of_quiet rfl pos y known)⟩

/-- The lines of the text are the first content alone, and the comment is all they miss. -/
theorem attempts_lines (h : Adjoined w gap y) (enough : w.length ≤ depth) :
    tracker depth contentLines .spaced 0 (w ++ (gap ++ y)) Attempts.none =
      ⟨byteLength (w ++ gap), [.comment]⟩ := by
  obtain ⟨_, _, matched, start, text⟩ := h.takes_expression enough 0
  rw [start, text] at matched
  obtain ⟨tail, tailMatch, _, behind, _⟩ :=
    exists_lineTail depth (0 + byteLength w + byteLength gap) (gap ++ y)
  rw [h.cut] at tailMatch
  rw [h.dropBlanks_eq] at behind
  calc tracker depth contentLines .spaced 0 (w ++ (gap ++ y)) Attempts.none
    _ = tracker depth (.seq lineTail (.star nextLine)) .spaced (0 + byteLength w + byteLength gap) y
          ⟨byteLength (w ++ gap), [.comment]⟩ := by
        rw [← h.attempts_expression enough]
        exact Expr.attempts_seq_of_takes matched h.cut _
    _ = tracker depth (.star nextLine) .spaced _ (skip grammar.blank .spaced tail.rest).2
          (tracker depth lineTail .spaced _ y ⟨byteLength (w ++ gap), [.comment]⟩) :=
        Expr.attempts_seq tailMatch _
    _ = tracker depth (.star nextLine) .spaced _ y ⟨byteLength (w ++ gap), [.comment]⟩ := by
        rw [behind, tracker, tracker, Expr.attempts_of_quiet (e := lineTail) rfl]
    _ = _ := (Expr.attempts_star_of_none (h.nextLine_silent depth _).1 _).trans
        ((h.nextLine_silent depth _).2 _)

/-- Nothing is left of the first content, and all of the second. -/
theorem exists_rest (h : Adjoined w gap y) (enough : w.length ≤ depth) : ∃ body,
    matcher depth (.opt contentLines) .spaced 0 (w ++ (gap ++ y)) = some body ∧
      dropFiller false body.rest = y := by
  obtain ⟨_, t, matched, start, text⟩ := h.takes_expression enough 0
  obtain ⟨blanks, s, pos, turns, body, _, behind, _, repeats, found, _, rest⟩ :=
    exists_contentLines matched
  rw [h.dropBlanks_eq] at behind
  rw [start, text] at found
  refine ⟨body, Expr.parseWith_opt.mpr (Or.inl found), ?_⟩
  rw [rest]
  cases repeats with
  | stop _ =>
    obtain ⟨c, first, opens⟩ := h.opens
    show dropFiller false s = y
    rw [← dropFiller_skip, behind]
    refine dropFiller_of_startsContent fun d same => ?_
    obtain rfl := Option.some.inj (first.symm.trans same)
    exact opens.startsContent
  | turn next _ =>
    rw [behind, (h.nextLine_silent depth _).1] at next
    cases next

theorem endOfInput_eq_none (h : Adjoined w gap y) (depth pos : Nat) :
    matcher depth endOfInput .spaced pos y = none := by
  obtain ⟨c, first, _⟩ := h.opens
  obtain ⟨rest, rfl⟩ := List.head?_eq_some_iff.mp first
  rfl

/-- What a document is made of is not matched, and where the second content stands the end of the
text is missed as well. -/
theorem attempts_body (h : Adjoined w gap y) (enough : w.length ≤ depth) :
    matcher depth documentBody .spaced 0 (w ++ (gap ++ y)) = none ∧
      tracker depth documentBody .spaced 0 (w ++ (gap ++ y)) Attempts.none =
        ⟨byteLength (w ++ gap), [.comment, .endOfInput]⟩ := by
  obtain ⟨_, t, matched, start, text⟩ := h.takes_expression enough 0
  obtain ⟨body, found, left⟩ := h.exists_rest enough
  have missed := h.attempts_lines enough
  have content : dropFiller false (w ++ (gap ++ y)) = w ++ (gap ++ y) := by
    rw [← text]
    exact dropFiller_of_startsContent (startsContent_of_takes matched)
  have whole : byteLength (w ++ (gap ++ y)) = byteLength (w ++ gap) + byteLength y := by simp; omega
  generalize w ++ (gap ++ y) = s at *
  have begins : 0 + byteLength (dropFiller false s) = 0 + byteLength s := by rw [content]
  have lines : matcher depth (.opt contentLines) .spaced 0 (dropFiller false s) = some body := by
    rwa [content]
  obtain ⟨q, place, fails, attempts⟩ := exists_end_place begins lines Attempts.none
  rw [left] at place fails attempts
  obtain rfl : q = byteLength (w ++ gap) := by omega
  have noEnd := h.endOfInput_eq_none depth (byteLength (w ++ gap))
  refine ⟨fails.mpr noEnd, ?_⟩
  calc tracker depth documentBody .spaced 0 s Attempts.none
    _ = tracker depth endOfInput .spaced (byteLength (w ++ gap)) y
          ⟨byteLength (w ++ gap), [.comment]⟩ := by
        rw [attempts, content, ← missed]
        rfl
    _ = Attempts.report ⟨byteLength (w ++ gap), [.comment]⟩ .endOfInput _ _ :=
        Expr.attempts_rule_of_quiet (by decide) rfl noEnd _
    _ = ⟨byteLength (w ++ gap), [.comment, .endOfInput]⟩ := Attempts.report_here _ _ _

end Adjoined

/-- In front of the second content the end of the text or a comment is expected, and nothing else is
reported. -/
theorem parse_adjoined (h : Adjoined w gap y) :
    parse (w ++ (gap ++ y)) = .error ⟨byteLength (w ++ gap), [.endOfInput, .comment]⟩ := by
  have enough : w.length ≤ (w ++ (gap ++ y)).length := by simp
  obtain ⟨unmatched, inside⟩ := h.attempts_body enough
  clear enough
  generalize w ++ (gap ++ y) = s at *
  -- the document starts in front of what is missed, so that it is not reported itself
  have outside : tracker s.length document .spaced 0 s Attempts.none =
      (tracker s.length documentBody .spaced 0 s Attempts.none).report .document 0
        (Attempts.none.countAt 0) :=
    @Expr.attempts_rule_of_none Rule grammar.blank (grammar.nestedMatcher s.length)
      (grammar.nestedTracker s.length) .spaced 0 s .document .plain documentBody (by decide)
      unmatched Attempts.none
  have near : 0 < byteLength (w ++ gap) := by
    rw [byteLength_append]
    exact Nat.add_pos_right _ h.gap_pos
  rw [inside, Attempts.report_of_lt _ _ near] at outside
  refine parse_eq_error.mpr ⟨unmatched, ?_⟩
  rw [furthestFailure_eq, outside]
  rfl

end Verbatim.Toml
