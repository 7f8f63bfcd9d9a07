import Verbatim.Proofs.Toml.Accept
import Verbatim.Proofs.Toml.Within

/-!
# Where a text is rejected

All parts of a document but the end of the text match whatever stands there, so a text is rejected
where something is left in front of its end (`attempts_documentBody`), and the furthest failure is
not before that place. Lines that are complete are taken in front of any text, so nothing of them is
left (`leftover_of_lines`): the furthest failure of a text lies behind each part of it that is a
document by itself and ends in a line feed (`le_offset`).
-/

namespace Verbatim.Toml

open Peg Grammar Text

variable {depth depth' : Nat} {pos : Nat} {s u r rest : List Char} {m : Match Rule}
  {ts : List (Peg.Tree Rule)} {t : Peg.Tree Rule}

/-! ### What is left behind filler -/

theorem dropFiller_suffix (inComment : Bool) (s : List Char) : dropFiller inComment s <:+ s := by
  induction s generalizing inComment with
  | nil => cases inComment <;> exact List.suffix_refl _
  | cons c s ih =>
    have later : ∀ inComment, dropFiller inComment s <:+ c :: s := fun inComment =>
      (ih inComment).trans (List.suffix_cons c s)
    cases inComment with
    | true => exact later _
    | false =>
      rw [dropFiller]
      split
      · exact later _
      · split
        · exact later _
        · exact List.suffix_refl _

theorem dropFiller_skip (s : List Char) :
    dropFiller false (skip grammar.blank .spaced s).2 = dropFiller false s := by
  have cut := dropFiller_indents (indents_skip .spaced s) (skip grammar.blank .spaced s).2
  rwa [skip_append, eq_comm] at cut

/-- Behind filler at most what follows it is left, with the blanks in front of the filler or
without. -/
theorem dropFiller_dropBlanks_suffix (h : Filler u) (r : List Char) :
    dropFiller false (dropBlanks (u ++ r)) <:+ r := by
  induction h with
  | nil => exact (dropFiller_suffix _ _).trans (List.dropWhile_suffix _)
  | @indent c u indent _ ih =>
    have blank : InlineBlanks [c] := by
      intro d member
      obtain rfl := List.mem_singleton.mp member
      exact ⟨isBlank_of_isIndent indent, isLineEnd_of_isIndent indent⟩
    have front := dropBlanks_append blank (u ++ r)
    rw [List.singleton_append] at front
    rwa [List.cons_append, front]
  | lineBreak broken more =>
    rw [List.append_assoc, dropBlanks_lineBreak broken, dropFiller_lineBreak broken,
      dropFiller_filler more]
    exact dropFiller_suffix _ _
  | @comment body b u inside broken more ih =>
    have visible : dropBlanks ('#' :: body ++ b ++ u ++ r) = '#' :: body ++ b ++ u ++ r :=
      dropBlanks_eq_self fun c first blank => by
        obtain rfl : '#' = c := Option.some.inj first
        cases blank
    rw [visible, dropFiller_filler (.comment inside broken more)]
    exact dropFiller_suffix _ _

/-! ### What is left behind lines -/

/-- Whatever lines follow, no more is left than behind the filler in front of them. -/
theorem leftover_of_repeats (h : Repeats grammar.blank (matcher depth nextLine) .spaced pos s m) :
    dropFiller false m.rest <:+ dropFiller false s := by
  induction h with
  | stop _ => exact List.suffix_refl _
  | @turn pos s here more found _ ih =>
    obtain ⟨c, front, starts⟩ := dropFiller_of_nextLine found
    rw [dropFiller_skip] at starts
    rw [starts]
    exact ih.trans ((dropFiller_suffix _ _).trans (List.suffix_append _ _))

/-- Where a line ends does not depend on what follows its line break. -/
theorem LineEnd.append {commented : Bool} (h : LineEnd commented u) (ended : '\n' ∈ u)
    (r : List Char) : LineEnd commented (u ++ r) := by
  cases commented with
  | true =>
    rw [LineEnd] at h ⊢
    induction u with
    | nil => cases ended
    | cons c u ih =>
      by_cases breaks : isLineEnd c = true
      · simp [endsLine, breaks]
      · have later : '\n' ∈ u := by
          refine (List.mem_cons.mp ended).resolve_left ?_
          rintro rfl
          exact breaks rfl
        simp only [endsLine, breaks, Bool.false_or, Bool.and_eq_true, List.cons_append] at h ⊢
        exact ⟨h.1, ih later h.2⟩
  | false =>
    have indents : ¬ Indents u := fun all => by cases all _ ended
    obtain ⟨front, c, more, rfl, blanks, visible⟩ := exists_of_not_indents indents
    have first : (skip grammar.blank .spaced (front ++ c :: more)).2.head? = some c := by
      rw [skip_indents blanks fun d same => ?_]
      · rfl
      · obtain rfl : c = d := Option.some.inj same
        exact visible
    rw [List.append_assoc, List.cons_append]
    refine Ahead.indents blanks (Ahead.of_head? fun d same => ?_)
    obtain rfl : c = d := Option.some.inj same
    exact ⟨h c first, visible⟩

/-- A complete line is taken in front of any text. -/
theorem takes_before (found : (matcher depth expression).Takes .spaced t.start t.text rest [t])
    (ahead : Ahead (fun c => isBlank c = true ∨ c = '#') rest)
    (ended : rest.getLast? = some '\n') (enough : t.text.length ≤ depth)
    (deeper : depth ≤ depth') (r : List Char) :
    (matcher depth' expression).Takes .spaced t.start t.text (rest ++ r) [t] := by
  obtain ⟨commented, t', line, behind, same⟩ := exists_isLine found ahead enough
  obtain rfl : t = t' := by simpa using same
  exact line.takes (behind.append (List.mem_of_getLast? ended) r) (enough.trans deeper)

/-- A line feed at the end stands behind the last line of content. -/
theorem getLast?_behind {front : List Char}
    (found : (matcher depth expression).Takes .spaced t.start t.text rest [t])
    (ended : (front ++ t.text ++ rest).getLast? = some '\n') : rest.getLast? = some '\n' := by
  cases rest with
  | nil =>
    obtain ⟨c, last, visible⟩ := expression_endsVisible found
    have same : c = '\n' := by
      rw [List.append_nil, List.getLast?_append, last] at ended
      exact Option.some.inj ended
    subst same
    cases visible
  | cons c rest => simpa [List.getLast?_append] using ended

/-- Nothing is left of the lines behind a complete line, whatever follows them. -/
theorem leftover_of_lines {start : Nat} {blanks : List Char}
    (lines : Lines depth Separator start rest ts) (ended : rest.getLast? = some '\n')
    (enough : rest.length ≤ depth) (deeper : depth ≤ depth') (split : rest ++ r = blanks ++ s)
    (behind : (skip grammar.blank .spaced s).2 = dropBlanks (rest ++ r))
    (place : pos = start + byteLength blanks)
    (h : Repeats grammar.blank (matcher depth' nextLine) .spaced pos s m) :
    dropFiller false m.rest <:+ r := by
  generalize hl : Separator = lead at lines
  induction lines generalizing pos s blanks m with
  | @last _ start gap tail =>
    obtain ⟨inline, trivia, rfl, inside, isTrivia⟩ := tail
    have filler : Filler trivia := by
      refine isTrivia.filler ?_
      cases trivia with
      | nil =>
        rw [List.append_nil] at ended
        cases (inside _ (List.mem_of_getLast? ended)).2
      | cons c trivia => simpa [List.getLast?_append] using ended
    refine (leftover_of_repeats h).trans ?_
    rw [← dropFiller_skip, behind, List.append_assoc, dropBlanks_append inside]
    exact dropFiller_dropBlanks_suffix filler r
  | @line _ start gap rest t ts front rule begins found more ih =>
    subst hl
    have later := getLast?_behind found ended
    have lengths : gap.length + (t.text.length + rest.length) ≤ depth := by simpa using enough
    have taken := takes_before found more.ahead later (by omega) deeper r
    obtain ⟨inline, b, filler, rfl, inside, broken, isFiller⟩ := front
    simp only [List.append_assoc] at behind split
    rw [dropBlanks_append inside, dropBlanks_lineBreak broken] at behind
    have gap := congrArg byteLength (skip_append grammar.blank .spaced s)
    have whole := congrArg byteLength split
    rw [behind] at gap
    simp only [byteLength_append] at gap whole begins
    have here : t.start =
        pos + byteLength (skip grammar.blank .spaced s).1 + byteLength (b ++ filler) := by
      rw [byteLength_append]
      omega
    obtain ⟨next, after, turn, _, _, cut, stops, place'⟩ :=
      exists_nextLine broken isFiller behind here taken
    cases h with
    | stop exhausted =>
      rw [turn] at exhausted
      cases exhausted
    | turn found' turns =>
      obtain rfl := Option.some.inj (turn.symm.trans found')
      have others := ih later (by omega) cut stops place' turns rfl
      exact others

/-! ### All parts but the last -/

/-- A document matches if nothing is left in front of the end, and the end is all that fails in it
besides the lines of content. -/
theorem exists_end_place {p : Nat} {body : Match Rule}
    (place : p + byteLength (dropFiller false s) = pos + byteLength s)
    (found : matcher depth (.opt contentLines) .spaced p (dropFiller false s) = some body)
    (known : Attempts Rule) :
    ∃ q, q + byteLength (dropFiller false body.rest) = pos + byteLength s ∧
      (matcher depth documentBody .spaced pos s = none ↔
        matcher depth endOfInput .spaced q (dropFiller false body.rest) = none) ∧
      tracker depth documentBody .spaced pos s known =
        tracker depth endOfInput .spaced q (dropFiller false body.rest)
          (tracker depth (.opt contentLines) .spaced p (dropFiller false s) known) := by
  have start : matcher depth .startOfInput .spaced pos s = some (.empty s) :=
    Expr.parseWith_word.mpr ⟨s, rfl, rfl⟩
  obtain ⟨lead, leadMatch, _, behindLead, sizes⟩ :=
    exists_star_trivia depth (pos + byteLength (skip grammar.blank .spaced s).1) s
  obtain rfl : p = pos + byteLength (skip grammar.blank .spaced s).1 + byteLength lead.text +
      byteLength (skip grammar.blank .spaced lead.rest).1 := by omega
  rw [← behindLead] at found
  obtain ⟨tail, tailMatch, _, behindTail, sizes'⟩ := exists_star_trivia depth
    (pos + byteLength (skip grammar.blank .spaced s).1 + byteLength lead.text +
      byteLength (skip grammar.blank .spaced lead.rest).1 + byteLength body.text +
        byteLength (skip grammar.blank .spaced body.rest).1) body.rest
  have bodySize := congrArg byteLength (matcher_covers found).split
  rw [behindLead, byteLength_append] at bodySize
  refine ⟨pos + byteLength (skip grammar.blank .spaced s).1 + byteLength lead.text +
      byteLength (skip grammar.blank .spaced lead.rest).1 + byteLength body.text +
        byteLength (skip grammar.blank .spaced body.rest).1 + byteLength tail.text +
          byteLength (skip grammar.blank .spaced tail.rest).1, by omega, ?_, ?_⟩
  · rw [← behindTail]
    exact (Expr.seq_eq_none_iff start).trans ((Expr.seq_eq_none_iff leadMatch).trans
      ((Expr.seq_eq_none_iff found).trans (Expr.seq_eq_none_iff tailMatch)))
  · rw [← behindTail, ← behindLead]
    calc tracker depth documentBody .spaced pos s known
      _ = _ := Expr.attempts_seq start known
      _ = _ := Expr.attempts_seq leadMatch _
      _ = _ := Expr.attempts_seq found _
      _ = _ := Expr.attempts_seq tailMatch _
      _ = _ := by
        rw [Expr.attempts_of_quiet (e := .startOfInput) rfl,
          Expr.attempts_of_quiet (e := .star trivia) rfl,
          Expr.attempts_of_quiet (e := .star trivia) rfl]

/-! ### The furthest failure -/

theorem furthestFailure_eq (s : List Char) : furthestFailure s =
    ⟨(tracker s.length document .spaced 0 s .none).offset, Rule.all.filter fun r =>
      (tracker s.length document .spaced 0 s .none).expected.contains r⟩ := by
  simp only [furthestFailure, Grammar.attempts, tracker, grammar]

theorem furthestFailure_offset (s : List Char) : (furthestFailure s).offset =
    (tracker s.length document .spaced 0 s .none).offset := by
  rw [furthestFailure_eq]

/-- A text is a document if the grammar matches it. -/
theorem document?_eq_none : document? s = none ↔
    matcher s.length documentBody .spaced 0 s = none := by
  rw [document?, Grammar.parse, Option.bind_eq_none_iff]
  constructor
  · intro bare
    rw [Option.eq_none_iff_forall_ne_some]
    intro m found
    have matched : matcher s.length document .spaced 0 s = some _ :=
      Expr.parseWith_rule.mpr ⟨m, found, rfl⟩
    obtain ⟨t, trees, _⟩ := document_match matched
    have nothing := bare _ matched
    rw [trees] at nothing
    cases nothing
  · intro nothing m matched
    have fails : matcher s.length document .spaced 0 s = none := Expr.rule_eq_none nothing
    rw [matcher] at fails
    rw [fails] at matched
    cases matched

/-- A text that is rejected is one that the grammar does not match. -/
theorem parse_eq_error {e : SyntaxError} : parse s = .error e ↔
    matcher s.length documentBody .spaced 0 s = none ∧ e = furthestFailure s := by
  have unmatched := document?_eq_none (s := s)
  unfold parse
  cases found : document? s with
  | none =>
    constructor
    · intro same
      exact ⟨unmatched.mp found, (Except.error.inj same).symm⟩
    · rintro ⟨_, rfl⟩
      rfl
  | some t =>
    constructor
    · intro impossible
      cases impossible
    · rintro ⟨nothing, _⟩
      rw [unmatched.mpr nothing] at found
      cases found

/-- The furthest failure is a place between two characters. -/
theorem isBoundary_offset (s : List Char) : IsBoundary s (furthestFailure s).offset := by
  have advances : Attempts.Advances .none (tracker s.length document .spaced 0 s .none) 0 s :=
    document.attemptsWith_advances (covers s.length)
      (grammar.nestedTracker_advances s.length) .spaced 0 s .none
  rcases advances.place with stays | ⟨n, boundary, place⟩
  · rw [furthestFailure_offset, stays]
    exact ⟨[], s, rfl, rfl⟩
  · rw [furthestFailure_offset, place, Nat.zero_add]
    exact boundary

/-- The furthest failure is not before the place where something is left in front of the end. -/
theorem le_furthestFailure {p : Nat} {body : Match Rule}
    (place : p + byteLength (dropFiller false s) = byteLength s)
    (found : matcher s.length (.opt contentLines) .spaced p (dropFiller false s) = some body)
    (rejected : matcher s.length documentBody .spaced 0 s = none) :
    byteLength s ≤ (furthestFailure s).offset + byteLength (dropFiller false body.rest) := by
  have start : p + byteLength (dropFiller false s) = 0 + byteLength s := by omega
  obtain ⟨q, ends, fails, attempts⟩ := exists_end_place start found (.none : Attempts Rule)
  have reported : q ≤ (tracker s.length endOfInput .spaced q (dropFiller false body.rest)
      (tracker s.length (.opt contentLines) .spaced p (dropFiller false s) .none)).offset :=
    Expr.le_attempts_rule (by decide) (fails.mp rejected) _
  have inside : (tracker s.length documentBody .spaced 0 s .none).offset ≤
      (tracker s.length document .spaced 0 s .none).offset :=
    @Expr.body_le_attempts_rule Rule grammar.blank (grammar.nestedMatcher s.length)
      (grammar.nestedTracker s.length) .document .plain documentBody .spaced 0 s Attempts.none
  rw [attempts] at inside
  rw [furthestFailure_offset]
  have reached := reported.trans inside
  omega

/-! ### Behind complete lines -/

/-- What stands behind a document that ends in a line feed is all that can be left of a text. -/
theorem exists_leftover {t : Peg.Tree Rule} (accepted : parse u = .ok t)
    (ended : u.getLast? = some '\n') (r : List Char) : ∃ p body,
      p + byteLength (dropFiller false (u ++ r)) = byteLength (u ++ r) ∧
      matcher (u ++ r).length (.opt contentLines) .spaced p (dropFiller false (u ++ r)) =
        some body ∧ dropFiller false body.rest <:+ r := by
  have deeper : u.length ≤ (u ++ r).length := by simp
  generalize (u ++ r).length = depth at deeper
  have whole := parse_isDocument accepted
  obtain ⟨lines, bare⟩ : Lines u.length Filler 0 u t.children ∧ (t.children = [] → Trivia u) :=
    ⟨whole.lines, whole.bare⟩
  generalize t.children = ts at lines bare
  cases lines with
  | last _ =>
    have filler : Filler u := (bare rfl).filler ended
    obtain ⟨front, split⟩ := dropFiller_suffix false (u ++ r)
    obtain ⟨body, found⟩ : ∃ body, matcher depth (.opt contentLines) .spaced (byteLength front)
        (dropFiller false (u ++ r)) = some body := ⟨_, rfl⟩
    refine ⟨byteLength front, body, by rw [← byteLength_append, split], found, ?_⟩
    have covered : body.rest <:+ dropFiller false (u ++ r) := ⟨_, (matcher_covers found).split⟩
    rw [dropFiller_filler filler] at covered
    exact (dropFiller_suffix _ _).trans (covered.trans (dropFiller_suffix _ _))
  | @line _ _ gap rest first ts front _ begins found more =>
    have later := getLast?_behind found ended
    simp only [List.length_append] at found more deeper
    have taken := takes_before found more.ahead later (by omega) deeper r
    have start : dropFiller false (gap ++ first.text ++ rest ++ r) =
        first.text ++ (rest ++ r) := by
      rw [List.append_assoc, List.append_assoc, dropFiller_filler front,
        dropFiller_of_startsContent (startsContent_of_takes taken)]
    obtain ⟨blanks, s, pos, turns, body, split, behind, place, repeats, matched, _, left⟩ :=
      exists_contentLines taken
    rw [start]
    refine ⟨first.start, body, ?_, Expr.parseWith_opt.mpr (Or.inl matched), ?_⟩
    · simp only [byteLength_append, begins]
      omega
    · rw [left]
      exact leftover_of_lines more later (by omega) deeper split behind place repeats

/-- No failure of a text is reported inside a part that is a document by itself and ends in a line
feed. -/
theorem le_offset {t : Peg.Tree Rule} {e : SyntaxError} (accepted : parse u = .ok t)
    (ended : u.getLast? = some '\n') (rejected : parse (u ++ r) = .error e) :
    byteLength u ≤ e.offset := by
  obtain ⟨nothing, rfl⟩ := parse_eq_error.mp rejected
  obtain ⟨p, body, place, found, leftover⟩ := exists_leftover accepted ended r
  have reached := le_furthestFailure place found nothing
  obtain ⟨front, split⟩ := leftover
  have size := congrArg byteLength split
  simp only [byteLength_append] at reached size
  omega

end Verbatim.Toml
