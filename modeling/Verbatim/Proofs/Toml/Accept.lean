import Verbatim.Proofs.Toml.Line

/-!
# Every layout is accepted

A text that consists of lines of content with filler and blanks between them is a document of
exactly these lines (`parse_of_lines`). What a repetition of trivia or of blanks leaves is a
function of the text alone (`dropFiller`, `dropBlanks`), so it does not matter in how many turns the
repetition takes what it takes, nor which of them it takes back.
-/

namespace Verbatim.Toml

open Peg Grammar Text

variable {depth : Nat} {pos : Nat} {s u : List Char} {m : Match Rule}

/-! ### What trivia leave -/

/-- The text behind all filler in front, if it starts outside a comment or in one. -/
def dropFiller : (inComment : Bool) → List Char → List Char
  | _, [] => []
  | true, c :: s => dropFiller (!isLineEnd c) s
  | false, c :: s =>
    if isIndent c || isLineEnd c then dropFiller false s
    else if c = '#' then dropFiller true s
    else c :: s

section

attribute [local simp] dropFiller

theorem dropFiller_indents {gap : List Char} (blanks : Indents gap) (s : List Char) :
    dropFiller false (gap ++ s) = dropFiller false s := by
  induction gap with
  | nil => rfl
  | cons c gap ih =>
    simp [blanks c (List.mem_cons_self ..),
      ih fun d member => blanks d (List.mem_cons_of_mem c member)]

theorem dropFiller_lineBreak {b : List Char} (h : IsLineBreak b) (inComment : Bool)
    (s : List Char) :
    dropFiller inComment (b ++ s) = dropFiller false s := by
  rcases h with rfl | rfl | rfl <;> cases inComment <;> simp [isLineEnd]

theorem dropFiller_oneLine {body : List Char} (inside : OneLine body) (s : List Char) :
    dropFiller true (body ++ s) = dropFiller true s := by
  induction body with
  | nil => rfl
  | cons c body ih =>
    simp [inside c (List.mem_cons_self ..),
      ih fun d member => inside d (List.mem_cons_of_mem c member)]

theorem dropFiller_comment (s : List Char) : dropFiller false ('#' :: s) = dropFiller true s := by
  simp [isIndent, isLineEnd]

end

theorem dropFiller_filler (h : Filler u) (s : List Char) :
    dropFiller false (u ++ s) = dropFiller false s := by
  induction h with
  | nil => rfl
  | indent blank _ ih => simp [dropFiller, blank, ih]
  | lineBreak broken _ ih => rw [List.append_assoc, dropFiller_lineBreak broken, ih]
  | comment inside broken _ ih =>
    simp only [List.cons_append, List.append_assoc]
    rw [dropFiller_comment, dropFiller_oneLine inside, dropFiller_lineBreak broken, ih]

theorem dropFiller_trivia (h : Trivia u) : dropFiller false u = [] := by
  rcases h with closed | ⟨v, body, rfl, front, inside⟩
  · have all := dropFiller_filler closed []
    rwa [List.append_nil] at all
  · have all := dropFiller_oneLine inside []
    rw [List.append_nil] at all
    rw [dropFiller_filler front, dropFiller_comment, all]
    rfl

/-- A comment that reaches to the end of its line takes nothing from what follows. -/
theorem dropFiller_atLineEnd (h : AtLineEnd s) : dropFiller true s = dropFiller false s := by
  have blanks : Indents (skip grammar.blank .spaced s).1 := indents_skip _ _
  have split := skip_append grammar.blank .spaced s
  rw [← split, dropFiller_oneLine blanks.oneLine, dropFiller_indents blanks]
  cases rest : (skip grammar.blank .spaced s).2 with
  | nil => rfl
  | cons c rest =>
    have ends := h c (by rw [rest]; rfl)
    simp [dropFiller, ends]

theorem dropFiller_upTo (h : FillerUpTo u s) : dropFiller false (u ++ s) = dropFiller false s := by
  rcases h with closed | ⟨⟨v, body, rfl, front, inside⟩, ended⟩
  · exact dropFiller_filler closed s
  · rw [List.append_assoc, dropFiller_filler front, List.cons_append, dropFiller_comment,
      dropFiller_oneLine inside, dropFiller_atLineEnd ended]

theorem dropFiller_of_startsContent (h : ∀ c, s.head? = some c → StartsContent c) :
    dropFiller false s = s := by
  cases s with
  | nil => rfl
  | cons c s =>
    obtain ⟨visible, inLine, noHash⟩ := h c rfl
    simp [dropFiller, visible, inLine, noHash]

/-- Behind trivia and skipped blanks stands what is no filler. -/
theorem star_trivia_rest
    (h : matcher depth (.star trivia) .spaced pos (skip grammar.blank .spaced s).2 = some m) :
    (skip grammar.blank .spaced m.rest).2 = dropFiller false s := by
  obtain ⟨upTo, _⟩ := star_trivia (Or.inl .nil) h
  obtain ⟨pos', stops⟩ := (star_repeats (e := trivia) rfl (skip_skip _ _ _) h).exhausted
  have split : (skip grammar.blank .spaced s).1 ++ m.text ++ m.rest = s := by
    rw [List.append_assoc, (matcher_covers h).split, skip_append]
  have all := dropFiller_upTo upTo
  rw [List.nil_append, split] at all
  have cut := dropFiller_indents (indents_skip .spaced m.rest) (skip grammar.blank .spaced m.rest).2
  rw [skip_append] at cut
  rw [all, cut, dropFiller_of_startsContent]
  intro c first
  obtain ⟨inLine, noHash⟩ := trivia_eq_none.mp stops c first
  refine ⟨?_, inLine, noHash⟩
  obtain ⟨rest, behind⟩ := List.head?_eq_some_iff.mp first
  exact not_blank_of_skip_eq_cons behind

theorem exists_star_trivia (depth pos : Nat) (s : List Char) : ∃ m,
    matcher depth (.star trivia) .spaced pos (skip grammar.blank .spaced s).2 = some m ∧
      m.trees = [] ∧ (skip grammar.blank .spaced m.rest).2 = dropFiller false s ∧
      byteLength (skip grammar.blank .spaced s).1 + byteLength m.text +
        byteLength (skip grammar.blank .spaced m.rest).1 + byteLength (dropFiller false s) =
          byteLength s := by
  obtain ⟨m, found⟩ : ∃ m,
      matcher depth (.star trivia) .spaced pos (skip grammar.blank .spaced s).2 = some m := ⟨_, rfl⟩
  have behind := star_trivia_rest found
  refine ⟨m, found, (star_trivia (Or.inl .nil) found).2, behind, ?_⟩
  have front := congrArg byteLength (skip_append grammar.blank .spaced s)
  have middle := congrArg byteLength (matcher_covers found).split
  have back := congrArg byteLength (skip_append grammar.blank .spaced m.rest)
  rw [byteLength_append] at front middle back
  rw [behind] at back
  omega

/-! ### What the blanks behind a line leave -/

/-- The text behind all blanks in front that do not break the line. -/
def dropBlanks (s : List Char) : List Char := s.dropWhile fun c => isBlank c && !isLineEnd c

theorem dropBlanks_append {blanks : List Char} (inline : InlineBlanks blanks) (s : List Char) :
    dropBlanks (blanks ++ s) = dropBlanks s :=
  List.dropWhile_append_of_pos fun c member => by simp [inline c member]

theorem dropBlanks_eq_self (h : ∀ c, s.head? = some c → isBlank c = true → isLineEnd c = true) :
    dropBlanks s = s := by
  cases s with
  | nil => rfl
  | cons c s =>
    cases blank : isBlank c with
    | false => simp [dropBlanks, blank]
    | true => simp [dropBlanks, h c rfl blank]

theorem dropBlanks_lineBreak {b : List Char} (broken : IsLineBreak b) (s : List Char) :
    dropBlanks (b ++ s) = b ++ s := by
  refine dropBlanks_eq_self fun c first _ => ?_
  rcases broken with rfl | rfl | rfl
  all_goals
    obtain rfl := Option.some.inj first
    rfl

theorem exists_lineTail (depth pos : Nat) (s : List Char) : ∃ m,
    matcher depth lineTail .spaced pos (skip grammar.blank .spaced s).2 = some m ∧
      m.trees = [] ∧ (skip grammar.blank .spaced m.rest).2 = dropBlanks s ∧
      ∃ blanks, InlineBlanks blanks ∧ s = blanks ++ m.rest := by
  have found : matcher depth lineTail .spaced pos (skip grammar.blank .spaced s).2 = some _ := rfl
  obtain ⟨inline, bare⟩ := lineTail_match found
  obtain ⟨pos', stops⟩ := (star_repeats (e := inlineBlank) rfl (skip_skip _ _ _) found).exhausted
  have split := (matcher_covers found).split
  generalize hm : starMatch _ _ _ _ _ = m at *
  have front : InlineBlanks ((skip grammar.blank .spaced s).1 ++ m.text) :=
    (indents_skip _ _).inlineBlanks.append inline
  have whole : s = (skip grammar.blank .spaced s).1 ++ m.text ++ m.rest := by
    rw [List.append_assoc, split, skip_append]
  refine ⟨m, by rw [← hm]; rfl, bare, ?_, _, front, whole⟩
  rw [whole, dropBlanks_append front]
  have behind := dropBlanks_append (indents_skip .spaced m.rest).inlineBlanks
    (skip grammar.blank .spaced m.rest).2
  rw [skip_append] at behind
  rw [behind, dropBlanks_eq_self]
  intro c first blank
  have last := Expr.parseWith_char_eq_none.mp
    ((absent_newline isBlank (skip_skip _ _ _)).symm.trans stops) c first
  simpa [blank] using last

/-! ### What stands behind a line -/

/-- Trivia start with a blank or a number sign. -/
theorem ahead_of_dropFiller (h : dropFiller false s = []) :
    Ahead (fun c => isBlank c = true ∨ c = '#') s := by
  intro c first
  have cut := dropFiller_indents (indents_skip .spaced s) (skip grammar.blank .spaced s).2
  rw [skip_append, h] at cut
  by_contra other
  rw [not_or, Bool.not_eq_true] at other
  have starts : ∀ d, (skip grammar.blank .spaced s).2.head? = some d → StartsContent d := by
    intro d same
    obtain rfl : c = d := Option.some.inj (first.symm.trans same)
    refine ⟨?_, ?_, other.2⟩
    · exact Bool.eq_false_iff.mpr fun blank => by simp [isBlank_of_isIndent blank] at other
    · exact Bool.eq_false_iff.mpr fun ends => by simp [isBlank_of_isLineEnd ends] at other
  rw [dropFiller_of_startsContent starts] at cut
  rw [← cut] at first
  cases first

/-- Behind a line of content stand blanks or a comment. -/
theorem Lines.ahead {ts : List (Peg.Tree Rule)} (h : Lines depth Separator pos s ts) :
    Ahead (fun c => isBlank c = true ∨ c = '#') s := by
  generalize hl : Separator = lead at h
  cases h with
  | last tail =>
    obtain ⟨blanks, rest, rfl, inline, trivia⟩ := tail
    exact (ahead_of_dropFiller (dropFiller_trivia trivia)).inlineBlanks inline fun _ => Or.inl
  | line front =>
    subst hl
    rw [List.append_assoc]
    exact Ahead.mono (lineEnd_of_separator front false _) fun _ => Or.inl

/-! ### From lines to turns -/

theorem startsContent_of_takes {w x : List Char} {ts : List (Peg.Tree Rule)}
    (h : (matcher depth expression).Takes .spaced pos w x ts) :
    ∀ c, (w ++ x).head? = some c → StartsContent c := by
  intro c first
  obtain ⟨d, same, content⟩ := (Expr.text_startsIn expression_startsIn h).append (t := x)
  obtain rfl : d = c := Option.some.inj (same.symm.trans first)
  exact content

/-- Trivia stay trivia without the blanks in front. -/
theorem dropFiller_dropBlanks (h : dropFiller false s = []) :
    dropFiller false (dropBlanks s) = [] := by
  induction s with
  | nil => rfl
  | cons c s ih =>
    rw [dropFiller] at h
    by_cases skipped : isIndent c = true
    · have blank := isBlank_of_isIndent skipped
      have inline := isLineEnd_of_isIndent skipped
      have same : dropBlanks (c :: s) = dropBlanks s := by simp [dropBlanks, blank, inline]
      rw [same]
      exact ih (by simpa [skipped] using h)
    · -- a line end and a number sign stay where they are, and all else is no filler
      have same : dropBlanks (c :: s) = c :: s := by
        refine dropBlanks_eq_self fun d first blank => ?_
        obtain rfl : c = d := Option.some.inj first
        by_contra inline
        by_cases hash : c = '#'
        · subst hash
          cases blank
        · simp [skipped, inline, hash] at h
      rw [same, dropFiller]
      exact h

/-- One more line starts behind the filler, and takes something. -/
theorem dropFiller_of_nextLine (h : matcher depth nextLine .spaced pos s = some m) :
    ∃ c front, dropFiller false s = c :: front ++ m.rest := by
  obtain ⟨t, b, filler, blanks, next⟩ := nextLine_match h
  obtain ⟨c, first, _⟩ := Expr.text_startsIn expression_startsIn next.found
  obtain ⟨front, text⟩ := List.head?_eq_some_iff.mp first
  refine ⟨c, front ++ blanks, ?_⟩
  rw [← (matcher_covers h).split, next.text]
  simp only [List.append_assoc]
  rw [dropFiller_lineBreak next.isLineBreak, dropFiller_filler next.isFiller,
    dropFiller_of_startsContent (startsContent_of_takes next.found),
    show t.text = c :: front from text]
  simp

/-- Where only trivia stand, there is no further line. -/
theorem nextLine_eq_none (h : dropFiller false s = []) :
    matcher depth nextLine .spaced pos s = none := by
  rw [Option.eq_none_iff_forall_ne_some]
  intro m found
  obtain ⟨c, front, starts⟩ := dropFiller_of_nextLine found
  rw [h] at starts
  cases starts

/-- A line behind a line break and filler, wherever the line break ends. -/
theorem exists_nextLine {b filler rest : List Char} {t : Peg.Tree Rule} (broken : IsLineBreak b)
    (front : Filler filler) (split : s = b ++ (filler ++ (t.text ++ rest)))
    (start : t.start = pos + byteLength (b ++ filler))
    (found : (matcher depth expression).Takes .spaced t.start t.text rest [t]) : ∃ m blanks,
      matcher depth nextLine .spaced pos s = some m ∧ m.trees = [t] ∧ InlineBlanks blanks ∧
        rest = blanks ++ m.rest ∧ (skip grammar.blank .spaced m.rest).2 = dropBlanks rest ∧
        pos + byteLength m.text = t.stop + byteLength blanks := by
  obtain ⟨first, newlineMatch⟩ : ∃ first, matcher depth newline .spaced pos s = some first := by
    rw [← Option.isSome_iff_exists]
    rcases broken with rfl | rfl | rfl
    all_goals
      rw [split]
      exact isSome_newline_cons depth .spaced pos _ _
  obtain ⟨lineBreak, noNode⟩ := newline_match newlineMatch
  have cut := (matcher_covers newlineMatch).split
  obtain ⟨lead, triviaMatch, bare, behindLead, sizes⟩ := exists_star_trivia depth
    (pos + byteLength first.text + byteLength (skip grammar.blank .spaced first.rest).1) first.rest
  have content := dropFiller_of_startsContent (startsContent_of_takes found)
  have all := congrArg (dropFiller false) (cut.trans split)
  rw [dropFiller_lineBreak lineBreak, dropFiller_lineBreak broken, dropFiller_filler front, content]
    at all
  rw [all] at behindLead sizes
  obtain ⟨tail, tailMatch, tailBare, behindTail, blanks, inline, after⟩ :=
    exists_lineTail depth (t.start + byteLength t.text + byteLength
      (skip grammar.blank .spaced rest).1) rest
  have lengths := congrArg byteLength cut
  have whole := congrArg byteLength split
  simp only [byteLength_append] at lengths whole sizes start
  have place : pos + byteLength first.text + byteLength (skip grammar.blank .spaced first.rest).1 +
      byteLength lead.text + byteLength (skip grammar.blank .spaced lead.rest).1 = t.start := by
    omega
  have contentMatch : matcher depth expression .spaced (pos + byteLength first.text +
      byteLength (skip grammar.blank .spaced first.rest).1 + byteLength lead.text +
        byteLength (skip grammar.blank .spaced lead.rest).1)
      (skip grammar.blank .spaced lead.rest).2 = some ⟨t.text, [t], rest⟩ := by
    rw [place, behindLead]
    exact found
  have turn : matcher depth nextLine .spaced pos s = some _ := Expr.parseWith_seq.mpr
    ⟨_, _, newlineMatch, Expr.parseWith_seq.mpr ⟨_, _, triviaMatch, Expr.parseWith_seq.mpr
      ⟨_, _, contentMatch, by rw [place]; exact tailMatch, rfl⟩, rfl⟩, rfl⟩
  refine ⟨_, blanks, turn, by simp [noNode, bare, tailBare], inline, after, behindTail, ?_⟩
  have taken := congrArg byteLength (matcher_covers turn).split
  have behind := congrArg byteLength after
  simp only [byteLength_append, Tree.stop] at taken behind ⊢
  omega

/-- The lines behind a line of content are turns of the repetition, wherever the blanks behind the
line are cut. -/
theorem repeats_of_lines {start : Nat} {rest blanks : List Char} {ts : List (Peg.Tree Rule)}
    (lines : Lines depth Separator start rest ts) (split : rest = blanks ++ s)
    (behind : (skip grammar.blank .spaced s).2 = dropBlanks rest)
    (place : pos = start + byteLength blanks) :
    ∃ m, Repeats grammar.blank (matcher depth nextLine) .spaced pos s m ∧ m.trees = ts ∧
      dropFiller false m.rest = [] := by
  generalize hl : Separator = lead at lines
  induction lines generalizing pos s blanks with
  | @last _ start gap tail =>
    subst hl
    obtain ⟨inline, trivia, rfl, inside, isTrivia⟩ := tail
    rw [dropBlanks_append inside] at behind
    have nothing := dropFiller_dropBlanks (dropFiller_trivia isTrivia)
    rw [← behind] at nothing
    refine ⟨.empty s, .stop (nextLine_eq_none nothing), rfl, ?_⟩
    have cut := dropFiller_indents (indents_skip .spaced s) (skip grammar.blank .spaced s).2
    rw [skip_append, nothing] at cut
    exact cut
  | @line _ start gap rest t ts front rule begins found more ih =>
    subst hl
    obtain ⟨inline, b, filler, rfl, inside, broken, isFiller⟩ := front
    simp only [List.append_assoc] at behind split
    rw [dropBlanks_append inside, dropBlanks_lineBreak broken] at behind
    have gap := congrArg byteLength (skip_append grammar.blank .spaced s)
    have whole := congrArg byteLength split
    rw [behind] at gap
    simp only [byteLength_append] at gap whole begins
    have here : t.start =
        pos + byteLength (skip grammar.blank .spaced s).1 + byteLength (b ++ filler) := by
      rw [byteLength_append]
      omega
    obtain ⟨next, after, turn, trees, _, cut, stops, place'⟩ :=
      exists_nextLine broken isFiller behind here found
    obtain ⟨last, turns, more_trees, ended⟩ := ih cut stops place' rfl
    exact ⟨_, .turn turn turns, by rw [trees, more_trees]; rfl, ended⟩

/-! ### Whole documents -/

/-- Trivia reach to the end of the text. -/
theorem exists_end (pos : Nat) (h : dropFiller false s = []) : ∃ m,
    matcher depth (.seq (.star trivia) endOfInput) .spaced pos (skip grammar.blank .spaced s).2 =
      some m ∧ m.trees = [] := by
  obtain ⟨tail, triviaMatch, bare, behind, _⟩ := exists_star_trivia depth pos s
  have ends : ∀ pos', matcher depth endOfInput .spaced pos'
      (skip grammar.blank .spaced tail.rest).2 = some ⟨[], [], []⟩ := by
    rw [behind, h]
    exact fun _ => rfl
  exact ⟨_, Expr.parseWith_seq.mpr ⟨_, _, triviaMatch, ends _, rfl⟩, by simp [bare]⟩

/-- All lines of content, with what stands between them. -/
abbrev contentLines : Production := .seq expression (.seq lineTail (.star nextLine))

/-- Behind a line of content the repetition of lines starts behind some of the blanks. -/
theorem exists_contentLines {rest : List Char} {t : Peg.Tree Rule}
    (found : (matcher depth expression).Takes .spaced t.start t.text rest [t]) :
    ∃ blanks s pos turns body, rest = blanks ++ s ∧
      (skip grammar.blank .spaced s).2 = dropBlanks rest ∧ pos = t.stop + byteLength blanks ∧
      Repeats grammar.blank (matcher depth nextLine) .spaced pos s turns ∧
      matcher depth contentLines .spaced t.start (t.text ++ rest) = some body ∧
      body.trees = t :: turns.trees ∧ body.rest = turns.rest := by
  obtain ⟨tail, tailMatch, tailBare, behindTail, blanks, _, after⟩ := exists_lineTail depth
    (t.start + byteLength t.text + byteLength (skip grammar.blank .spaced rest).1) rest
  -- the repetition stands behind the blanks that the sequence skips
  have split : rest = blanks ++ (skip grammar.blank .spaced tail.rest).1 ++
      (skip grammar.blank .spaced tail.rest).2 := by
    rw [List.append_assoc, skip_append]
    exact after
  have behind : (skip grammar.blank .spaced (skip grammar.blank .spaced tail.rest).2).2 =
      dropBlanks rest := by
    rw [skip_skip, behindTail]
  have place : t.start + byteLength t.text + byteLength (skip grammar.blank .spaced rest).1 +
      byteLength tail.text + byteLength (skip grammar.blank .spaced tail.rest).1 =
        t.stop + byteLength (blanks ++ (skip grammar.blank .spaced tail.rest).1) := by
    have front := congrArg byteLength (skip_append grammar.blank .spaced rest)
    have middle := congrArg byteLength (matcher_covers tailMatch).split
    have whole := congrArg byteLength after
    simp only [byteLength_append, Tree.stop] at front middle whole ⊢
    omega
  have repeats : ∀ pos, Repeats grammar.blank (matcher depth nextLine) .spaced pos
      (skip grammar.blank .spaced tail.rest).2 _ := fun _ => starMatch_repeats
    (consumesIn (e := nextLine) rfl depth .spaced) (skip_skip grammar.blank .spaced tail.rest)
  have lines : matcher depth contentLines .spaced t.start (t.text ++ rest) = some _ :=
    Expr.parseWith_seq.mpr ⟨_, _, found, Expr.parseWith_seq.mpr
      ⟨_, _, tailMatch, Expr.parseWith_star.mpr rfl, rfl⟩, rfl⟩
  exact ⟨_, _, _, _, _, split, behind, place, repeats _, lines, by simp [tailBare], rfl⟩

/-- A line of content with the lines behind it. -/
theorem exists_content {rest : List Char} {t : Peg.Tree Rule} {ts : List (Peg.Tree Rule)}
    (found : (matcher depth expression).Takes .spaced t.start t.text rest [t])
    (more : Lines depth Separator t.stop rest ts) : ∃ m,
      matcher depth contentLines .spaced t.start (t.text ++ rest) = some m ∧
        m.trees = t :: ts ∧ dropFiller false m.rest = [] := by
  obtain ⟨_, _, _, _, body, split, behind, place, repeats, lines, trees, rest⟩ :=
    exists_contentLines found
  obtain ⟨turns, turned, same, ended⟩ := repeats_of_lines more split behind place
  obtain rfl := repeats.unique turned
  exact ⟨body, lines, by rw [trees, same], by rwa [rest]⟩

theorem exists_documentBody {ts : List (Peg.Tree Rule)} (lines : Lines depth Filler pos s ts)
    (bare : ts = [] → Trivia s) :
    ∃ m, matcher depth documentBody .spaced pos s = some m ∧ m.trees = ts := by
  obtain ⟨lead, triviaMatch, leadBare, behindLead, sizes⟩ := exists_star_trivia depth
    (pos + byteLength (skip grammar.blank .spaced s).1) s
  have start : matcher depth .startOfInput .spaced pos s = some (.empty s) :=
    Expr.parseWith_word.mpr ⟨s, rfl, rfl⟩
  -- between the trivia on both sides stand all lines, or nothing
  obtain ⟨body, bodyMatch, trees, ended⟩ : ∃ body,
      matcher depth (.opt contentLines) .spaced
        (pos + byteLength (skip grammar.blank .spaced s).1 + byteLength lead.text +
          byteLength (skip grammar.blank .spaced lead.rest).1)
        (skip grammar.blank .spaced lead.rest).2 = some body ∧ body.trees = ts ∧
      dropFiller false body.rest = [] := by
    rw [behindLead]
    cases lines with
    | last _ =>
      have nothing := dropFiller_trivia (bare rfl)
      rw [nothing]
      refine ⟨.empty [], Expr.parseWith_opt.mpr (Or.inr ⟨?_, rfl⟩), rfl, rfl⟩
      refine Expr.seq_eq_none_of_left (Expr.eq_none_of_startsIn (covers depth)
        expression_startsIn ?_)
      rintro c ⟨⟩
    | @line _ _ gap rest t ts front _ begins found more =>
      rw [List.append_assoc, dropFiller_filler front,
        dropFiller_of_startsContent (startsContent_of_takes found)] at sizes ⊢
      have place : pos + byteLength (skip grammar.blank .spaced (gap ++ (t.text ++ rest))).1 +
          byteLength lead.text + byteLength (skip grammar.blank .spaced lead.rest).1 = t.start := by
        simp only [byteLength_append] at sizes begins ⊢
        omega
      obtain ⟨body, found, trees, ended⟩ := exists_content found more
      rw [place]
      exact ⟨body, Expr.parseWith_opt.mpr (Or.inl found), trees, ended⟩
  obtain ⟨last, lastMatch, lastBare⟩ := exists_end _ ended
  refine ⟨_, Expr.parseWith_seq.mpr ⟨_, _, start, Expr.parseWith_seq.mpr ⟨_, _, triviaMatch,
    Expr.parseWith_seq.mpr ⟨_, _, bodyMatch, lastMatch, rfl⟩, rfl⟩, rfl⟩, ?_⟩
  simp [leadBare, lastBare, trees, Match.empty]

/-- A text of lines of content is a document of these lines. -/
theorem parse_of_lines {ts : List (Peg.Tree Rule)} (lines : Lines s.length Filler 0 s ts)
    (bare : ts = [] → Trivia s) : ∃ t, parse s = .ok t ∧ t.children = ts := by
  obtain ⟨m, found, trees⟩ := exists_documentBody lines bare
  have whole : grammar.parse document .spaced 0 s =
      some ⟨m.text, [.node .document 0 m.text m.trees], m.rest⟩ :=
    Expr.parseWith_rule.mpr ⟨m, found, rfl⟩
  have accepted : document? s = some (.node .document 0 m.text m.trees) := by
    rw [document?, whole]
    rfl
  exact ⟨_, parse_eq_ok.mpr accepted, trees⟩

end Verbatim.Toml
