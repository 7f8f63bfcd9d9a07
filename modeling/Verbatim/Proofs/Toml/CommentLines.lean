import Verbatim.Proofs.Peg.Erase
import Verbatim.Proofs.Toml.Layout

/-!
# Comment lines

The grammar reads a comment on a line of its own like a blank line, without a node for it. Which
comments it has read is told by a grammar that differs in this alone (`documentOf notedTrivia`): it
matches the same texts, and without the nodes for comment lines its tree is that of the grammar
(`notedBody_erases`). What stands between two lines of content holds the comments whose nodes stand
between the nodes of the lines (`NotedLines`).
-/

namespace Verbatim.Toml

open Peg Grammar Text

variable {depth pos : Nat} {s : List Char} {m : Match Rule}

/-! ### Texts with comment lines -/

/-- Spaces, tabs and line breaks. -/
def BlankLines (s : List Char) : Prop := ∀ c ∈ s, isIndent c = true ∨ isLineEnd c = true

/-- Blank lines and comment lines, with the comments in order. A comment reaches to the end of its
line, perhaps without the spaces and tabs there. -/
inductive CommentLines : List Char → List (List Char) → Prop where
  | none {s : List Char} (blank : BlankLines s) : CommentLines s []
  | comment {front body rest : List Char} {cs : List (List Char)} (blank : BlankLines front)
      (inside : OneLine body) (ended : AtLineEnd rest) (more : CommentLines rest cs) :
      CommentLines (front ++ '#' :: body ++ rest) (('#' :: body) :: cs)

/-- What may stand between lines of content, with the comments in it: the blanks behind a line, and
blank lines and comment lines. -/
def CommentGap (gap : List Char) (cs : List (List Char)) : Prop :=
  ∃ blanks rest, gap = blanks ++ rest ∧ InlineBlanks blanks ∧ CommentLines rest cs

theorem BlankLines.append {s t : List Char} (left : BlankLines s) (right : BlankLines t) :
    BlankLines (s ++ t) := by
  intro c member
  exact (List.mem_append.mp member).elim (left c) (right c)

theorem BlankLines.of_indents (h : Indents s) : BlankLines s :=
  fun c member => Or.inl (h c member)

theorem BlankLines.of_lineBreak {b : List Char} (h : IsLineBreak b) : BlankLines b := by
  rcases h with rfl | rfl | rfl <;> simp [BlankLines, isLineEnd]

namespace CommentLines

variable {front : List Char} {cs : List (List Char)}

/-- Blank lines may stand in front. -/
theorem behind (blank : BlankLines front) (h : CommentLines s cs) :
    CommentLines (front ++ s) cs := by
  cases h with
  | none blank' => exact .none (blank.append blank')
  | comment blank' inside ended more =>
    rw [List.append_assoc, ← List.append_assoc front, ← List.append_assoc (front ++ _)]
    exact .comment (blank.append blank') inside ended more

theorem gap (h : CommentLines s cs) : CommentGap s cs := ⟨[], s, rfl, inlineBlanks_nil, h⟩

end CommentLines

/-- More blanks may stand in front. -/
theorem CommentGap.behind {blanks gap : List Char} {cs : List (List Char)}
    (inline : InlineBlanks blanks) (h : CommentGap gap cs) : CommentGap (blanks ++ gap) cs := by
  obtain ⟨blanks', rest, rfl, inline', lines⟩ := h
  exact ⟨blanks ++ blanks', rest, by simp, inline.append inline', lines⟩

/-- The front part of a text that is at the end of its line is there too. -/
theorem AtLineEnd.front {s t : List Char} (h : AtLineEnd (s ++ t)) : AtLineEnd s := by
  intro c first
  have some_text : (s.dropWhile grammar.blank).isEmpty = false := by
    cases left : s.dropWhile grammar.blank with
    | nil => simp [skip, left] at first
    | cons d more => rfl
  refine h c ?_
  simp only [skip, List.dropWhile_append, some_text]
  simp [List.head?_append, show (s.dropWhile grammar.blank).head? = some c from first]

/-- What stands behind the spaces and tabs at the end of a line ends the line. -/
theorem AtLineEnd.ends {indents x : List Char} {c : Char} (h : AtLineEnd (indents ++ c :: x))
    (blank : Indents indents) (other : isIndent c = false) : isLineEnd c = true := by
  have skipped : skip grammar.blank .spaced (indents ++ c :: x) = (indents, c :: x) :=
    skip_gap blank fun d first => by
      obtain rfl : c = d := Option.some.inj first
      exact other
  exact h c (by rw [skipped]; rfl)

/-! ### The grammar with nodes for comment lines -/

/-- Trivia where each comment line makes a node. -/
def notedTrivia : Production := .first [newline, .rule .comment .plain commentLine]

/-- A line of content behind others, with a production for what stands between lines. -/
def nextLineOf (trivia : Production) : Production :=
  .all [newline, .star trivia, expression, lineTail]

/-- What a document is made of, with a production for what stands between lines. -/
def bodyOf (trivia : Production) : Production :=
  .all [.startOfInput, .star trivia, .opt (.all [expression, lineTail, .star (nextLineOf trivia)]),
    .star trivia, endOfInput]

/-- The document, with a production for what stands between lines. -/
def documentOf (trivia : Production) : Production := .rule .document .plain (bodyOf trivia)

/-- With the trivia of the grammar it is the document of the grammar. -/
theorem documentOf_trivia : documentOf Grammar.trivia = Grammar.document := rfl

/-- The comment lines that the grammar has read in a text, outside of the values. -/
def commentLines (s : List Char) : List (List Char) :=
  let trees := ((grammar.parse (documentOf notedTrivia) .spaced 0 s).map (·.trees)).getD []
  (trees.flatMap (·.childrenOf .comment)).map (·.text)

/-- A node that is no comment. -/
def isContent (t : Peg.Tree Rule) : Bool := t.rule != .comment

theorem notedTrivia_erases (depth : Nat) :
    Matcher.Erases isContent (matcher depth notedTrivia) (matcher depth trivia) .spaced := by
  refine Expr.erases_alt (Matcher.erases_self fun pos s m found => ?_)
    (Expr.erases_rule (fun _ _ => rfl) fun pos s m found => (commentLine_match found).2.2)
  simp [(newline_match found).2]

theorem expression_erases (depth : Nat) :
    Matcher.Erases isContent (matcher depth expression) (matcher depth expression) .spaced := by
  refine Matcher.erases_self fun pos s m found => ?_
  obtain ⟨t, line, _⟩ := one_line found
  simp [line.trees, isContent, line.rule]

theorem lineTail_erases (depth : Nat) :
    Matcher.Erases isContent (matcher depth lineTail) (matcher depth lineTail) .spaced := by
  refine Expr.erases_star (Matcher.erases_self fun pos s m found => ?_)
  obtain ⟨first, second, nothing, blank, rfl⟩ := Expr.parseWith_seq.mp found
  obtain ⟨_, rfl⟩ := Expr.parseWith_absent.mp nothing
  obtain ⟨c, rest, _, _, rfl⟩ := Expr.parseWith_char.mp blank
  simp [Match.empty]

theorem nextLine_erases (depth : Nat) :
    Matcher.Erases isContent (matcher depth (nextLineOf notedTrivia)) (matcher depth nextLine)
      .spaced := by
  refine Expr.erases_seq (Matcher.erases_self fun pos s m found => ?_)
    (Expr.erases_seq (Expr.erases_star (notedTrivia_erases depth))
      (Expr.erases_seq (expression_erases depth) (lineTail_erases depth)))
  simp [(newline_match found).2]

/-- The grammar with the nodes for comment lines matches the same texts, and has no other nodes than
these in addition. -/
theorem notedBody_erases (depth : Nat) :
    Matcher.Erases isContent (matcher depth (bodyOf notedTrivia)) (matcher depth documentBody)
      .spaced := by
  have start : Matcher.Erases isContent (matcher depth .startOfInput) (matcher depth .startOfInput)
      .spaced := by
    refine Matcher.erases_self fun pos s m found => ?_
    obtain ⟨rest, _, rfl⟩ := Expr.parseWith_word.mp found
    simp
  have ends : Matcher.Erases isContent (matcher depth endOfInput) (matcher depth endOfInput)
      .spaced := by
    refine Matcher.erases_self fun pos s m found => ?_
    simp [endOfInput_match found]
  have trivia := Expr.erases_star (notedTrivia_erases depth)
  have lines := Expr.erases_seq (expression_erases depth) (Expr.erases_seq (lineTail_erases depth)
    (Expr.erases_star (nextLine_erases depth)))
  exact Expr.erases_seq start (Expr.erases_seq trivia (Expr.erases_seq (Expr.erases_opt lines)
    (Expr.erases_seq trivia ends)))

/-! ### Comment lines between lines of content -/

/-- Nodes for comment lines. -/
def Notes (ns : List (Peg.Tree Rule)) : Prop := ∀ n ∈ ns, n.rule = .comment

/-- The texts of the nodes. -/
def textsOf (ns : List (Peg.Tree Rule)) : List (List Char) := ns.map (·.text)

/-- Trivia, behind which other blank lines and comment lines may follow. -/
theorem notedTrivia_repeats {x z : List Char} {cs : List (List Char)}
    (h : Repeats grammar.blank (matcher depth notedTrivia) .spaced pos s m)
    (left : m.rest = x ++ z) (later : CommentLines x cs) :
    Notes m.trees ∧ CommentLines (m.text ++ x) (textsOf m.trees ++ cs) := by
  induction h with
  | stop _ => exact ⟨(fun n member => nomatch member), later⟩
  | @turn pos s here more found turns ih =>
    obtain ⟨notes, lines⟩ := ih left
    have gap : BlankLines (skip grammar.blank .spaced s).1 := .of_indents (indents_skip _ _)
    have behind : more.text ++ x ++ z = here.rest := by
      rw [List.append_assoc, ← left, turns.split (Expr.parseWith_covers (covers depth) _ _)]
    rcases Expr.parseWith_alt.mp found with broken | ⟨_, comment⟩
    · obtain ⟨lineBreak, bare⟩ := newline_match broken
      refine ⟨by simpa [bare] using notes, ?_⟩
      have whole := lines.behind (gap.append (.of_lineBreak lineBreak))
      simpa [bare] using whole
    · obtain ⟨inside, matched, rfl⟩ := Expr.parseWith_rule.mp comment
      obtain ⟨⟨body, text, oneLine⟩, ended, _⟩ := commentLine_match matched
      simp only [show RuleKind.plain.makesNode .spaced = true from rfl, if_true]
        at ended behind ⊢
      rw [← behind] at ended
      refine ⟨by simpa [Notes, Tree.rule] using notes, ?_⟩
      have whole := CommentLines.comment gap oneLine ended.front lines
      simpa [textsOf, Tree.text, text] using whole

theorem star_notedTrivia {x z : List Char} {cs : List (List Char)}
    (h : matcher depth (.star notedTrivia) .spaced pos (skip grammar.blank .spaced s).2 = some m)
    (left : m.rest = x ++ z) (later : CommentLines x cs) :
    Notes m.trees ∧ CommentLines ((skip grammar.blank .spaced s).1 ++ m.text ++ x)
      (textsOf m.trees ++ cs) := by
  obtain ⟨notes, lines⟩ := notedTrivia_repeats
    (star_repeats (e := notedTrivia) rfl (skip_skip _ _ _) h) left later
  refine ⟨notes, ?_⟩
  rw [List.append_assoc]
  exact lines.behind (.of_indents (indents_skip _ _))

/-- Trivia and blanks in front of a line of content. -/
theorem notedTrivia_before_expression
    (h : matcher depth (.star notedTrivia) .spaced pos (skip grammar.blank .spaced s).2 = some m) :
    Notes m.trees ∧ CommentLines ((skip grammar.blank .spaced s).1 ++ m.text ++
      (skip grammar.blank .spaced m.rest).1) (textsOf m.trees) := by
  have blanks : CommentLines (skip grammar.blank .spaced m.rest).1 [] :=
    .none (.of_indents (indents_skip _ _))
  obtain ⟨notes, lines⟩ := star_notedTrivia h (skip_append _ _ _).symm blanks
  exact ⟨notes, by rwa [List.append_nil] at lines⟩

/-- Lines of content from an offset on, with the nodes of the comment lines between them. -/
inductive NotedLines : Nat → List Char → List (Peg.Tree Rule) → Prop where
  | last {pos : Nat} {gap : List Char} {ns : List (Peg.Tree Rule)} (notes : Notes ns)
      (behind : CommentGap gap (textsOf ns)) : NotedLines pos gap ns
  | line {pos : Nat} {gap rest : List Char} {t : Peg.Tree Rule} {ns ts : List (Peg.Tree Rule)}
      (notes : Notes ns) (front : CommentGap gap (textsOf ns)) (rule : t.rule = .expression)
      (start : t.start = pos + byteLength gap) (more : NotedLines t.stop rest ts) :
      NotedLines pos (gap ++ t.text ++ rest) (ns ++ t :: ts)

/-- A line break, trivia, a line of content and the blanks behind it. -/
structure NotedLine (m : Match Rule) (pos : Nat) (ns : List (Peg.Tree Rule)) (t : Peg.Tree Rule)
    (gap blanks : List Char) : Prop where
  trees : m.trees = ns ++ [t]
  text : m.text = gap ++ t.text ++ blanks
  rule : t.rule = .expression
  start : t.start = pos + byteLength gap
  notes : Notes ns
  front : CommentGap gap (textsOf ns)
  inline : InlineBlanks blanks

theorem notedNextLine_match (h : matcher depth (nextLineOf notedTrivia) .spaced pos s = some m) :
    ∃ ns t gap blanks, NotedLine m pos ns t gap blanks := by
  obtain ⟨broken, _, newlineMatch, behindBreak, rfl⟩ := Expr.parseWith_seq.mp h
  obtain ⟨lead, _, triviaMatch, behindTrivia, rfl⟩ := Expr.parseWith_seq.mp behindBreak
  obtain ⟨content, tail, contentMatch, tailMatch, rfl⟩ := Expr.parseWith_seq.mp behindTrivia
  obtain ⟨lineBreak, noNode⟩ := newline_match newlineMatch
  obtain ⟨notes, lines⟩ := notedTrivia_before_expression triviaMatch
  obtain ⟨t, line, _⟩ := one_line contentMatch
  obtain ⟨blanks, tailBare⟩ := lineTail_match tailMatch
  have front := lines.behind (.of_lineBreak lineBreak)
  refine ⟨lead.trees, t, _, (skip grammar.blank .spaced content.rest).1 ++ tail.text,
    ?_, ?_, line.rule, ?_, notes, front.gap, (indents_skip _ _).inlineBlanks.append blanks⟩
  · simp [noNode, line.trees, tailBare]
  · simp [line.text]
  · rw [line.start]
    simp only [byteLength_append]
    omega

/-- The lines behind a line of content, whose blanks are still pending. -/
theorem notedLines_of_repeats {blanks : List Char} {start : Nat} {ns : List (Peg.Tree Rule)}
    (h : Repeats grammar.blank (matcher depth (nextLineOf notedTrivia)) .spaced pos s m)
    (pending : InlineBlanks blanks) (place : pos = start + byteLength blanks) (notes : Notes ns)
    (behind : CommentLines m.rest (textsOf ns)) :
    NotedLines start (blanks ++ s) (m.trees ++ ns) := by
  induction h generalizing blanks start with
  | @stop pos s _ => exact .last notes (behind.gap.behind pending)
  | @turn pos s here more found _ ih =>
    obtain ⟨noted, t, gap, after, next⟩ := notedNextLine_match found
    have front : CommentGap (blanks ++ (skip grammar.blank .spaced s).1 ++ gap) (textsOf noted) :=
      next.front.behind (pending.append (indents_skip .spaced s).inlineBlanks)
    have later : NotedLines t.stop (after ++ here.rest) (more.trees ++ ns) := by
      refine ih next.inline ?_ behind
      rw [Tree.stop, next.start, next.text]
      simp only [byteLength_append]
      omega
    have begins : t.start =
        start + byteLength (blanks ++ (skip grammar.blank .spaced s).1 ++ gap) := by
      rw [next.start, place]
      simp only [byteLength_append]
      omega
    have line := NotedLines.line next.notes front next.rule begins later
    rw [split_turn found next.text blanks]
    simpa [next.trees] using line

/-- A line of content with what follows it up to the last line, behind comment lines. -/
theorem notedLines_of_content {start : Nat} {front : List Char} {noted ns : List (Peg.Tree Rule)}
    (h : matcher depth (.all [expression, lineTail, .star (nextLineOf notedTrivia)]) .spaced pos s =
      some m)
    (place : pos = start + byteLength front) (leadNotes : Notes noted)
    (lead : CommentLines front (textsOf noted)) (notes : Notes ns)
    (behind : CommentLines m.rest (textsOf ns)) :
    NotedLines start (front ++ s) (noted ++ m.trees ++ ns) := by
  obtain ⟨content, _, contentMatch, behindContent, rfl⟩ := Expr.parseWith_seq.mp h
  obtain ⟨blanks, turns, blanksMatch, turnsMatch, rfl⟩ := Expr.parseWith_seq.mp behindContent
  obtain ⟨t, line, _⟩ := one_line contentMatch
  obtain ⟨_, bare⟩ := lineTail_match blanksMatch
  obtain ⟨gap, pending⟩ := blanks_behind_content line blanksMatch
  have repeats := star_repeats (e := nextLineOf notedTrivia) rfl (skip_skip _ _ _) turnsMatch
  have later := notedLines_of_repeats repeats pending.inline pending.place notes behind
  rw [pending.split] at later
  have all := NotedLines.line leadNotes lead.gap line.rule (line.start.trans place) later
  have whole : front ++ s = front ++ t.text ++ content.rest := by
    rw [line.text, List.append_assoc, (matcher_covers contentMatch).split]
  rw [whole]
  simpa [line.trees, bare] using all

/-- The trivia at the end reach to the end of the text. -/
theorem notedTrivia_at_end {last tail : Match Rule} {q : Nat}
    (tailMatch : matcher depth (.star notedTrivia) .spaced pos (skip grammar.blank .spaced s).2 =
      some tail)
    (ends : matcher depth endOfInput .spaced q (skip grammar.blank .spaced tail.rest).2 =
      some last) :
    Notes tail.trees ∧ CommentLines s (textsOf tail.trees) := by
  have blanks : CommentLines tail.rest [] :=
    .none (.of_indents (skip_at_end ends ▸ indents_skip .spaced tail.rest))
  obtain ⟨notes, lines⟩ := star_notedTrivia tailMatch (List.append_nil _).symm blanks
  rw [List.append_assoc, (matcher_covers tailMatch).split, skip_append, List.append_nil] at lines
  exact ⟨notes, lines⟩

/-- What stands in a document, with the nodes of the comment lines. -/
theorem notedLines_of_body (h : matcher depth (bodyOf notedTrivia) .spaced pos s = some m) :
    NotedLines pos s m.trees := by
  obtain ⟨front, _, start, behindStart, rfl⟩ := Expr.parseWith_seq.mp h
  obtain ⟨_, rfl, rfl⟩ := Expr.parseWith_word.mp start
  obtain ⟨lead, _, triviaMatch, behindLead, rfl⟩ := Expr.parseWith_seq.mp behindStart
  obtain ⟨body, _, bodyMatch, behindBody, rfl⟩ := Expr.parseWith_seq.mp behindLead
  obtain ⟨tail, last, tailMatch, ends, rfl⟩ := Expr.parseWith_seq.mp behindBody
  obtain ⟨tailNotes, behind⟩ := notedTrivia_at_end tailMatch ends
  obtain rfl := endOfInput_match ends
  have leadSplit := (matcher_covers triviaMatch).split
  have before := split_around (s := s) triviaMatch
  rcases Expr.parseWith_opt.mp bodyMatch with content | ⟨_, rfl⟩
  · obtain ⟨leadNotes, lines⟩ := notedTrivia_before_expression triviaMatch
    have all := notedLines_of_content content (place_around _ lead.text _) leadNotes lines tailNotes
      behind
    rw [before] at all
    simpa using all
  · have later : CommentLines lead.rest (textsOf tail.trees) := by
      have whole := behind.behind (.of_indents (indents_skip .spaced lead.rest))
      rwa [Match.empty, skip_append] at whole
    obtain ⟨leadNotes, lines⟩ := star_notedTrivia triviaMatch (List.append_nil _).symm later
    rw [List.append_assoc, leadSplit, skip_append] at lines
    have notes : Notes (lead.trees ++ tail.trees) := fun n member =>
      (List.mem_append.mp member).elim (leadNotes n) (tailNotes n)
    have all : NotedLines pos s (lead.trees ++ tail.trees) :=
      .last notes (by simpa [textsOf] using lines.gap)
    simpa [Match.empty] using all

theorem commentLines_eq (h : matcher s.length (bodyOf notedTrivia) .spaced 0 s = some m) :
    commentLines s = textsOf (m.trees.filter (·.rule = .comment)) := by
  have whole : grammar.parse (documentOf notedTrivia) .spaced 0 s =
      some { m with trees := [.node .document 0 m.text m.trees] } := by
    rw [Grammar.parse, documentOf]
    exact Expr.parseWith_rule.mpr ⟨m, h, (if_pos rfl).symm⟩
  simp only [commentLines, whole, Option.map_some, Option.getD_some, List.flatMap_cons,
    List.flatMap_nil, List.append_nil]
  rfl

/-- An accepted text has the nodes of its tree and nodes for comment lines between them, and these
comment lines are all that the grammar has read. -/
theorem notedLines_of_accepted {t : Peg.Tree Rule} (accepted : parse s = .ok t) :
    ∃ ns, NotedLines 0 s ns ∧ ns.filter isContent = t.children ∧
      commentLines s = textsOf (ns.filter (·.rule = .comment)) := by
  have found := parse_eq_ok.mp accepted
  rw [document?, Option.bind_eq_some_iff] at found
  obtain ⟨m, parsed, first⟩ := found
  obtain ⟨plain, matched, rfl⟩ := Expr.parseWith_rule.mp parsed
  have erased := notedBody_erases s.length 0 s
  rw [show matcher s.length documentBody .spaced 0 s = some plain from matched, eq_comm,
    Option.map_eq_some_iff] at erased
  obtain ⟨noted, notedMatch, rfl⟩ := erased
  refine ⟨noted.trees, notedLines_of_body notedMatch, ?_, commentLines_eq notedMatch⟩
  obtain rfl := Option.some.inj first
  rfl

end Verbatim.Toml
