import Verbatim.Proofs.Peg.Keep
import Verbatim.Proofs.Toml.Shape
import Verbatim.Toml.Parse

/-!
# The layout of a document

An accepted text is a sequence of lines of content with filler in front of the first, a separator
between two of them and blanks and trivia behind the last (`parse_isDocument`). The difficulty is
the repetition of `nextLine`: it takes back the line break and the trivia of a turn that finds no
content, so the blanks behind a line belong to whatever follows it. The induction over the turns
therefore carries the blanks that are still pending.
-/

namespace Verbatim.Toml

open Peg Grammar Text

variable {depth : Nat} {pos : Nat} {s : List Char} {m : Match Rule}

/-- Lines of content from an offset on, with the text before, between and behind them. Each line is
what the grammar takes there, with all that follows behind it. -/
inductive Lines (depth : Nat) :
    (lead : List Char → Prop) → Nat → List Char → List (Peg.Tree Rule) → Prop where
  | last {lead : List Char → Prop} {pos : Nat} {gap : List Char} (behind : Tail gap) :
      Lines depth lead pos gap []
  | line {lead : List Char → Prop} {pos : Nat} {gap rest : List Char} {t : Peg.Tree Rule}
      {ts : List (Peg.Tree Rule)} (front : lead gap) (rule : t.rule = .expression)
      (start : t.start = pos + byteLength gap)
      (found : (matcher depth expression).Takes .spaced t.start t.text rest [t])
      (more : Lines depth Separator t.stop rest ts) :
      Lines depth lead pos (gap ++ t.text ++ rest) (t :: ts)

/-! ### One line -/

/-- A character that filler does not consist of. -/
def StartsContent (c : Char) : Prop := isIndent c = false ∧ isLineEnd c = false ∧ c ≠ '#'

theorem expression_startsIn : expression.StartsIn StartsContent := by
  have quoted : quotedKey.StartsIn StartsContent :=
    ⟨⟨'"', rfl, by decide, by decide, by decide⟩, ⟨'\'', rfl, by decide, by decide, by decide⟩⟩
  have unquoted : unquotedKey.StartsIn StartsContent := by
    intro c h
    refine ⟨?_, ?_, ?_⟩
    · by_contra blank
      rw [Bool.not_eq_false, isIndent, Bool.or_eq_true, beq_iff_eq, beq_iff_eq] at blank
      rcases blank with rfl | rfl <;> cases h
    · by_contra ends
      rw [Bool.not_eq_false, isLineEnd, Bool.or_eq_true, beq_iff_eq, beq_iff_eq] at ends
      rcases ends with rfl | rfl <;> cases h
    · rintro rfl
      cases h
  have simple : simpleKey.StartsIn StartsContent := ⟨quoted, unquoted⟩
  have pair : keyValue.StartsIn StartsContent := ⟨simple, simple⟩
  have header : table.StartsIn StartsContent :=
    ⟨⟨'[', rfl, by decide, by decide, by decide⟩, ⟨'[', rfl, by decide, by decide, by decide⟩⟩
  exact ⟨⟨pair, header⟩, pair, header⟩

/-- The trivia in front of a line of content are filler. -/
theorem filler_before_expression {lead : Match Rule} {pos' : Nat}
    (trivia : matcher depth (.star trivia) .spaced pos (skip grammar.blank .spaced s).2 = some lead)
    (content : matcher depth expression .spaced pos' (skip grammar.blank .spaced lead.rest).2 =
      some m) :
    Filler ((skip grammar.blank .spaced s).1 ++ lead.text ++
      (skip grammar.blank .spaced lead.rest).1) ∧ lead.trees = [] := by
  obtain ⟨upTo, bare⟩ := star_trivia (Or.inl .nil) trivia
  obtain ⟨c, first, starts⟩ := Expr.text_startsIn expression_startsIn content
  have front := StartsIn.append (P := (isLineEnd · = false)) (t := m.rest) ⟨c, first, starts.2.1⟩
  rw [(matcher_covers content).split] at front
  exact ⟨upTo.filler front, bare⟩

/-- The node of a line, as the grammar takes it. -/
theorem one_line {m : Match Rule} (h : matcher depth expression .spaced pos s = some m) :
    ∃ t, IsNode m pos .expression t ∧
      (matcher depth expression).Takes .spaced t.start t.text m.rest [t] := by
  obtain ⟨t, line⟩ := one_node h rfl
  refine ⟨t, line, ?_⟩
  rw [line.start, line.text, ← line.trees]
  exact (Expr.parseWith_covers (covers depth) _ _).takes h

/-- A part that is matched behind blanks, with these and with the blanks behind it. -/
theorem split_around {e : Production}
    (h : matcher depth e .spaced pos (skip grammar.blank .spaced s).2 = some m) :
    (skip grammar.blank .spaced s).1 ++ m.text ++ (skip grammar.blank .spaced m.rest).1 ++
      (skip grammar.blank .spaced m.rest).2 = s := by
  rw [List.append_assoc, skip_append, List.append_assoc, (matcher_covers h).split, skip_append]

/-- Where the text goes on behind an empty match, blanks, a part and the blanks behind it. -/
theorem place_around (blanks part behind : List Char) :
    pos + byteLength [] + byteLength blanks + byteLength part + byteLength behind =
      pos + byteLength (blanks ++ part ++ behind) := by
  simp only [byteLength_append, byteLength_nil]
  omega

/-- The blanks behind a line of content, up to the next character that is no blank. -/
structure BlanksBehind (t : Peg.Tree Rule) (behind blanks rest : List Char) (pos : Nat) : Prop where
  split : blanks ++ rest = behind
  place : pos = t.stop + byteLength blanks
  inline : InlineBlanks blanks

theorem blanks_behind_content {content blanks : Match Rule} {t : Peg.Tree Rule}
    (line : IsNode content pos .expression t)
    (h : matcher depth lineTail .spaced (pos + byteLength content.text +
      byteLength (skip grammar.blank .spaced content.rest).1)
        (skip grammar.blank .spaced content.rest).2 = some blanks) :
    ∃ gap, BlanksBehind t content.rest gap (skip grammar.blank .spaced blanks.rest).2
      (pos + byteLength content.text + byteLength (skip grammar.blank .spaced content.rest).1 +
        byteLength blanks.text + byteLength (skip grammar.blank .spaced blanks.rest).1) := by
  obtain ⟨inline, _⟩ := lineTail_match h
  refine ⟨_, split_around h, ?_, ((indents_skip _ _).inlineBlanks.append inline).append
    (indents_skip _ _).inlineBlanks⟩
  rw [Tree.stop, line.start, line.text]
  simp only [byteLength_append]
  omega

/-- A line of content that is found behind pending blanks and skipped ones, in the whole text. -/
theorem split_turn {here : Match Rule} {t : Peg.Tree Rule} {e : Production}
    (h : matcher depth e .spaced pos (skip grammar.blank .spaced s).2 = some here)
    {gap after : List Char} (text : here.text = gap ++ t.text ++ after) (blanks : List Char) :
    blanks ++ s = blanks ++ (skip grammar.blank .spaced s).1 ++ gap ++ t.text ++
      (after ++ here.rest) := by
  have cut := (matcher_covers h).split
  rw [text] at cut
  have whole := skip_append grammar.blank .spaced s
  rw [← cut] at whole
  rw [← congrArg (blanks ++ ·) whole]
  simp only [List.append_assoc]

/-- A line break, filler, a line of content and the blanks behind it. -/
structure NextLine (depth : Nat) (m : Match Rule) (pos : Nat) (t : Peg.Tree Rule)
    (lineBreak filler blanks : List Char) : Prop where
  trees : m.trees = [t]
  text : m.text = lineBreak ++ filler ++ t.text ++ blanks
  rule : t.rule = .expression
  start : t.start = pos + byteLength (lineBreak ++ filler)
  found : (matcher depth expression).Takes .spaced t.start t.text (blanks ++ m.rest) [t]
  isLineBreak : IsLineBreak lineBreak
  isFiller : Filler filler
  inline : InlineBlanks blanks

theorem nextLine_match (h : matcher depth nextLine .spaced pos s = some m) :
    ∃ t b filler blanks, NextLine depth m pos t b filler blanks := by
  obtain ⟨broken, _, newlineMatch, behindBreak, rfl⟩ := Expr.parseWith_seq.mp h
  obtain ⟨lead, _, triviaMatch, behindTrivia, rfl⟩ := Expr.parseWith_seq.mp behindBreak
  obtain ⟨content, tail, contentMatch, tailMatch, rfl⟩ := Expr.parseWith_seq.mp behindTrivia
  obtain ⟨lineBreak, noNode⟩ := newline_match newlineMatch
  obtain ⟨filler, bare⟩ := filler_before_expression triviaMatch contentMatch
  obtain ⟨t, line, found⟩ := one_line contentMatch
  obtain ⟨blanks, tailBare⟩ := lineTail_match tailMatch
  have behind : (skip grammar.blank .spaced content.rest).1 ++ tail.text ++ tail.rest =
      content.rest := by
    rw [List.append_assoc, (matcher_covers tailMatch).split, skip_append]
  refine ⟨t, broken.text, _, (skip grammar.blank .spaced content.rest).1 ++ tail.text,
    ?_, ?_, line.rule, ?_, ?_, lineBreak, filler, (indents_skip _ _).inlineBlanks.append blanks⟩
  · simp [noNode, bare, line.trees, tailBare]
  · simp [line.text]
  · rw [line.start]
    simp only [byteLength_append]
    omega
  · simp only [behind]
    exact found

/-! ### All lines -/

/-- The lines behind a line of content, whose blanks are still pending. -/
theorem lines_of_repeats {blanks : List Char} {start : Nat}
    (h : Repeats grammar.blank (matcher depth nextLine) .spaced pos s m)
    (pending : InlineBlanks blanks) (place : pos = start + byteLength blanks)
    (rest : Trivia m.rest) : Lines depth Separator start (blanks ++ s) m.trees := by
  induction h generalizing blanks start with
  | @stop pos s _ => exact .last ⟨blanks, s, rfl, pending, rest⟩
  | @turn pos s here more found _ ih =>
    obtain ⟨t, b, filler, after, next⟩ := nextLine_match found
    have gap := indents_skip .spaced s
    have front : Separator (blanks ++ (skip grammar.blank .spaced s).1 ++ b ++ filler) :=
      ⟨_, b, filler, rfl, pending.append gap.inlineBlanks, next.isLineBreak, next.isFiller⟩
    have later : Lines depth Separator t.stop (after ++ here.rest) more.trees := by
      refine ih next.inline ?_ rest
      rw [Tree.stop, next.start, next.text]
      simp only [byteLength_append]
      omega
    have begins : t.start =
        start + byteLength (blanks ++ (skip grammar.blank .spaced s).1 ++ b ++ filler) := by
      rw [next.start, place]
      simp only [byteLength_append]
      omega
    have line := Lines.line front next.rule begins next.found later
    rw [split_turn found next.text blanks]
    simpa [next.trees] using line

theorem endOfInput_match (h : matcher depth endOfInput .spaced pos s = some m) :
    m = ⟨[], [], []⟩ := by
  obtain ⟨found, matched, rfl⟩ := Expr.parseWith_rule.mp h
  obtain ⟨nothing, rfl⟩ := Expr.parseWith_absent.mp matched
  rw [Expr.any, Expr.parseWith_char_eq_none] at nothing
  cases s with
  | nil => rfl
  | cons c rest => cases nothing c rfl

/-- In front of the end of the text there is nothing but the blanks that are skipped. -/
theorem skip_at_end
    (ends : matcher depth endOfInput .spaced pos (skip grammar.blank .spaced s).2 = some m) :
    (skip grammar.blank .spaced s).1 = s := by
  have split := skip_append grammar.blank .spaced s
  have nothing := (matcher_covers ends).split
  obtain rfl := endOfInput_match ends
  rwa [← nothing, List.append_nil, List.append_nil] at split

/-- The trivia behind the last line of content reach to the end of the text. -/
theorem trivia_at_end {u : List Char} {pos' : Nat} {tail last : Match Rule}
    (before : FillerUpTo u s)
    (trivia : matcher depth (.star trivia) .spaced pos (skip grammar.blank .spaced s).2 = some tail)
    (ends : matcher depth endOfInput .spaced pos' (skip grammar.blank .spaced tail.rest).2 =
      some last) : Trivia (u ++ s) ∧ tail.trees = [] := by
  obtain ⟨upTo, bare⟩ := star_trivia before trivia
  have whole := upTo.trivia.append_indents (indents_skip .spaced tail.rest)
  rw [skip_at_end ends, List.append_assoc, (matcher_covers trivia).split, List.append_assoc,
    skip_append] at whole
  exact ⟨whole, bare⟩

/-- A line of content with what follows it up to the last line, behind filler. -/
theorem lines_of_content {start : Nat} {front : List Char} (filler : Filler front)
    (place : pos = start + byteLength front)
    (h : matcher depth (.seq expression (.seq lineTail (.star nextLine))) .spaced pos s = some m)
    (rest : Trivia m.rest) : ∃ t ts, m.trees = t :: ts ∧
      Lines depth Filler start (front ++ s) m.trees := by
  obtain ⟨content, _, contentMatch, behindContent, rfl⟩ := Expr.parseWith_seq.mp h
  obtain ⟨blanks, turns, blanksMatch, turnsMatch, rfl⟩ := Expr.parseWith_seq.mp behindContent
  obtain ⟨t, line, found⟩ := one_line contentMatch
  obtain ⟨_, bare⟩ := lineTail_match blanksMatch
  obtain ⟨gap, pending⟩ := blanks_behind_content line blanksMatch
  have repeats := star_repeats (e := nextLine) rfl (skip_skip _ _ _) turnsMatch
  have later := lines_of_repeats repeats pending.inline pending.place rest
  rw [pending.split] at later
  have all := Lines.line filler line.rule (line.start.trans place) found later
  have split : front ++ s = front ++ t.text ++ content.rest := by
    rw [line.text, List.append_assoc, (matcher_covers contentMatch).split]
  refine ⟨t, turns.trees, by simp [line.trees, bare], ?_⟩
  rw [split]
  simpa [line.trees, bare] using all

/-- What stands in a document: lines of content up to the end of the text, or trivia alone. -/
theorem lines_of_document (h : matcher depth documentBody .spaced pos s = some m) :
    m.rest = [] ∧ Lines depth Filler pos s m.trees ∧ (m.trees = [] → Trivia s) := by
  obtain ⟨front, _, start, behindStart, rfl⟩ := Expr.parseWith_seq.mp h
  obtain ⟨_, rfl, rfl⟩ := Expr.parseWith_word.mp start
  obtain ⟨lead, _, triviaMatch, behindLead, rfl⟩ := Expr.parseWith_seq.mp behindStart
  obtain ⟨body, _, bodyMatch, behindBody, rfl⟩ := Expr.parseWith_seq.mp behindLead
  obtain ⟨tail, last, tailMatch, ends, rfl⟩ := Expr.parseWith_seq.mp behindBody
  obtain ⟨upTo, leadBare⟩ := star_trivia (Or.inl .nil) triviaMatch
  have before := split_around (s := s) triviaMatch
  rcases Expr.parseWith_opt.mp bodyMatch with content | ⟨_, rfl⟩
  · obtain ⟨c, _, lineMatch, _, _⟩ := Expr.parseWith_seq.mp content
    obtain ⟨filler, _⟩ := filler_before_expression triviaMatch lineMatch
    obtain ⟨trivia, tailBare⟩ := trivia_at_end (Or.inl .nil) tailMatch ends
    obtain rfl := endOfInput_match ends
    obtain ⟨t, ts, trees, lines⟩ :=
      lines_of_content filler (place_around _ lead.text _) content trivia
    rw [before] at lines
    exact ⟨rfl, by simpa [leadBare, tailBare] using lines, by simp [trees]⟩
  · obtain ⟨trivia, tailBare⟩ := trivia_at_end upTo.skip tailMatch ends
    obtain rfl := endOfInput_match ends
    have whole : Trivia s := before ▸ trivia
    have lines : Lines depth Filler pos s [] := .last whole.tail
    exact ⟨rfl, by simpa [Match.empty, leadBare, tailBare] using lines, fun _ => whole⟩

/-- The parse tree of a text is a document, whose lines take up the text. -/
structure IsDocument (s : List Char) (t : Peg.Tree Rule) : Prop where
  rule : t.rule = .document
  start : t.start = 0
  text : t.text = s
  lines : Lines s.length Filler 0 s t.children
  bare : t.children = [] → Trivia s
  sound : ∀ c ∈ t.children, Sound c

theorem document_match (h : matcher s.length document .spaced 0 s = some m) :
    ∃ t, m.trees = [t] ∧ IsDocument s t := by
  obtain ⟨found, matched, rfl⟩ := Expr.parseWith_rule.mp h
  obtain ⟨ended, lines, bare⟩ := lines_of_document matched
  have whole : found.text = s := by
    rw [← (matcher_covers matched).split, ended, List.append_nil]
  have makes := Expr.parseWith_makes (Grammar.nestedMatcher_makes follows_value s.length)
    follows_documentBody _ _ _ _ matched
  exact ⟨_, rfl, rfl, rfl, whole, lines, bare, makes⟩

theorem parse_eq_ok {t : Peg.Tree Rule} : parse s = .ok t ↔ document? s = some t := by
  unfold parse
  cases document? s with
  | none => simp
  | some found => simp

theorem parse_isDocument {t : Peg.Tree Rule} (h : parse s = .ok t) : IsDocument s t := by
  have accepted := parse_eq_ok.mp h
  rw [document?, Option.bind_eq_some_iff] at accepted
  obtain ⟨m, parsed, first⟩ := accepted
  rw [Grammar.parse] at parsed
  obtain ⟨t', trees, isDocument⟩ := document_match parsed
  rw [trees] at first
  obtain rfl : t' = t := by simpa using first
  exact isDocument

end Verbatim.Toml
