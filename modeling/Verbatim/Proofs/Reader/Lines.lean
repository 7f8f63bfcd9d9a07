import Verbatim.Proofs.Document.Join
import Verbatim.Proofs.Reader.Accepted
import Verbatim.Proofs.Text.Trim

/-!
# Texts put together from lines

A text can be written line by line: blank lines, comments, and lines of content that are read alone,
with blanks or a comment behind them. Such a text is read, and each line of content becomes what it
is alone (`readString_lines`). Whole texts can be put together as well, if the first ends in a line
break (`readString_append`).
-/

namespace Verbatim

open Text Toml

namespace Reader

variable {options : Options} {previous : Option Bool} {gap : List Char}

/-! ### One text behind another -/

/-- Reading one text behind another reads the lines of the first and then those of the second. What
is left of the first stands in front of the first line of the second. The first text ends in a line
feed, and a comment behind its last line of content belongs to that line. -/
theorem readString_append (options : Options) (s t : String) (d d' : Document)
    (first : readString options s = .ok d) (second : readString options t = .ok d')
    (ended : s = "" ∨ ∃ u, s = u ++ "\n")
    (plain : d.expressions ≠ [] → '#' ∉ d.trailing.chars.takeWhile fun c => !isLineEnd c) :
    ∃ r, readString options (s ++ t) = .ok r ∧ r.bare = (d.followedBy d').bare := by
  obtain ⟨prints, legible⟩ := fresh_of_readString first
  obtain ⟨prints', legible'⟩ := fresh_of_readString second
  have text : linesText d.expressions ++ d.trailing.chars = s.toList := by
    rw [← legible.toList_print, prints]
  have closed := legible.lines.closes (by
    rw [text]
    rcases ended with rfl | ⟨u, rfl⟩
    · exact Or.inl rfl
    · exact Or.inr (by simp)) plain
  have origin : (d.followedBy d').origin = textOrigin := (origin_of_readString first :)
  have reread := readString_print options (legible.followedBy legible' closed) origin
  rwa [legible.print_followedBy legible' closed, prints, prints'] at reread

theorem readString_append_comments :
    let options : Options := { computeChecksum := false }
    let a := pairLine "a" "1" .integer (some (.integer 1)) (some { text := "#c" })
    let b := pairLine "b" "2" .integer (some (.integer 2)) none
    let d := singleLine a ⟨"\n"⟩
    let d' := singleLine { b with before := ⟨"#d\n"⟩ } {}
    readString options "a = 1#c\n" = .ok d ∧ readString options "#d\nb = 2" = .ok d' ∧
      ∃ r, readString options "a = 1#c\n#d\nb = 2" = .ok r ∧ r.bare = (d.followedBy d').bare := by
  intro options a b d d'
  have first : readString options "a = 1#c\n" = .ok d := ok_of_toOption (by decide +kernel)
  have second : readString options "#d\nb = 2" = .ok d' := ok_of_toOption (by decide +kernel)
  have plain : '#' ∉ d.trailing.chars.takeWhile fun c => !isLineEnd c := by decide +kernel
  exact ⟨first, second, readString_append options "a = 1#c\n" "#d\nb = 2" d d' first second
    (Or.inr ⟨"a = 1#c", rfl⟩) fun _ => plain⟩

/-! ### Lines -/

/-- What stands behind the content of a line: blanks, or a comment behind spaces and tabs. -/
inductive LineRest where
  | blanks (text : List Char)
  | comment (gap body : List Char)

namespace LineRest

/-- The text behind the content. -/
def chars : LineRest → List Char
  | blanks text => text
  | comment gap body => gap ++ '#' :: body

/-- Nothing behind the content of a line breaks the line. -/
def Allowed : LineRest → Prop
  | blanks text => InlineBlanks text
  | comment gap body => Indents gap ∧ OneLine body

/-- The comment without the blanks at its end. -/
def note? : LineRest → Option String
  | blanks _ => none
  | comment _ body => some (String.ofList (trimEnd ('#' :: body)))

end LineRest

/-- A text that is read alone as one line of content, which is all of it. -/
def ReadsAlone (options : Options) (text : String) (e : Expression) : Prop :=
  ∃ d, readString options text = .ok d ∧ d.expressions = [e] ∧ e.comment = none ∧ e.before = {} ∧
    d.trailing = {}

/-- A line of a text without its end: a blank line, a comment, or a line of content. -/
inductive SourceLine where
  | blank (indent : List Char)
  | comment (indent body : List Char)
  /-- Content with the line as which it is read alone, between an indent and a rest. -/
  | content (indent : List Char) (text : String) (alone : Expression) (rest : LineRest)

/-- What a line of content holds, without identities: its pair or header, and the text of its
comment. -/
def held (e : Expression) : Option Item × Option String :=
  (e.item.map Item.bare, e.comment.map (·.text))

theorem held_bare (e : Expression) : held e.bare = held e := by
  cases h : e.item with
  | none => simp [held, Expression.bare, h]
  | some i => simp [held, Expression.bare, h, Item.bare_bare]

namespace SourceLine

/-- The text of the line. -/
def chars : SourceLine → List Char
  | blank indent => indent
  | comment indent body => indent ++ '#' :: body
  | content indent text _ rest => indent ++ text.toList ++ rest.chars

/-- Spaces and tabs stand in front, and content is read alone. -/
def Allowed (options : Options) : SourceLine → Prop
  | blank indent => Indents indent
  | comment indent body => Indents indent ∧ OneLine body
  | content indent text alone rest => Indents indent ∧ ReadsAlone options text alone ∧ rest.Allowed

/-- What a line of content should hold: what it holds alone, with the comment behind it. -/
def held? : SourceLine → Option (Option Item × Option String)
  | content _ _ alone rest => some (alone.item.map Item.bare, rest.note?)
  | _ => none

end SourceLine

/-- The end of a line. -/
inductive LineBreak where
  | lf | crlf

/-- The characters of the end of a line. -/
def LineBreak.chars : LineBreak → List Char
  | lf => ['\n']
  | crlf => ['\r', '\n']

/-- The text of lines with their ends, and perhaps of a last line without one. -/
def writeLines (front : List (SourceLine × LineBreak)) (last : Option SourceLine) : List Char :=
  front.flatMap (fun l => l.1.chars ++ l.2.chars) ++ (last.map SourceLine.chars).getD []

theorem LineBreak.isLineBreak (b : LineBreak) : IsLineBreak b.chars := by
  cases b with
  | lf => exact Or.inl rfl
  | crlf => exact Or.inr (Or.inl rfl)

/-! ### What becomes of a line -/

/-- The blanks at the end of a text. -/
def endBlanks (s : List Char) : List Char := (s.reverse.takeWhile isBlank).reverse

theorem trimEnd_endBlanks (s : List Char) : trimEnd s ++ endBlanks s = s := trimEnd_append s

/-- A comment without the blanks at its end, which do not break the line. -/
theorem isComment_trimEnd {body : List Char} (inside : OneLine body) :
    IsComment (trimEnd ('#' :: body)) ∧ InlineBlanks (endBlanks ('#' :: body)) := by
  have split := trimEnd_endBlanks ('#' :: body)
  have inLine : OneLine ('#' :: body) := by
    simpa [OneLine, isLineEnd] using inside
  rw [← split] at inLine
  -- the number sign is no blank, so it stays in front
  obtain ⟨rest, front, last⟩ := trimEnd_visible (c := '#') (by decide) body
  refine ⟨front ▸ ⟨⟨rest, rfl, fun c member => inLine c ?_⟩, last⟩,
    fun c member => ⟨List.mem_takeWhile_imp (List.mem_reverse.mp member),
      inLine c (List.mem_append_right _ member)⟩⟩
  rw [front]
  exact List.mem_append_left _ (List.mem_cons_of_mem _ member)

/-- What stands behind content is a legible comment or none, and blanks. -/
theorem LineRest.exists_comment {rest : LineRest} (h : rest.Allowed) :
    ∃ (note : Option Comment) (behind : List Char), (∀ c, note = some c → c.Legible) ∧
      note.map (·.text) = rest.note? ∧ InlineBlanks behind ∧
      rest.chars = Piece.chars ((note.map Comment.pieces).getD []) ++ behind := by
  cases rest with
  | blanks text =>
    refine ⟨none, text, ?_, rfl, h, rfl⟩
    rintro _ ⟨⟩
  | comment gap body =>
    obtain ⟨isComment, blanks⟩ := isComment_trimEnd h.2
    refine ⟨some { before := .ofList gap, text := .ofList (trimEnd ('#' :: body)) },
      endBlanks ('#' :: body), ?_, rfl, blanks, ?_⟩
    · rintro _ ⟨⟩
      exact ⟨by simpa using h.1, rfl, by simpa using isComment⟩
    · simp [LineRest.chars, Comment.pieces, Piece.ofSpace, Space.ofList, trimEnd_endBlanks]

/-- What is read alone is legible and takes up its text. -/
theorem ReadsAlone.legible {text : String} {e : Expression} (h : ReadsAlone options text e) :
    e.Legible ∧ e.body = text.toList := by
  obtain ⟨d, found, single, _, bare, nothing⟩ := h
  obtain ⟨prints, legible⟩ := fresh_of_readString found
  refine ⟨legible_of_single found single, ?_⟩
  rw [← prints, legible.toList_print, single, nothing, linesText_cons, bare]
  simp [linesText_nil]

/-- A line is trivia, or a legible line of content between an indent and blanks. -/
theorem SourceLine.trivia_or_content {line : SourceLine} (h : line.Allowed options) :
    (Trivia line.chars ∧ (∀ b : LineBreak, Filler (line.chars ++ b.chars)) ∧ line.held? = none) ∨
    ∃ (indent : List Char) (e : Expression) (behind : List Char), Indents indent ∧ e.Legible ∧
      InlineBlanks behind ∧ line.chars = indent ++ e.body ++ behind ∧
      line.held? = some (held e) := by
  cases line with
  | blank indent =>
    have front := Filler.of_indents h
    exact Or.inl ⟨Or.inl front, fun b => front.append (.of_lineBreak b.isLineBreak), rfl⟩
  | comment indent body =>
    obtain ⟨indents, inside⟩ := h
    have front := Filler.of_indents indents
    exact Or.inl ⟨Or.inr ⟨indent, body, rfl, front, inside⟩,
      fun b => front.append_comment inside b.isLineBreak, rfl⟩
  | content indent text alone rest =>
    obtain ⟨indents, reads, isRest⟩ := h
    obtain ⟨legible, body⟩ := reads.legible
    obtain ⟨_, _, _, bare, _, _⟩ := reads
    obtain ⟨note, behind, isComment, same, blanks, split⟩ := LineRest.exists_comment isRest
    refine Or.inr ⟨indent, { alone with comment := note }, behind, indents,
      ⟨legible.markers, legible.item, isComment⟩, blanks, ?_, ?_⟩
    · simp only [Expression.body, bare] at body
      simp [SourceLine.chars, Expression.body, ← body, split]
    · simp [SourceLine.held?, held, same]

/-- The lines of content in a text that is written line by line. -/
theorem exists_continues (front : List (SourceLine × LineBreak)) (last : Option SourceLine)
    (allowed : ∀ line ∈ front.map (·.1) ++ last.toList, line.Allowed options)
    (start : Before previous gap) : ∃ es left, Continues previous es left ∧
      linesText es ++ left = gap ++ writeLines front last ∧
      es.map held = (front.map (·.1) ++ last.toList).filterMap SourceLine.held? := by
  induction front generalizing previous gap with
  | nil =>
    cases last with
    | none => exact ⟨[], gap ++ [], start.after (Or.inl .nil), rfl, rfl⟩
    | some line =>
      rcases line.trivia_or_content (allowed line (by simp)) with
        ⟨trivia, _, nothing⟩ | ⟨indent, e, behind, indents, legible, blanks, split, holds⟩
      · exact ⟨[], gap ++ line.chars, start.after trivia, rfl, by simp [nothing]⟩
      · have ending : Continues (some e.comment.isSome) [] behind := after_blanks blanks _
        refine ⟨_, behind, .cons start indents legible ending, ?_, ?_⟩
        · simp [linesText_cons, linesText_nil, writeLines, split, Expression.body]
        · simp [holds, held]
  | cons l front ih =>
    obtain ⟨line, b⟩ := l
    have later : ∀ line ∈ front.map (·.1) ++ last.toList, line.Allowed options :=
      fun line member => allowed line (List.mem_cons_of_mem _ member)
    rcases line.trivia_or_content (allowed line (List.mem_cons_self ..)) with
      ⟨_, filler, nothing⟩ | ⟨indent, e, behind, indents, legible, blanks, split, holds⟩
    · obtain ⟨es, left, continues, text, same⟩ := ih later (start.append (filler b))
      refine ⟨es, left, continues, ?_, ?_⟩
      · simp [text, writeLines]
      · simp [same, nothing]
    · have next : Before (some e.comment.isSome) (behind ++ b.chars) :=
        ⟨behind, b.chars, [], by simp, blanks, b.isLineBreak, .nil⟩
      obtain ⟨es, left, continues, text, same⟩ := ih later next
      refine ⟨_, left, .cons start indents legible continues, ?_, ?_⟩
      · rw [linesText_cons, List.append_assoc, text]
        simp [writeLines, split, Expression.body]
      · simp [same, holds, held]

/-- A text that is written line by line is read, and its lines of content hold what they hold alone,
each with the comment behind it. -/
theorem readString_lines (options : Options) (front : List (SourceLine × LineBreak))
    (last : Option SourceLine)
    (allowed : ∀ line ∈ front.map (·.1) ++ last.toList, line.Allowed options) :
    ∃ d, readString options (String.ofList (writeLines front last)) = .ok d ∧
      d.expressions.map held = (front.map (·.1) ++ last.toList).filterMap SourceLine.held? := by
  obtain ⟨es, left, continues, text, same⟩ :=
    exists_continues front last allowed (show Before none [] from Filler.nil)
  let d : Document :=
    { textOrigin with before := {}, expressions := es, trailing := Space.ofList left }
  have legible : d.Legible := ⟨rfl, rfl, by simpa [d] using continues⟩
  have prints : d.print = String.ofList (writeLines front last) := by
    rw [← String.toList_inj, legible.toList_print]
    simpa [d] using text
  obtain ⟨d', found, bare⟩ := readString_print options legible rfl
  rw [prints] at found
  have lines : d'.expressions.map Expression.bare = es.map Expression.bare :=
    congrArg Document.expressions bare
  have shown := congrArg (List.map held) lines
  simp only [List.map_map, Function.comp_def, held_bare] at shown
  exact ⟨d', found, shown.trans same⟩

theorem readString_lines_mixed :
    let options : Options := { computeChecksum := false }
    let a := pairLine "a" "1" .integer (some (.integer 1)) none
    let t : Expression :=
      { item := some (.table { kind := .standard, source := "[t]" }), comment := none }
    ∃ d, readString options " \r\n\ta = 1 #b \n[t]\u3000" = .ok d ∧
      d.expressions.map held = [(a.item, some "#b"), (t.item, none)] := by
  intro options a t
  have pair : ReadsAlone options "a = 1" (a.number 2) :=
    ⟨singleLine a {}, ok_of_toOption (by decide +kernel), rfl, rfl, rfl, rfl⟩
  have header : ReadsAlone options "[t]" (t.number 2) :=
    ⟨singleLine t {}, ok_of_toOption (by decide +kernel), rfl, rfl, rfl, rfl⟩
  have space : Indents [' '] := by simp [Indents, isIndent]
  have tab : Indents ['\t'] := by simp [Indents, isIndent]
  have note : OneLine ['b', ' '] := by simp [OneLine, isLineEnd]
  have wide : InlineBlanks ['\u3000'] := by
    intro c member
    obtain rfl := List.mem_singleton.mp member
    decide
  refine readString_lines options
    [(.blank [' '], .crlf),
      (.content ['\t'] "a = 1" (a.number 2) (.comment [' '] ['b', ' ']), .lf)]
    (some (.content [] "[t]" (t.number 2) (.blanks ['\u3000']))) ?_
  intro line member
  simp only [List.map_cons, List.map_nil, Option.toList_some, List.cons_append, List.nil_append,
    List.mem_cons, List.not_mem_nil, or_false] at member
  rcases member with rfl | rfl | rfl
  · exact space
  · exact ⟨tab, pair, ⟨space, note⟩⟩
  · exact ⟨by simp [Indents], header, wide⟩

end Reader

end Verbatim
