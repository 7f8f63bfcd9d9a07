import Verbatim.Proofs.Peg.LineBreaks
import Verbatim.Proofs.Toml.Forms

/-!
# TOML with other line breaks

No production sees how lines are broken, as long as no backslash protects a line feed. Line breaks
are taken whole by trivia, and found by the lookaheads of comments, blanks and strings of one line
(`blind_absent_newline`). A string of several lines takes them character by character, which is no
matter for the whole string (`blind_mlBasicString`). Scalars avoid line breaks, and everything else
is put together from these parts (`blind_nested`, `blind_documentLines`). Keys and headers have no
line breaks in them.
-/

namespace Verbatim.Toml

open Peg Grammar Text

variable {depth : Nat} {mode : Mode} {pos : Nat} {s t w : List Char} {f : Rule} {inLine : Prop}
  {a b : Production}

/-- A production does the same, wherever it may stand, on a text and on the text with pairs for line
feeds. -/
abbrev Blind (depth : Nat) (inLine : Prop) (e : Production) (mode : Mode) : Prop :=
  Matcher.Blind grammar.blank inLine (matcher depth e) mode

theorem skipsInLine : SkipsInLine grammar.blank := fun _ => isLineEnd_of_isIndent

namespace Blind

theorem seq (left : Blind depth inLine a mode) (right : Blind depth inLine b mode) :
    Blind depth inLine (.seq a b) mode :=
  Expr.blind_seq skipsInLine (Expr.parseWith_covers (covers depth) a mode) left right

theorem star (consumes : a.consumes = true) (part : Blind depth inLine a mode) :
    Blind depth inLine (.star a) mode :=
  Expr.blind_star skipsInLine (productive depth) consumes part

theorem alt (left : Blind depth inLine a mode) (right : Blind depth inLine b mode) :
    Blind depth inLine (.alt a b) mode :=
  Expr.blind_alt left right

theorem opt (part : Blind depth inLine a mode) : Blind depth inLine (.opt a) mode :=
  Expr.blind_opt part

theorem rule {name : Rule} {kind : RuleKind} (inside : Blind depth inLine a (kind.inside mode)) :
    Blind depth inLine (.rule name kind a) mode :=
  Expr.blind_rule inside

theorem first {es : List Production} (parts : ∀ e ∈ es, Blind depth inLine e mode) :
    Blind depth inLine (.first es) mode := by
  induction es with
  | nil => exact Expr.blind_char fun _ _ => rfl
  | cons e es ih =>
    obtain ⟨here, later⟩ := List.forall_mem_cons.mp parts
    cases es with
    | nil => exact here
    | cons e' es => exact here.alt (ih later)

theorem of_avoids (h : a.Avoids (isLineEnd · = true) mode) : Blind depth inLine a mode :=
  Expr.blind_of_avoids skipsInLine (productive depth) h

theorem lit {text : String} (oneLine : text.toList.all (!isLineEnd ·) = true) :
    Blind depth inLine (lit text) mode :=
  Expr.blind_word fun c member => by simpa using List.all_eq_true.mp oneLine c member

end Blind

/-! ### Line breaks, blanks and comments -/

theorem blind_newline : Blind depth False newline mode := by
  intro pos pos' s plain _
  cases s with
  | nil => exact .none
  | cons c rest =>
    by_cases feed : c = '\n'
    · subst feed
      have here : matcher depth newline mode pos ('\n' :: rest) = some ⟨['\n'], [], rest⟩ := rfl
      have there : matcher depth newline mode pos' (crlf ('\n' :: rest)) =
          some ⟨['\r', '\n'], [], crlf rest⟩ := rfl
      rw [here, there]
      exact .some ⟨rfl, rfl, False.elim⟩
    · have inside : isLineEnd c = false := by simp [isLineEnd, feed, plain.ne_carriage]
      have nothing : ∀ pos s, matcher depth newline mode pos (c :: s) = none := fun pos s =>
        newline_eq_none.mpr fun d same => Option.some.inj same ▸ inside
      rw [crlf_cons feed, nothing, nothing]
      exact .none

/-- Up to the line break any character of a class may be taken. -/
theorem blind_absent_newline (member : Char → Bool) :
    Blind depth inLine (.seq (.absent newline) (.char member)) mode :=
  Expr.blind_absent_char skipsInLine member blind_newline fun pos s =>
    isSome_newline_cons depth mode pos '\n' s

theorem blind_textEnd : Blind depth inLine (.absent .any) mode := by
  refine Expr.blind_absent fun pos pos' s _ _ => ?_
  cases s with
  | nil => rfl
  | cons c s =>
    obtain ⟨d, rest, more⟩ := List.exists_cons_of_ne_nil (crlf_ne_nil (List.cons_ne_nil c s))
    rw [more]
    rfl

theorem blind_lineTail : Blind depth inLine lineTail mode :=
  Blind.star rfl (blind_absent_newline isBlank)

theorem blind_commentLine : Blind depth inLine commentLine mode :=
  (Blind.lit (by decide)).seq (Blind.star rfl (blind_absent_newline _))

theorem blind_trivia : Blind depth False trivia mode :=
  Blind.alt blind_newline blind_commentLine

theorem blind_arrayTrivia : Blind depth False arrayTrivia mode :=
  Blind.star rfl blind_trivia

theorem blind_commentBlanks : Blind depth False commentBlanks mode :=
  blind_lineTail.seq (Blind.alt blind_newline blind_textEnd)

theorem blind_comment : Blind depth inLine comment mode :=
  Blind.rule ((Blind.lit (by decide)).seq (Blind.star rfl
    (Expr.blind_absent_char skipsInLine _ blind_commentBlanks fun pos s =>
      isSome_commentBlanks depth pos ('\n' :: s))))

/-! ### Strings -/

theorem escaped_eq_none {c : Char} (other : c ≠ '\\') (pos : Nat) (s : List Char) :
    matcher depth escaped .token pos (c :: s) = none := by
  simp [escaped, Expr.all, Grammar.lit, Expr.parseWith, thenMatch, other.symm]

/-- A backslash protects no line feed, and so a single character. -/
theorem blind_escaped : Blind depth inLine escaped .token := by
  intro pos pos' s plain _
  have protects : ∀ pos c s,
      matcher depth escaped .token pos ('\\' :: c :: s) = some ⟨['\\', c], [], s⟩ := by
    intro pos c s
    simp [escaped, Expr.all, Grammar.lit, Expr.any, Expr.parseWith, thenMatch, skip]
  cases s with
  | nil => exact .none
  | cons c s =>
    by_cases backslash : c = '\\'
    · subst backslash
      rw [crlf_cons (by decide)]
      cases s with
      | nil => exact .none
      | cons c s =>
        have inside : OneLine ['\\', c] := by
          simp [OneLine, isLineEnd, plain.ne_feed, plain.tail.ne_carriage]
        rw [crlf_cons plain.ne_feed, protects, protects]
        exact .some ⟨inside.crlf_eq_self.symm, rfl, fun _ => inside⟩
    · rw [escaped_eq_none backslash]
      by_cases feed : c = '\n'
      · subst feed
        rw [crlf_feed, escaped_eq_none (by decide)]
        exact .none
      · rw [crlf_cons feed, escaped_eq_none backslash]
        exact .none

/-- The characters of a string of one line, which end in front of a line break. -/
theorem blind_unescaped {stop : Production} (ahead : Blind depth False stop .token)
    (finds : ∀ pos s, (matcher depth stop .token pos ('\n' :: s)).isSome = true) :
    Blind depth inLine (unescaped stop) .token :=
  Expr.blind_absent_char skipsInLine _ ahead finds

theorem blind_basicString : Blind depth inLine basicString mode := by
  have quote : ∀ {inLine mode}, Blind depth inLine (Grammar.lit "\"") mode := Blind.lit (by decide)
  have backslash : Blind depth False (Grammar.lit "\\") .token := Blind.lit (by decide)
  have unit : Blind depth inLine (.alt escaped (unescaped _)) .token :=
    Blind.alt blind_escaped (blind_unescaped (Blind.alt quote (backslash.alt blind_newline))
      fun pos s => isSome_stop depth pos '\n' s)
  exact Blind.rule (quote.seq ((Blind.star rfl unit).seq quote))

theorem blind_literalString : Blind depth inLine literalString mode := by
  have quote : ∀ {inLine mode}, Blind depth inLine (Grammar.lit "'") mode := Blind.lit (by decide)
  have unit : Blind depth inLine (unescaped _) .token :=
    blind_unescaped (Blind.alt quote blind_newline) fun pos s => isSome_literalStop depth pos '\n' s
  exact Blind.rule (quote.seq ((Blind.star rfl unit).seq quote))

section Unescaped

variable {close : List Char} {c : Char}

/-- The closing quotes do not stand at a line break. -/
theorem unescaped_of_isLineEnd (quotes : OneLine close) (some_text : close ≠ [])
    (ends : isLineEnd c = true) (pos : Nat) (s : List Char) :
    matcher depth (unescaped (.word close)) .token pos (c :: s) = some ⟨[c], [], s⟩ := by
  obtain ⟨q, rest, rfl⟩ := List.exists_cons_of_ne_nil some_text
  have differs : ¬ q = c := by
    rintro rfl
    rw [quotes q (List.mem_cons_self ..)] at ends
    cases ends
  rw [matcher, Expr.parseWith_absent_seq rfl]
  simp [Expr.parseWith, Expr.any, differs]

/-- Anywhere else the closing quotes stand in the one text if they stand in the other. -/
theorem rebroken_unescaped (quotes : OneLine close) (plain : PlainBreaks (c :: s))
    (inside : c ≠ '\n') (pos pos' : Nat) :
    Option.Rel (Match.Rebroken inLine) (matcher depth (unescaped (.word close)) .token pos (c :: s))
      (matcher depth (unescaped (.word close)) .token pos' (crlf (c :: s))) := by
  have ahead : Blind depth False (.word close) .token := Expr.blind_word quotes
  refine Expr.rebroken_absent_char skipsInLine _ ahead plain rfl (fun feed => ?_) pos'
  exact absurd (Option.some.inj feed) inside

end Unescaped

/-- Closing quotes with more quotes in front of them. -/
theorem blind_closingQuotes {quote : Char} (inside : isLineEnd quote = false) :
    Blind depth inLine (closingQuotes quote) .token := by
  have avoids : (closingQuotes quote).Avoids (isLineEnd · = true) .token := by
    simp [Expr.Avoids, inside]
  exact Blind.of_avoids avoids

theorem blind_mlBasicString : Blind depth False mlBasicString mode := by
  have quotes : OneLine "\"\"\"".toList := by simp [OneLine, isLineEnd]
  have part : ∀ pos c s, isLineEnd c = true →
      matcher depth (.alt escaped (unescaped (.word "\"\"\"".toList))) .token pos (c :: s) =
        some ⟨[c], [], s⟩ := by
    intro pos c s ends
    have other : c ≠ '\\' := by
      rintro rfl
      cases ends
    exact Expr.parseWith_alt.mpr (Or.inr
      ⟨escaped_eq_none other pos s, unescaped_of_isLineEnd quotes (by simp) ends pos s⟩)
  have body : Blind depth False (.star (.alt escaped (unescaped (.word "\"\"\"".toList)))) .token :=
    Expr.blind_star_of_single (productive depth) rfl tight_token (fun pos pos' c s plain inside =>
      rel_or (blind_escaped pos pos' _ plain rfl) (rebroken_unescaped quotes plain inside pos pos'))
      part
  exact Blind.rule ((Blind.lit (by decide)).seq (body.seq (blind_closingQuotes rfl)))

theorem blind_mlLiteralString : Blind depth False mlLiteralString mode := by
  have quotes : OneLine "'''".toList := by simp [OneLine, isLineEnd]
  have body : Blind depth False (.star (unescaped (.word "'''".toList))) .token :=
    Expr.blind_star_of_single (productive depth) rfl tight_token
      (fun pos pos' c s plain inside => rebroken_unescaped quotes plain inside pos pos')
      fun pos c s ends => unescaped_of_isLineEnd quotes (by simp) ends pos s
  exact Blind.rule ((Blind.lit (by decide)).seq (body.seq (blind_closingQuotes rfl)))

/-! ### Scalars and keys -/

theorem avoids_lineEnd {member : Char → Bool} (feed : member '\n' = false)
    (carriage : member '\r' = false) :
    (Expr.char member : Production).Avoids (isLineEnd · = true) mode := by
  have apart : ∀ c, isLineEnd c = true → member c = false := forall_isLineEnd.mpr ⟨feed, carriage⟩
  intro c found ends
  rw [apart c ends] at found
  cases found

theorem not_scalarChar_of_isLineEnd (c : Char) (h : isLineEnd c = true) : scalarChar c = false :=
  not_scalarChar_of_closesValue (closesValue_of_isBlank (isBlank_of_isLineEnd h))

/-- The forms that avoid line breaks. -/
def scalarForms : List Rule :=
  [.offsetDateTime, .localDateTime, .localDate, .localTime, .floatingPoint, .hexInt, .octInt,
    .binInt, .decInt, .boolean]

theorem blind_scalar (form : f ∈ scalarForms) : Blind depth inLine (production f) mode := by
  have foreign := not_scalarChar_of_isLineEnd
  have delim : timeDelim.Avoids (isLineEnd · = true) .token :=
    avoids_lineEnd (by decide) (by decide)
  have date : fullDate.Avoids (isLineEnd · = true) .token := avoids_fullDate foreign
  have time : partialTime.Avoids (isLineEnd · = true) .token := avoids_partialTime foreign
  have integers : integer.Avoids (isLineEnd · = true) mode := avoids_integer foreign
  obtain ⟨hex, oct, bin, dec⟩ := integers
  refine Blind.of_avoids ?_
  simp only [scalarForms, List.mem_cons, List.not_mem_nil, or_false] at form
  rcases form with rfl | rfl | rfl | rfl | rfl | rfl | rfl | rfl | rfl | rfl
  · exact avoids_then date (avoids_then delim (avoids_then time (avoids_timeOffset foreign)))
  · exact avoids_then date (avoids_then delim time)
  · exact date
  · exact time
  · exact avoids_floatingPoint foreign
  · exact hex
  · exact oct
  · exact bin
  · exact dec
  · exact avoids_boolean foreign

theorem blind_unquotedKey : Blind depth inLine unquotedKey mode := by
  have avoids : (Expr.char bareChar : Production).Avoids (isLineEnd · = true) .token :=
    avoids_lineEnd rfl rfl
  exact Blind.of_avoids (a := unquotedKey) ⟨tight_token, avoids, tight_token, rfl, avoids⟩

theorem blind_simpleKey : Blind depth inLine simpleKey mode :=
  Blind.rule (Blind.alt
    (Blind.rule (Blind.alt blind_basicString blind_literalString)) blind_unquotedKey)

theorem blind_key : Blind depth inLine key mode := by
  have blanks : Blind depth inLine keyBlanks .adjacent :=
    Blind.star rfl (Blind.of_avoids (avoids_lineEnd (by decide) (by decide)))
  have part : Blind depth inLine dottedPart .adjacent :=
    blanks.seq ((Blind.lit (by decide)).seq (blanks.seq blind_simpleKey))
  have dotted : Blind depth inLine dottedKey mode :=
    Blind.rule (blind_simpleKey.seq (part.seq (Blind.star rfl part)))
  exact Blind.rule (Blind.alt dotted blind_simpleKey)

theorem blind_table : Blind depth inLine table mode := by
  have header : ∀ {name : Rule} {front back : String},
      front.toList.all (!isLineEnd ·) = true → back.toList.all (!isLineEnd ·) = true →
      Blind depth inLine
        (.rule name .plain (.seq (Grammar.lit front) (.seq key (Grammar.lit back)))) mode :=
    fun front back => Blind.rule ((Blind.lit front).seq (blind_key.seq (Blind.lit back)))
  exact Blind.rule (Blind.alt (header (by decide) (by decide)) (header (by decide) (by decide)))

/-! ### Values -/

section Values

variable (nested : ∀ mode, Blind depth False .nested mode)

include nested

theorem blind_array : Blind depth False array mode := by
  have comma : Blind depth False (Grammar.lit ",") mode := Blind.lit (by decide)
  have next : Blind depth False nextValue mode :=
    comma.seq (blind_arrayTrivia.seq ((nested mode).seq blind_arrayTrivia))
  have last : Blind depth False lastComma mode := Blind.opt (comma.seq blind_arrayTrivia)
  have values : Blind depth False arrayValues mode :=
    (nested mode).seq (blind_arrayTrivia.seq ((Blind.star rfl next).seq last))
  have content : Blind depth False (.opt arrayValues) mode := Blind.opt values
  exact Blind.rule ((Blind.lit (by decide)).seq (blind_arrayTrivia.seq
    (content.seq (Blind.lit (by decide)))))

theorem blind_keyValue : Blind depth False keyValue mode := by
  have sign : Blind depth False equals mode := Blind.rule (Blind.lit (by decide))
  exact Blind.rule (blind_key.seq (sign.seq (nested mode)))

theorem blind_inlineTable : Blind depth False inlineTable mode := by
  have pair : Blind depth False keyValue mode := blind_keyValue nested
  have next : Blind depth False nextPair mode := (Blind.lit (by decide)).seq pair
  have pairs : Blind depth False (.opt (.seq keyValue (.star nextPair))) mode :=
    Blind.opt (pair.seq (Blind.star rfl next))
  exact Blind.rule ((Blind.lit (by decide)).seq (pairs.seq (Blind.lit (by decide))))

theorem blind_form (form : f ∈ valueForms) (mode : Mode) :
    Blind depth False (production f) mode := by
  have known : f ∈ scalarForms ∨ f ∈ [.mlBasicString, .basicString, .mlLiteralString,
      .literalString, .array, .inlineTable] := by
    revert f
    decide
  rcases known with scalar | other
  · exact blind_scalar scalar
  · simp only [List.mem_cons, List.not_mem_nil, or_false] at other
    rcases other with rfl | rfl | rfl | rfl | rfl | rfl
    · exact blind_mlBasicString
    · exact blind_basicString
    · exact blind_mlLiteralString
    · exact blind_literalString
    · exact blind_array nested
    · exact blind_inlineTable nested

theorem blind_value (mode : Mode) : Blind depth False value mode := by
  have choice : ∀ group ∈ valueGroups, ∀ mode, Blind depth False group.choice mode := by
    intro group member mode
    refine Blind.first (List.forall_mem_map.mpr fun f form => ?_)
    exact blind_form nested (List.mem_flatMap.mpr ⟨group, member, form⟩) mode
  rw [value_eq_first]
  refine Blind.rule (Blind.first (List.forall_mem_map.mpr fun group member => ?_))
  rw [FormGroup.production]
  cases group.rule? with
  | none => exact choice group member _
  | some r => exact Blind.rule (choice group member _)

end Values

/-- However deeply values are nested, no value sees how lines are broken. -/
theorem blind_nested (depth : Nat) (mode : Mode) : Blind depth False .nested mode := by
  induction depth generalizing mode with
  | zero => exact fun _ _ _ _ _ => .none
  | succ depth ih => exact blind_value ih mode

/-! ### Documents -/

theorem blind_expression : Blind depth False expression mode := by
  have pair : Blind depth False keyValue mode := blind_keyValue (blind_nested depth)
  exact Blind.rule (Blind.alt ((Blind.alt pair blind_table).seq blind_comment)
    (Blind.alt pair blind_table))

/-- Everything in a document behind the place where it starts. -/
abbrev documentLines : Production :=
  .seq (.star trivia) (.seq (.opt (.seq expression (.seq lineTail (.star nextLine))))
    (.seq (.star trivia) endOfInput))

theorem blind_documentLines : Blind depth False documentLines mode := by
  have gap : Blind depth False (.star trivia) mode := Blind.star rfl blind_trivia
  have next : Blind depth False nextLine mode :=
    blind_newline.seq (gap.seq (blind_expression.seq blind_lineTail))
  have lines : Blind depth False (.opt (.seq expression (.seq lineTail (.star nextLine)))) mode :=
    Blind.opt (blind_expression.seq (blind_lineTail.seq (Blind.star rfl next)))
  have theEnd : Blind depth False endOfInput mode := Blind.rule blind_textEnd
  exact gap.seq (lines.seq (gap.seq theEnd))

/-- Blanks may stand in front of a document. -/
theorem isSome_document (depth : Nat) (s : List Char) :
    (matcher depth document .spaced 0 s).isSome =
      (matcher depth documentLines .spaced (byteLength (skip grammar.blank .spaced s).1)
        (skip grammar.blank .spaced s).2).isSome := by
  rw [Bool.eq_iff_iff, Option.isSome_iff_exists, Option.isSome_iff_exists]
  constructor
  · rintro ⟨m, found⟩
    obtain ⟨_, body, _⟩ := Expr.parseWith_rule.mp found
    obtain ⟨_, lines, start, linesMatch, _⟩ := Expr.parseWith_seq.mp body
    obtain ⟨_, rfl, rfl⟩ := Expr.parseWith_word.mp start
    simp only [byteLength_nil, Nat.zero_add] at linesMatch
    exact ⟨lines, linesMatch⟩
  · rintro ⟨lines, linesMatch⟩
    have start : matcher depth .startOfInput .spaced 0 s = some (.empty s) :=
      Expr.parseWith_word.mpr ⟨s, rfl, rfl⟩
    rw [← Nat.zero_add (byteLength _)] at linesMatch
    exact ⟨_, Expr.parseWith_rule.mpr ⟨_, Expr.parseWith_seq.mpr
      ⟨_, lines, start, linesMatch, rfl⟩, rfl⟩⟩

theorem isSome_document_crlf (plain : PlainBreaks s) (depth : Nat) :
    (matcher depth document .spaced 0 (crlf s)).isSome =
      (matcher depth document .spaced 0 s).isSome := by
  rw [isSome_document, isSome_document, skip_crlf skipsInLine]
  exact (rel_isSome (blind_documentLines _ _ _ (plainBreaks_skip plain _ _) (skip_skip _ _ _))).symm

/-- Whether a text is accepted. -/
theorem isOk_parse (enough : s.length ≤ depth) :
    (parse s).isOk = (matcher depth document .spaced 0 s).isSome := by
  rw [← parse_eq_matcher document enough]
  have one : (document? s).isSome = (grammar.parse document .spaced 0 s).isSome := by
    cases found : grammar.parse document .spaced 0 s with
    | none => simp [document?, found]
    | some m =>
      obtain ⟨t, trees, _⟩ := document_match found
      simp [document?, found, trees]
  rw [← one]
  unfold parse
  cases document? s <;> rfl

/-- A text with pairs for line feeds is accepted exactly if the text is. -/
theorem isOk_parse_crlf (plain : PlainBreaks s) : (parse (crlf s)).isOk = (parse s).isOk := by
  rw [isOk_parse (Nat.le_max_left _ s.length), isOk_parse (Nat.le_max_right _ _),
    isSome_document_crlf plain]

/-! ### Tokens -/

theorem skip_of_startsIn {P : Char → Prop} (starts : StartsIn P w)
    (visible : ∀ c, P c → isIndent c = false) : skip grammar.blank .spaced w = ([], w) := by
  obtain ⟨c, first, member⟩ := starts
  refine skip_eq_self .spaced fun d same => ?_
  rw [first] at same
  exact Option.some.inj same ▸ visible c member

/-- A token that is blind within its line has no line break in it. -/
theorem oneLine_of_spells {P : Char → Prop} {e : Production} {t : Peg.Tree Rule}
    (blind : Blind w.length True e .spaced) (plain : PlainBreaks w) (starts : e.StartsIn P)
    (visible : ∀ c, P c → isIndent c = false) (h : Spells e w t) : OneLine w := by
  have front := skip_of_startsIn (Expr.text_startsIn starts h) visible
  obtain ⟨_, _, same⟩ := exists_of_rel (blind 0 0 w plain front) h
  exact same.oneLine trivial

theorem oneLine_key {t : Peg.Tree Rule} (plain : PlainBreaks w) (h : Spells key w t) :
    OneLine w := by
  refine oneLine_of_spells blind_key plain key_startsIn (fun c opens => ?_) h
  rcases opens with bare | rfl | rfl
  · by_contra indent
    rw [not_bareChar_of_isIndent (by simpa using indent)] at bare
    cases bare
  · rfl
  · rfl

theorem oneLine_header {t : Peg.Tree Rule} (plain : PlainBreaks w) (h : Spells table w t) :
    OneLine w := by
  have bracket : table.StartsIn (· = '[') := ⟨⟨'[', rfl, rfl⟩, ⟨'[', rfl, rfl⟩⟩
  refine oneLine_of_spells blind_table plain bracket ?_ h
  rintro c rfl
  rfl

end Verbatim.Toml
