import Verbatim.Proofs.Document.Forms
import Verbatim.Proofs.Toml.LineBreaks

/-!
# Documents with other line breaks

`Document.crlf` is a document with pairs for line feeds: in its spaces, in the sources of its values
and in the contents of its strings. A legible document stays legible (`Document.Legible.crlf`) and
prints as the old text with pairs for line feeds, since there are no line breaks in keys, headers
and comments. What a value is does not change: its form matches the new source as it matched the old
one (`matchesAll_crlf`), and the form says what a value is.
-/

namespace Verbatim

open Peg Text Toml Build

variable {t : List Char} {n v v' : Node} {f : Rule} {kind : LiteralKind} {hint : Option Hint}
  {previous : Option Bool} {es : List Expression} {e : Expression} {left : List Char}

/-! ### Pairs for line feeds -/

/-- The space with pairs for line feeds. -/
def Space.crlf (s : Space) : Space := .ofList (Text.crlf s.chars)

/-- The hint with pairs for line feeds in the content of a string. -/
def Hint.crlf : Hint → Hint
  | string style content => .string style (String.ofList (Text.crlf content.toList))
  | other => other

/-- The value with pairs for line feeds. -/
def Literal.crlf (l : Literal) : Literal :=
  { l with
    before := l.before.crlf
    source := String.ofList (Text.crlf l.source.toList)
    hint := l.hint.map Hint.crlf }

/-- The pair with pairs for line feeds. Its key is the same. -/
def KeyValue.crlf (kv : KeyValue) : KeyValue :=
  { kv with
    before := kv.before.crlf
    key := { kv.key with before := kv.key.before.crlf }
    afterKey := kv.afterKey.crlf
    value := kv.value.crlf }

/-- The content of a line with pairs for line feeds. A header is the same. -/
def Item.crlf : Item → Item
  | keyValue kv => .keyValue kv.crlf
  | table t => .table { t with before := t.before.crlf }

/-- The comment behind a space with pairs for line feeds. -/
def Comment.crlf (c : Comment) : Comment := { c with before := c.before.crlf }

/-- The line of content with pairs for line feeds. -/
def Expression.crlf (e : Expression) : Expression :=
  { e with
    before := e.before.crlf
    item := e.item.map Item.crlf
    comment := e.comment.map Comment.crlf }

/-- The document with pairs for line feeds. -/
def Document.crlf (d : Document) : Document :=
  { d with
    before := d.before.crlf
    expressions := d.expressions.map Expression.crlf
    trailing := d.trailing.crlf }

@[simp] theorem Space.chars_crlf (s : Space) : s.crlf.chars = Text.crlf s.chars :=
  Space.chars_ofList _

theorem Space.crlf_of_oneLine {s : Space} (h : OneLine s.chars) : s.crlf = s := by
  rw [Space.crlf, h.crlf_eq_self, Space.ofList, Space.chars, String.ofList_toList]

@[simp] theorem Space.crlf_empty : ({} : Space).crlf = {} := rfl

/-! ### Values -/

/-- No blank stands in front of what a form matches as a whole. -/
theorem skip_of_matchesAll (form : f ∈ valueForms) (h : MatchesAll f t) :
    skip grammar.blank .spaced t = ([], t) := by
  obtain ⟨_, _, _, spelled, _⟩ := exists_spelled_of_form form h
  exact skip_of_startsIn (nested_startsIn spelled) fun c => not_isIndent_of_closesValue

/-- A form matches the text with pairs for line feeds if it matches the text. -/
theorem matchesAll_crlf (form : f ∈ valueForms) (plain : PlainBreaks t) (h : MatchesAll f t) :
    MatchesAll f (Text.crlf t) := by
  have front := skip_of_matchesAll form h
  have blind : Blind (max t.length (Text.crlf t).length) False (Grammar.production f) .spaced :=
    blind_form (blind_nested _) form .spaced
  rw [MatchesAll, parse_eq_matcher _ (Nat.le_max_left _ (Text.crlf t).length),
    Option.map_eq_some_iff] at h
  obtain ⟨m, found, rest⟩ := h
  obtain ⟨m', found', same⟩ := exists_of_rel (blind 0 0 t plain front) found
  rw [MatchesAll, parse_eq_matcher _ (Nat.le_max_right t.length _), found', Option.map_some,
    same.rest, rest, crlf_nil]

theorem scalarForms_subset : scalarForms ⊆ valueForms := by decide

/-- There is no line break in a scalar. -/
theorem oneLine_of_scalar (scalar : f ∈ scalarForms) (plain : PlainBreaks t)
    (h : MatchesAll f t) : OneLine t := by
  have front := skip_of_matchesAll (scalarForms_subset scalar) h
  obtain ⟨ts, taken⟩ := matchesAll_iff.mp h
  have blind : Blind t.length True (Grammar.production f) .spaced := blind_scalar scalar
  rw [Matcher.Takes, List.append_nil] at taken
  obtain ⟨_, _, same⟩ := exists_of_rel (blind 0 0 t plain front) taken
  exact same.oneLine trivial

/-- Only strings have contents. -/
theorem map_crlf_of_kind (other : ∀ given, hint = some given → given.kind ≠ .string) :
    hint.map Hint.crlf = hint := by
  cases hint with
  | none => rfl
  | some given =>
    cases given with
    | string => exact absurd rfl (other _ rfl)
    | integer | float | boolean | dateTime => rfl

/-- What a string denotes has pairs for line feeds where the string has them. -/
theorem map_crlf_ofString? (style : StringStyle) (body : List Char) :
    (Hint.ofString? style (style.delimiter ++ (body ++ style.delimiter))).map Hint.crlf =
      Hint.ofString? style (Text.crlf (style.delimiter ++ (body ++ style.delimiter))) := by
  have quotes : OneLine style.delimiter := by
    cases style <;> simp [OneLine, isLineEnd, StringStyle.delimiter]
  rw [crlf_append, crlf_append, quotes.crlf_eq_self, ofString?_delimited, ofString?_delimited]
  simp [Hint.crlf]

/-- What a form says about a text with pairs for line feeds. -/
theorem formHint?_crlf (form : f ∈ valueForms) (plain : PlainBreaks t) (whole : MatchesAll f t) :
    formHint? f (Text.crlf t) = (formHint? f t).map Hint.crlf := by
  have known : (∃ style, stringStyle? f = some style) ∨ f ∈ scalarForms ∨
      (literalKind f = .array ∨ literalKind f = .inlineTable) := by
    have all : ∀ f ∈ valueForms, (stringStyle? f).isSome ∨ f ∈ scalarForms ∨
      (literalKind f = .array ∨ literalKind f = .inlineTable) := by decide
    simpa [Option.isSome_iff_exists] using all f form
  rcases known with ⟨style, styled⟩ | scalar | container
  · obtain ⟨_, taken⟩ := matchesAll_iff.mp whole
    obtain ⟨body, rfl⟩ := delimited_of_form styled taken
    simp only [formHint?, literalKind_of_style styled, styled, Option.bind_some]
    exact (map_crlf_ofString? style body).symm
  · -- the text has no line break, so it is the same text
    have apart : ∀ f ∈ scalarForms, literalKind f ≠ .string := by decide
    rw [(oneLine_of_scalar scalar plain whole).crlf_eq_self, map_crlf_of_kind]
    intro given found
    rw [kind_of_formHint? found]
    exact apart f scalar
  · unfold formHint?
    rcases container with kind | kind <;> rw [kind] <;> rfl

/-- A value with pairs for line feeds is the same value, but for the content of a string. -/
theorem spells_crlf (plain : PlainBreaks t) (h : Spells .nested t v)
    (means : meaning? v = some (kind, hint)) : ∃ v', Spells .nested (Text.crlf t) v' ∧
      meaning? v' = some (kind, hint.map Hint.crlf) := by
  obtain ⟨f, form, whole, told⟩ := exists_formHint_of_spelled h means
  obtain ⟨rfl, rfl⟩ := Prod.mk.inj told
  rw [← formHint?_crlf form plain whole]
  exact exists_spelled_formHint form (matchesAll_crlf form plain whole)

theorem Literal.Legible.crlf {l : Literal} (h : l.Legible) (plain : PlainBreaks l.source.toList) :
    l.crlf.Legible := by
  obtain ⟨v, spelled, means⟩ := h.spelled
  constructor
  case before =>
    rw [Literal.crlf, Space.crlf_of_oneLine h.before.oneLine]
    exact h.before
  case markers => exact h.markers
  case spelled => simpa [Literal.crlf] using spells_crlf plain spelled means

/-! ### Lines of content -/

theorem KeyValue.chars_pieces (kv : KeyValue) : Piece.chars kv.pieces =
    kv.before.chars ++ (kv.key.before.chars ++ (kv.key.name.toList ++
      (kv.afterKey.chars ++ '=' :: (kv.value.before.chars ++ kv.value.source.toList)))) := by
  simp [KeyValue.pieces, Key.pieces, Literal.pieces, Piece.ofSpace]

theorem Table.chars_pieces (t : Table) :
    Piece.chars t.pieces = t.before.chars ++ t.source.toList := by
  simp [Table.pieces, Piece.ofSpace]

theorem KeyValue.Legible.crlf {kv : KeyValue} (h : kv.Legible)
    (plain : PlainBreaks (Piece.chars kv.pieces)) :
    kv.crlf.Legible ∧ Piece.chars kv.crlf.pieces = Text.crlf (Piece.chars kv.pieces) := by
  rw [KeyValue.chars_pieces] at plain
  have atKey := plain.behind.behind
  obtain ⟨tk, spelled⟩ := h.key.spelled
  have name := oneLine_key atKey.front spelled
  refine ⟨⟨?_, h.markers, ⟨?_, h.key.markers, h.key.spelled⟩, ?_,
    h.value.crlf atKey.behind.behind.tail.behind⟩, ?_⟩
  · rw [KeyValue.crlf, h.before, Space.crlf_empty]
  · rw [KeyValue.crlf, h.key.before, Space.crlf_empty]
  · rw [KeyValue.crlf, Space.crlf_of_oneLine h.afterKey.oneLine]
    exact h.afterKey
  · rw [KeyValue.chars_pieces, KeyValue.chars_pieces]
    have sign : ∀ s, Text.crlf ('=' :: s) = '=' :: Text.crlf s := crlf_cons (by decide)
    simp [KeyValue.crlf, Literal.crlf, name.crlf_eq_self, sign]

theorem Table.Legible.crlf {t : Table} (h : t.Legible)
    (plain : PlainBreaks (Piece.chars t.pieces)) :
    Text.crlf (Piece.chars t.pieces) = Piece.chars t.pieces := by
  obtain ⟨v, spelled, _⟩ := h.spelled
  rw [Table.chars_pieces, h.before] at plain ⊢
  exact (oneLine_header plain spelled).crlf_eq_self

theorem Item.Legible.crlf {i : Item} (h : i.Legible) (plain : PlainBreaks (Piece.chars i.pieces)) :
    i.crlf.Legible ∧ Piece.chars i.crlf.pieces = Text.crlf (Piece.chars i.pieces) := by
  cases i with
  | keyValue kv => exact KeyValue.Legible.crlf h plain
  | table t =>
    have header : t.Legible := h
    have still : Item.crlf (.table t) = .table t := by
      rw [Item.crlf, header.before, Space.crlf_empty, ← header.before]
    rw [still]
    exact ⟨h, (header.crlf plain).symm⟩

/-- A comment stays as it is. -/
theorem Comment.Legible.crlf {c : Comment} (h : c.Legible) :
    c.crlf = c ∧ OneLine (Piece.chars c.pieces) := by
  obtain ⟨body, text, inside⟩ := h.text.hash
  have note : OneLine c.text.toList := by
    rw [text]
    simpa [OneLine, isLineEnd] using inside
  constructor
  · rw [Comment.crlf, Space.crlf_of_oneLine h.before.oneLine]
  · simpa [Comment.pieces, Piece.ofSpace] using h.before.oneLine.append note

theorem Expression.Legible.crlf (h : e.Legible) (plain : PlainBreaks e.body) :
    e.crlf.Legible ∧ e.crlf.body = Text.crlf e.body := by
  obtain ⟨i, content, item⟩ := h.item
  rw [Expression.body, content, Piece.chars_append] at plain
  obtain ⟨legible, printed⟩ := item.crlf plain.front
  have sameComment : e.comment.map Comment.crlf = e.comment := by
    cases noted : e.comment with
    | none => rfl
    | some c => rw [Option.map_some, (h.comment c noted).crlf.1]
  have noteText : OneLine (Piece.chars ((e.comment.map Comment.pieces).getD [])) := by
    cases noted : e.comment with
    | none =>
      intro c member
      cases member
    | some c => exact (h.comment c noted).crlf.2
  constructor
  · refine ⟨h.markers, ⟨_, congrArg (Option.map Item.crlf) content, legible⟩, ?_⟩
    rw [Expression.crlf, sameComment]
    exact h.comment
  · rw [Expression.body, Expression.body, Expression.crlf, sameComment, content]
    simpa [noteText.crlf_eq_self] using printed

/-! ### Whole documents -/

theorem endsLine_crlf (s : List Char) : endsLine (Text.crlf s) = endsLine s := by
  induction s with
  | nil => rfl
  | cons c s ih =>
    by_cases feed : c = '\n'
    · simp [feed, crlf_feed, endsLine, isLineEnd]
    · simp [crlf_cons feed, endsLine, ih]

/-- The character in front is the same, or both end a line. -/
theorem head?_crlf (s : List Char) : (Text.crlf s).head? = s.head? ∨
    (Text.crlf s).head? = some '\r' ∧ s.head? = some '\n' := by
  cases s with
  | nil => exact Or.inl rfl
  | cons c s =>
    by_cases feed : c = '\n'
    · exact Or.inr ⟨by rw [feed, crlf_feed]; rfl, by rw [feed]; rfl⟩
    · exact Or.inl (by rw [crlf_cons feed]; rfl)

theorem lineEnd_crlf {commented : Bool} (h : LineEnd commented left) :
    LineEnd commented (Text.crlf left) := by
  cases commented with
  | false =>
    intro c first
    rw [skip_crlf skipsInLine] at first
    rcases head?_crlf (skip grammar.blank .spaced left).2 with same | ⟨carriage, _⟩
    · exact h c (same ▸ first)
    · rw [carriage] at first
      obtain rfl := Option.some.inj first
      rfl
  | true => exact (endsLine_crlf left).trans h

theorem Before.crlf (h : Before previous left) : Before previous (Text.crlf left) := by
  cases previous with
  | none => exact Filler.crlf h
  | some commented => exact Separator.crlf h

theorem After.crlf (h : After previous left) : After previous (Text.crlf left) := by
  cases previous with
  | none => exact Trivia.crlf h
  | some commented => exact ⟨h.1.crlf, lineEnd_crlf h.2⟩

theorem Continues.crlf (h : Continues previous es left) (plain : PlainBreaks (linesText es)) :
    Continues previous (es.map Expression.crlf) (Text.crlf left) ∧
      linesText (es.map Expression.crlf) = Text.crlf (linesText es) := by
  induction es generalizing previous with
  | nil => exact ⟨After.crlf h, rfl⟩
  | cons e es ih =>
    obtain ⟨front, legible, more⟩ := h
    rw [linesText_cons] at plain
    obtain ⟨legible', body⟩ := legible.crlf plain.front.behind
    obtain ⟨continues, text⟩ := ih more plain.behind
    refine ⟨⟨?_, legible', ?_⟩, ?_⟩
    · simpa [Expression.crlf] using Before.crlf front
    · simpa [Expression.crlf] using continues
    · rw [List.map_cons, linesText_cons, linesText_cons, body, text]
      simp [Expression.crlf]

/-- A legible document with pairs for line feeds is legible, and prints as the text of the document
with pairs for line feeds. -/
theorem Document.Legible.crlf {d : Document} (h : d.Legible) (plain : PlainBreaks d.print.toList) :
    d.crlf.Legible ∧ d.crlf.print.toList = Text.crlf d.print.toList := by
  rw [h.toList_print] at plain ⊢
  obtain ⟨lines, text⟩ := h.lines.crlf plain.front
  have legible : d.crlf.Legible := by
    constructor
    case before => rw [Document.crlf, h.before, Space.crlf_empty]
    case markers => exact h.markers
    case lines => simpa [Document.crlf] using lines
  refine ⟨legible, ?_⟩
  rw [legible.toList_print]
  simp [Document.crlf, text]

end Verbatim
