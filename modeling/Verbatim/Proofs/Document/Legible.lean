import Verbatim.Proofs.Document.Build
import Verbatim.Proofs.Toml.Accept

/-!
# Documents that are read as they are

A document is legible if each of its tokens is spelled as the grammar spells such a token alone, and
each of its spaces holds what may stand there. What is built from the tree of a text is legible
(`exists_legible`), and the text of a legible document has a tree from which the document is built
again, up to identities (`exists_lines`). So an edit that leaves a document legible is an edit of
what is read from its text.
-/

namespace Verbatim

open Peg Text Toml Build

variable {pos depth : Nat} {s w gap left : List Char} {ts : List Node} {t tk tv : Node}
  {node : Nat → Node} {previous : Option Bool} {es : List Expression} {e : Expression}

/-! ### Without identities -/

/-- The pair without identities. -/
def KeyValue.bare (kv : KeyValue) : KeyValue :=
  { kv with id := 0, key := { kv.key with id := 0 }, value := { kv.value with id := 0 } }

/-- The content of a line without identities. -/
def Item.bare : Item → Item
  | keyValue kv => .keyValue kv.bare
  | table t => .table { t with id := 0 }

/-- The line without identities. -/
def Expression.bare (e : Expression) : Expression :=
  { e with id := 0, item := e.item.map Item.bare }

/-- The document without identities, and without the checksum of the bytes it was read from. -/
def Document.bare (d : Document) : Document :=
  { d with id := 0, checksum := none, expressions := d.expressions.map Expression.bare }

/-- What is known of a document besides its text and the checksum. -/
def Document.origin (d : Document) : Origin := ⟨d.path, d.charset, d.marked, none, d.attributes⟩

theorem Document.bare_eq (d : Document) : d.bare =
    { d.origin with
      before := d.before
      markers := d.markers
      expressions := d.expressions.map Expression.bare
      trailing := d.trailing } := rfl

theorem Item.bare_number (next : Nat) (i : Item) : (i.number next).bare = i.bare := by
  cases i <;> rfl

theorem Expression.bare_number (next : Nat) (e : Expression) : (e.number next).bare = e.bare := by
  cases h : e.item with
  | none => simp [Expression.number, Expression.bare, h]
  | some i => simp [Expression.number, Expression.bare, h, Item.bare_number]

theorem map_bare_numberAll (next : Nat) (es : List Expression) :
    (numberAll next es).map Expression.bare = es.map Expression.bare := by
  induction es generalizing next with
  | nil => rfl
  | cons e es ih => simp [numberAll, Expression.bare_number, ih]

theorem Document.bare_number (next : Nat) (d : Document) : (d.number next).bare = d.bare := by
  simp [Document.number, Document.bare, map_bare_numberAll]

theorem Item.bare_bare (i : Item) : i.bare.bare = i.bare := by
  cases i <;> rfl

theorem Expression.bare_bare (e : Expression) : e.bare.bare = e.bare := by
  cases h : e.item with
  | none => simp [Expression.bare, h]
  | some i => simp [Expression.bare, h, Item.bare_bare]

/-! ### Legible tokens and spaces -/

/-- A key that is spelled as such. -/
structure Key.Legible (k : Key) : Prop where
  before : k.before = {}
  markers : k.markers = {}
  spelled : ∃ t, Spells Grammar.key k.name.toList t

/-- A value that is spelled as one of its kind. -/
structure Literal.Legible (l : Literal) : Prop where
  before : Indents l.before.chars
  markers : l.markers = {}
  spelled : ∃ t, Spells .nested l.source.toList t ∧ meaning? t = some (l.kind, l.hint)

/-- A pair of legible parts. -/
structure KeyValue.Legible (kv : KeyValue) : Prop where
  before : kv.before = {}
  markers : kv.markers = {}
  key : kv.key.Legible
  afterKey : Indents kv.afterKey.chars
  value : kv.value.Legible

/-- A header that is spelled as one of its kind. -/
structure Table.Legible (h : Table) : Prop where
  before : h.before = {}
  markers : h.markers = {}
  spelled : ∃ t, Spells Grammar.table h.source.toList t ∧ headerKind? t = some h.kind

/-- Legible content of a line. -/
def Item.Legible : Item → Prop
  | keyValue kv => kv.Legible
  | table t => t.Legible

/-- A comment without blanks at its end. -/
structure Comment.Legible (c : Comment) : Prop where
  before : Indents c.before.chars
  markers : c.markers = {}
  text : IsComment c.text.toList

/-- A line of content with legible parts, whatever stands in front of it. -/
structure Expression.Legible (e : Expression) : Prop where
  markers : e.markers = {}
  item : ∃ i, e.item = some i ∧ i.Legible
  comment : ∀ c, e.comment = some c → c.Legible

/-- The text of a line of content, without the space in front of it. -/
def Expression.body (e : Expression) : List Char :=
  Piece.chars ((e.item.map Item.pieces).getD [] ++ (e.comment.map Comment.pieces).getD [])

theorem Expression.chars_pieces (e : Expression) :
    Piece.chars e.pieces = e.before.chars ++ e.body := by
  simp [Expression.pieces, Expression.body, Piece.ofSpace]

/-- The text of lines with the spaces in front of them. -/
def linesText (es : List Expression) : List Char := Piece.chars (es.flatMap Expression.pieces)

theorem linesText_nil : linesText [] = [] := rfl

theorem linesText_cons (e : Expression) (es : List Expression) :
    linesText (e :: es) = e.before.chars ++ e.body ++ linesText es := by
  simp [linesText, Expression.chars_pieces]

/-- What may stand in front of a line of content: filler at the start of the text, and a separator
behind another line. Of that line it is known whether it has a comment. -/
def Before : (previous : Option Bool) → List Char → Prop
  | none => Filler
  | some _ => Separator

/-- What may stand up to the end of the text, at its start or behind a line. -/
def After : (previous : Option Bool) → List Char → Prop
  | none, left => Trivia left
  | some commented, left => Tail left ∧ LineEnd commented left

/-- Lines of content that can go on at the start of the text or behind another line, with text
behind the last of them. -/
def Continues : (previous : Option Bool) → List Expression → List Char → Prop
  | previous, [], left => After previous left
  | previous, e :: es, left =>
    Before previous e.before.chars ∧ e.Legible ∧ Continues (some e.comment.isSome) es left

/-- A document of legible lines. -/
structure Document.Legible (d : Document) : Prop where
  before : d.before = {}
  markers : d.markers = {}
  lines : Continues none d.expressions d.trailing.chars

theorem Document.Legible.toList_print {d : Document} (h : d.Legible) :
    d.print.toList = linesText d.expressions ++ d.trailing.chars := by
  rw [Document.print, Piece.toList_join, Document.pieces, h.before]
  simp [linesText, Piece.ofSpace]

/-! ### Identities and spaces of legible documents -/

theorem Item.Legible.number {i : Item} (h : i.Legible) (next : Nat) : (i.number next).Legible := by
  cases i with
  | keyValue kv => exact ⟨h.before, h.markers, ⟨h.key.before, h.key.markers, h.key.spelled⟩,
      h.afterKey, ⟨h.value.before, h.value.markers, h.value.spelled⟩⟩
  | table t => exact ⟨h.before, h.markers, h.spelled⟩

theorem Expression.Legible.number (h : e.Legible) (next : Nat) : (e.number next).Legible := by
  obtain ⟨i, content, legible⟩ := h.item
  exact ⟨h.markers, ⟨_, congrArg (Option.map _) content, legible.number _⟩, h.comment⟩

theorem Continues.numberAll (h : Continues previous es left) (next : Nat) :
    Continues previous (numberAll next es) left := by
  induction es generalizing previous next with
  | nil => exact h
  | cons e es ih =>
    obtain ⟨front, legible, more⟩ := h
    exact ⟨front, legible.number next, ih more _⟩

theorem Document.Legible.number {d : Document} (h : d.Legible) (next : Nat) :
    (d.number next).Legible :=
  ⟨h.before, h.markers, h.lines.numberAll _⟩

theorem Item.Legible.wellSpaced {i : Item} (h : i.Legible) : i.WellSpaced := by
  cases i with
  | keyValue kv => exact ⟨h.before, h.key.before, h.afterKey, h.value.before⟩
  | table t => exact h.before

theorem Expression.Legible.wellSpaced (h : e.Legible) : e.WellSpaced := by
  constructor
  case item =>
    intro i content
    obtain ⟨j, same, legible⟩ := h.item
    obtain rfl : i = j := Option.some.inj (content.symm.trans same)
    exact legible.wellSpaced
  case comment =>
    intro c found
    have legible := h.comment c found
    exact ⟨legible.before, legible.text.hash, legible.text.last⟩

theorem Continues.linesSpaced (h : Continues previous es left) :
    LinesSpaced (Before previous) es ∧ Tail left := by
  induction es generalizing previous with
  | nil =>
    refine ⟨trivial, ?_⟩
    cases previous with
    | none => exact Trivia.tail h
    | some commented => exact h.1
  | cons e es ih =>
    obtain ⟨front, legible, more⟩ := h
    obtain ⟨spaced, tail⟩ := ih more
    exact ⟨⟨front, legible.wellSpaced, spaced⟩, tail⟩

theorem Document.Legible.wellSpaced {d : Document} (h : d.Legible) : d.WellSpaced :=
  ⟨h.before, h.lines.linesSpaced.1, h.lines.linesSpaced.2⟩

/-! ### Nodes of legible parts -/

/-- The parts of the node of a pair. -/
theorem pairNode_parts {k g₁ g₂ v : List Char} (h : PairText k g₁ g₂ v tk tv) (pos : Nat) :
    PairParts (pairNode pos k g₁ g₂ v tk tv) (tk.move pos)
      (.node .equals (pos + byteLength k + byteLength g₁) ['='] [])
      (tv.move (pos + byteLength k + byteLength g₁ + byteLength ['='] + byteLength g₂)) g₁ g₂ := by
  obtain ⟨keyRule, keyStart, keyText⟩ := h.key.text rfl
  obtain ⟨valueRule, valueStart, valueText⟩ := h.value.nested_text
  constructor
  case children => rfl
  case rules => exact ⟨by simpa using keyRule, rfl, by simpa using valueRule⟩
  case sign => rfl
  case text =>
    simp only [Tree.text_move, keyText, valueText]
    simp [pairNode, pairText, Tree.text]
  case key_start =>
    simp only [Tree.start_move, keyStart, Nat.zero_add]
    rfl
  case equals_start =>
    simp only [Tree.text_move, keyText]
    simp [pairNode, Tree.start]
    omega
  case value_start =>
    simp only [Tree.start_move, Tree.text_move, keyText, valueStart]
    simp [pairNode, Tree.start, Tree.text]
    omega
  case indents => exact h.indents

/-- Where a value stands says nothing about what it denotes. -/
theorem meaning?_move (pos : Nat) (t : Node) : meaning? (t.move pos) = meaning? t := by
  rw [meaning?, meaning?, Tree.children_move]
  cases t.children with
  | nil => rfl
  | cons n others =>
    have variant : variant? (n.move pos) = variant? n := by
      rw [variant?, variant?, Tree.children_move]
      cases n.children <;> simp
    simp [classOf, stringHint?, dateTimeHint?, textOf, variant]

theorem headerKind?_move (pos : Nat) (t : Node) : headerKind? (t.move pos) = headerKind? t := by
  rw [headerKind?, headerKind?, Tree.children_move]
  cases t.children <;> simp

/-- The node of a pair becomes the pair. -/
theorem itemOf_pairNode {k g₁ g₂ v : List Char} (h : PairText k g₁ g₂ v tk tv) {kind : LiteralKind}
    {hint : Option Hint} (means : meaning? tv = some (kind, hint)) (pos : Nat) :
    ItemOf (pairNode pos k g₁ g₂ v tk tv) (.keyValue
      { key := { name := .ofList k }
        afterKey := .ofList g₁
        value := { before := .ofList g₂, source := .ofList v, kind, hint } }) := by
  obtain ⟨_, _, keyText⟩ := h.key.text rfl
  obtain ⟨_, _, valueText⟩ := h.value.nested_text
  have becomes := ItemOf.pair rfl (pairNode_parts h pos) ((meaning?_move _ _).trans means)
  simpa [textOf, keyText, valueText] using becomes

theorem itemOf_header {kind : TableKind} (h : Spells Grammar.table w t)
    (means : headerKind? t = some kind) (pos : Nat) :
    ItemOf (t.move pos) (.table { kind, source := .ofList w }) := by
  obtain ⟨rule, _, text⟩ := h.text rfl
  have becomes := ItemOf.header (t := t.move pos) (by simpa using rule)
    ((headerKind?_move pos t).trans means)
  simpa [textOf, text] using becomes

/-- What a pair or a header in a text becomes is legible. -/
theorem exists_item (h : IsContent w node) (sound : Sound (node pos)) :
    ∃ i : Item, i.Legible ∧ ItemOf (node pos) i ∧ Piece.chars i.pieces = w := by
  cases h with
  | @pair k g₁ g₂ v tk tv parts =>
    obtain ⟨valueRule, _, _⟩ := parts.value.nested_text
    have inside : Sound (tv.move
        (pos + byteLength k + byteLength g₁ + byteLength ['='] + byteLength g₂)) :=
      sound.child (by simp [pairNode, Tree.children])
    obtain ⟨n, wraps, _⟩ := inside.made.valuePart (by simpa using valueRule)
    have means : meaning? tv = some ((classOf n).1, (classOf n).2) := by
      rw [← meaning?_move _ tv, meaning?, wraps.children]
      rfl
    refine ⟨_, ?_, itemOf_pairNode parts means pos, ?_⟩
    · exact ⟨rfl, rfl, ⟨rfl, rfl, tk, by simpa using parts.key⟩, by simpa using parts.indents.1,
        ⟨by simpa using parts.indents.2, rfl, tv, by simpa using parts.value, means⟩⟩
    · simp [Item.pieces, KeyValue.pieces, Key.pieces, Literal.pieces, Piece.ofSpace, Space.ofList,
        pairText]
  | @header w t spelled =>
    obtain ⟨rule, _, _⟩ := spelled.text rfl
    obtain ⟨n, wraps, _⟩ := sound.made.tablePart (by simpa using rule)
    obtain ⟨kind, means⟩ : ∃ kind, headerKind? t = some kind := by
      rw [← headerKind?_move pos t, headerKind?, wraps.children]
      exact ⟨_, rfl⟩
    refine ⟨_, ?_, itemOf_header spelled means pos, ?_⟩
    · exact ⟨rfl, rfl, t, by simpa using spelled, means⟩
    · simp [Item.pieces, Table.pieces, Piece.ofSpace]

/-- The text of a legible pair or header is content, whose node becomes the pair or header again. -/
theorem Item.Legible.exists_isContent {i : Item} (h : i.Legible) :
    ∃ node, IsContent (Piece.chars i.pieces) node ∧ ∀ pos, ItemOf (node pos) i.bare := by
  cases i with
  | keyValue kv =>
    obtain ⟨id, before, markers, ⟨keyId, keyBefore, keyMarkers, name⟩, afterKey,
      ⟨valueId, valueBefore, valueMarkers, source, kind, hint⟩⟩ := kv
    obtain ⟨rfl, rfl, ⟨rfl, rfl, tk, key⟩, afterIndents, ⟨valueIndents, rfl, tv, value, means⟩⟩ := h
    have parts : PairText name.toList afterKey.chars valueBefore.chars source.toList tk tv :=
      ⟨key, value, afterIndents, valueIndents⟩
    have printed : Piece.chars (Item.pieces (.keyValue ⟨id, {}, {}, ⟨keyId, {}, {}, name⟩, afterKey,
        ⟨valueId, valueBefore, {}, source, kind, hint⟩⟩)) =
        pairText name.toList afterKey.chars valueBefore.chars source.toList := by
      simp [Item.pieces, KeyValue.pieces, Key.pieces, Literal.pieces, Piece.ofSpace, pairText]
    rw [printed]
    refine ⟨_, .pair parts, fun pos => ?_⟩
    have becomes := itemOf_pairNode parts means pos
    simpa [Item.bare, KeyValue.bare, Space.ofList, Space.chars] using becomes
  | table header =>
    obtain ⟨id, before, markers, kind, source⟩ := header
    obtain ⟨rfl, rfl, t, spelled, means⟩ := h
    have printed : Piece.chars (Item.pieces (.table ⟨id, {}, {}, kind, source⟩)) =
        source.toList := by
      simp [Item.pieces, Table.pieces, Piece.ofSpace]
    rw [printed]
    refine ⟨_, .header spelled, fun pos => ?_⟩
    have becomes := itemOf_header spelled means pos
    simpa [Item.bare] using becomes

/-! ### Nodes of legible lines -/

/-- The parts of a line without a comment. -/
theorem lineNode_wraps (h : IsContent w node) (pos : Nat) :
    Wraps (.node .expression pos w [node pos]) (node pos) :=
  ⟨rfl, (h.place pos).1, (h.place pos).2⟩

/-- The parts of a line with a comment. -/
theorem lineNode_parts {between : List Char} (h : IsContent w node) (pos : Nat)
    (indents : Indents between) (note : List Char) : CommentedParts
      (.node .expression pos (w ++ (between ++ note))
        [node pos, .node .comment (pos + byteLength w + byteLength between) note []])
      (node pos) (.node .comment (pos + byteLength w + byteLength between) note []) between := by
  obtain ⟨start, text⟩ := h.place pos
  constructor
  case children => rfl
  case rule => rfl
  case item_start => exact start
  case comment_start =>
    rw [Tree.stop, start, text]
    rfl
  case text =>
    rw [text, List.append_assoc]
    rfl
  case indents => exact indents

/-- What a line in a text becomes is legible. -/
theorem exists_line {commented : Bool} (h : IsLine pos commented w t) (sound : Sound t)
    (gap : List Char) : ∃ e : Expression, e.Legible ∧ LineOf gap t e ∧
      e.comment.isSome = commented ∧ e.before = .ofList gap ∧ e.body = w := by
  cases h with
  | @plain _ node inside =>
    have inner : Sound (node pos) := sound.child (by simp [Tree.children])
    obtain ⟨i, legible, becomes, printed⟩ := exists_item inside inner
    refine ⟨_, ⟨rfl, ⟨i, rfl, legible⟩, ?_⟩, .plain (lineNode_wraps inside pos) becomes, rfl, rfl,
      ?_⟩
    · rintro _ ⟨⟩
    · simp [Expression.body, printed]
  | @commented w between note node inside indents comment =>
    have inner : Sound (node pos) := sound.child (by simp [Tree.children])
    obtain ⟨i, legible, becomes, printed⟩ := exists_item inside inner
    refine ⟨_, ⟨rfl, ⟨i, rfl, legible⟩, ?_⟩,
      .commented (lineNode_parts inside pos indents note) becomes, rfl, rfl, ?_⟩
    · rintro _ ⟨⟩
      exact ⟨by simpa using indents, rfl, by simpa [textOf, Tree.text] using comment⟩
    · simp [Expression.body, printed, Comment.pieces, Piece.ofSpace, textOf, Tree.text,
        Space.ofList]

/-- The text of a legible line is a line, whose node becomes the line again. -/
theorem Expression.Legible.exists_isLine (h : e.Legible) (pos : Nat) :
    ∃ t, IsLine pos e.comment.isSome e.body t ∧ LineOf e.before.chars t e.bare := by
  obtain ⟨id, before, markers, item, comment⟩ := e
  obtain ⟨rfl, ⟨i, rfl, legible⟩, noted⟩ := h
  obtain ⟨node, inside, becomes⟩ := legible.exists_isContent
  cases comment with
  | none =>
    have printed : Expression.body ⟨id, before, {}, some i, none⟩ = Piece.chars i.pieces := by
      simp [Expression.body]
    rw [printed]
    refine ⟨_, .plain inside, ?_⟩
    have line : LineOf before.chars _ _ := .plain (lineNode_wraps inside pos) (becomes pos)
    simpa [Expression.bare, Space.ofList, Space.chars] using line
  | some c =>
    obtain ⟨between, markers, text⟩ := c
    obtain ⟨indents, rfl, isComment⟩ := noted _ rfl
    have printed : Expression.body ⟨id, before, {}, some i, some ⟨between, {}, text⟩⟩ =
        Piece.chars i.pieces ++ (between.chars ++ text.toList) := by
      simp [Expression.body, Comment.pieces, Piece.ofSpace]
    rw [printed]
    refine ⟨_, .commented inside indents isComment, ?_⟩
    have parts := lineNode_parts inside pos indents text.toList
    have line : LineOf before.chars _ _ := .commented parts (becomes pos)
    simpa [Expression.bare, Space.ofList, Space.chars, textOf, Tree.text] using line

/-! ### Whole texts -/

/-- The lines that are read from a text are legible. -/
theorem exists_legible {lead : List Char → Prop} (lines : Lines depth lead pos s ts)
    (sound : ∀ t ∈ ts, Sound t) (enough : s.length ≤ depth) (same : lead = Before previous)
    (last : ts = [] → After previous s) :
    ∃ es left, LinesOf pos s ts es left ∧ Continues previous es left ∧
      linesText es ++ left = s := by
  induction lines generalizing previous with
  | @last _ pos gap tail => exact ⟨[], gap, .last pos gap, last rfl, rfl⟩
  | @line _ pos gap rest t ts front rule start found more ih =>
    subst same
    simp only [List.length_append] at enough
    obtain ⟨commented, t', line, ended, one⟩ := exists_isLine found more.ahead (by omega)
    obtain rfl : t = t' := by simpa using one
    obtain ⟨e, legible, becomes, noted, before, body⟩ := exists_line line (sound t (by simp)) gap
    have ending : ts = [] → After (some e.comment.isSome) rest := by
      rintro rfl
      cases more with
      | last tail => exact ⟨tail, noted ▸ ended⟩
    obtain ⟨es, left, later, continues, printed⟩ :=
      ih (fun u member => sound u (by simp [member])) (by omega) rfl ending
    refine ⟨e :: es, left, .line start becomes later, ⟨?_, legible, continues⟩, ?_⟩
    · rwa [before, Space.chars_ofList]
    · rw [linesText_cons, before, body, Space.chars_ofList, List.append_assoc, printed]

/-- Behind a line stands nothing that would change it. -/
theorem Continues.lineEnd {commented : Bool} (h : Continues (some commented) es left) :
    LineEnd commented (linesText es ++ left) := by
  cases es with
  | nil => exact h.2
  | cons e es =>
    rw [linesText_cons]
    simp only [List.append_assoc]
    exact lineEnd_of_separator h.1 commented _

/-- The text of legible lines is read as these lines. -/
theorem Continues.exists_lines (h : Continues previous es left)
    (enough : (linesText es ++ left).length ≤ depth) (pos : Nat) :
    ∃ ts, Lines depth (Before previous) pos (linesText es ++ left) ts ∧
      LinesOf pos (linesText es ++ left) ts (es.map Expression.bare) left ∧
      (ts = [] → es = []) := by
  induction es generalizing previous pos with
  | nil =>
    exact ⟨[], .last h.linesSpaced.2, .last pos left, fun _ => rfl⟩
  | cons e es ih =>
    obtain ⟨front, legible, more⟩ := h
    rw [linesText_cons, List.append_assoc] at enough ⊢
    obtain ⟨t, line, becomes⟩ := legible.exists_isLine (pos + byteLength e.before.chars)
    obtain ⟨rule, start, text⟩ := line.place
    simp only [List.length_append] at enough
    have found := line.takes more.lineEnd (show _ ≤ depth by omega)
    obtain ⟨ts, lines, linesOf, _⟩ := ih more (by simp only [List.length_append]; omega) t.stop
    rw [← start, ← text] at found
    rw [← text]
    exact ⟨t :: ts, .line front rule start found lines, .line start becomes linesOf, by simp⟩

end Verbatim
