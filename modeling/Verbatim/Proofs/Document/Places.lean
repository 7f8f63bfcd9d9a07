import Verbatim.Proofs.Document.Edit

/-!
# Where tokens are printed

A document is printed piece by piece, so each piece takes up certain bytes (`Piece.places`). The
tokens of a line that was built from a node are printed where the parts of the node stand, as long
as the line is printed where the node stands (`LineOf.tokens`). That is the case for all lines of a
document at once, by induction over them: the text that is printed in front of a line is the text in
front of its node (`LinesOf.inPlace`).
-/

namespace Verbatim

open Peg Text Toml

/-! ### Pieces and their places -/

namespace Piece

/-- Pieces with the bytes that each takes up, where the first is printed at an offset. -/
def places : Nat → List Piece → List (Piece × Span)
  | _, [] => []
  | pos, p :: ps =>
    (p, ⟨pos, pos + byteLength p.text.toList⟩) :: places (pos + byteLength p.text.toList) ps

/-- The pieces that are no spaces, with the bytes that each takes up. -/
def tokens (pos : Nat) (ps : List Piece) : List (Piece × Span) :=
  (places pos ps).filter fun p => p.1.kind ≠ .space

theorem places_append (pos : Nat) (ps qs : List Piece) :
    places pos (ps ++ qs) = places pos ps ++ places (pos + byteLength (chars ps)) qs := by
  induction ps generalizing pos with
  | nil => rfl
  | cons p ps ih =>
    simp only [List.cons_append, places, chars_cons, byteLength_append, ← Nat.add_assoc]
    rw [ih]

theorem tokens_append (pos : Nat) (ps qs : List Piece) :
    tokens pos (ps ++ qs) = tokens pos ps ++ tokens (pos + byteLength (chars ps)) qs := by
  unfold tokens
  rw [places_append, List.filter_append]

@[simp] theorem tokens_nil (pos : Nat) : tokens pos [] = [] := rfl

@[simp] theorem tokens_ofSpace (pos : Nat) (s : Space) (ps : List Piece) :
    tokens pos (ofSpace s :: ps) = tokens (pos + byteLength s.chars) ps := by
  simp [tokens, places, ofSpace, Space.chars]

theorem tokens_cons {p : Piece} (pos : Nat) (token : p.kind ≠ .space) (ps : List Piece) :
    tokens pos (p :: ps) = (p, ⟨pos, pos + byteLength p.text.toList⟩) ::
      tokens (pos + byteLength p.text.toList) ps := by
  simp [tokens, places, token]

/-- A piece is what the printed text has at its place. -/
theorem slice_of_mem_places {ps : List Piece} {p : Piece × Span} (before behind : List Char)
    (member : p ∈ places (byteLength before) ps) :
    slice? (before ++ chars ps ++ behind) p.2.start p.2.stop = some p.1.text.toList := by
  induction ps generalizing before with
  | nil => cases member
  | cons q ps ih =>
    rw [places] at member
    rcases List.mem_cons.mp member with rfl | later
    · have split : before ++ chars (q :: ps) ++ behind =
          before ++ q.text.toList ++ (chars ps ++ behind) := by simp
      rw [split]
      exact slice?_append _ _ _
    · rw [← byteLength_append] at later
      have found := ih (before ++ q.text.toList) later
      simpa using found

end Piece

/-! ### The tokens of a tree -/

namespace Build

variable {t i n k e v : Node} {g₁ g₂ gap text left : List Char} {ts : List Node} {pos : Nat}

/-- A node as a token: its text and the bytes that it covers. -/
def token (kind : PieceKind) (n : Node) : Piece × Span := (⟨kind, textOf n⟩, spanOf n)

/-- The child of a rule as a token, if there is one. -/
def childToken (t : Node) (rule : Rule) (kind : PieceKind) : List (Piece × Span) :=
  ((t.child? rule).map (token kind)).toList

/-- The key, the equals sign and the value of a pair. -/
def pairTokens (t : Node) : List (Piece × Span) :=
  childToken t .key .key ++ childToken t .equals .equals ++ childToken t .value .literal

/-- The tokens of a line of content: those of its pair, or its header, and then its comment. -/
def lineTokens (t : Node) : List (Piece × Span) :=
  (t.child? .keyValue).elim [] pairTokens ++ childToken t .table .table ++
    childToken t .comment .comment

/-- A token that is printed where its node stands takes up the bytes of the node. -/
theorem tokens_textOf (kind : PieceKind) (isToken : kind ≠ .space) (start : n.start = pos)
    (ps : List Piece) :
    Piece.tokens pos (⟨kind, textOf n⟩ :: ps) = token kind n :: Piece.tokens n.stop ps := by
  have chars : (textOf n).toList = n.text := by simp [textOf]
  rw [Piece.tokens_cons pos isToken, chars, token, spanOf, Tree.stop, start]

/-! ### Pairs and headers -/

theorem pairTokens_of_parts (parts : PairParts t k e v g₁ g₂) :
    pairTokens t = [token .key k, token .equals e, token .literal v] := by
  simp [pairTokens, childToken, child?_key parts, child?_equals parts, child?_value parts]

theorem ItemOf.chars {content : Item} (h : ItemOf t content) :
    Piece.chars content.pieces = t.text := by
  cases h with
  | @pair k e v g₁ g₂ kind hint rule parts means =>
    rw [parts.text, parts.sign]
    simp [Item.pieces, KeyValue.pieces, Key.pieces, Literal.pieces, Piece.ofSpace, textOf,
      Space.ofList]
  | header rule means => simp [Item.pieces, Table.pieces, Piece.ofSpace, textOf]

/-- The tokens of a pair or a header that is printed where its node stands. -/
theorem ItemOf.tokens {content : Item} (h : ItemOf i content) (ps : List Piece) :
    Piece.tokens i.start (content.pieces ++ ps) =
      (if i.rule = .keyValue then pairTokens i else [token .table i]) ++
        Piece.tokens i.stop ps := by
  rw [Piece.tokens_append, h.chars, ← Tree.stop]
  congr 1
  cases h with
  | @pair k e v g₁ g₂ kind hint rule parts means =>
    have sign : (⟨.equals, "="⟩ : Piece) = ⟨.equals, textOf e⟩ := by simp [textOf, parts.sign]
    have equals_start : e.start = k.stop + byteLength g₁ := by
      rw [parts.equals_start, Tree.stop, parts.key_start, byteLength_append]
      omega
    have value_start : v.start = e.stop + byteLength g₂ := by
      rw [parts.value_start, Tree.stop, parts.equals_start]
      simp only [byteLength_append]
      omega
    rw [if_pos rule, pairTokens_of_parts parts]
    simp only [Item.pieces, KeyValue.pieces, Key.pieces, Literal.pieces, List.cons_append,
      List.nil_append, Piece.tokens_ofSpace, Space.chars_empty, byteLength_nil, Nat.add_zero, sign]
    rw [tokens_textOf .key (by decide) parts.key_start, Piece.tokens_ofSpace, Space.chars_ofList,
      tokens_textOf .equals (by decide) equals_start, Piece.tokens_ofSpace, Space.chars_ofList,
      tokens_textOf .literal (by decide) value_start, Piece.tokens_nil]
  | header rule means =>
    have other : i.rule ≠ .keyValue := by simp [rule]
    rw [if_neg other]
    simp only [Item.pieces, Table.pieces, Piece.tokens_ofSpace, Space.chars_empty, byteLength_nil,
      Nat.add_zero]
    rw [tokens_textOf .table (by decide) rfl, Piece.tokens_nil]

/-! ### Lines -/

/-- The parts that a line of content has are the parts that its node has. -/
structure SameParts (e : Expression) (n : Node) : Prop where
  keyValue : e.keyValue?.isSome = (n.child? .keyValue).isSome
  table : e.table?.isSome = (n.child? .table).isSome
  comment : e.comment.isSome = (n.child? .comment).isSome

theorem LineOf.chars {e : Expression} (h : LineOf gap t e) :
    Piece.chars e.pieces = gap ++ t.text := by
  cases h with
  | plain wraps inside =>
    simp [Expression.pieces, Piece.ofSpace, Space.ofList, inside.chars, wraps.text]
  | commented parts inside =>
    simp [Expression.pieces, Comment.pieces, Piece.ofSpace, Space.ofList, inside.chars, parts.text,
      textOf]

theorem ItemOf.sameContent {content : Item} (h : ItemOf i content) :
    (i.rule = .keyValue ∧ ∃ kv, content = .keyValue kv) ∨
      (i.rule = .table ∧ ∃ header, content = .table header) := by
  cases h with
  | pair rule => exact Or.inl ⟨rule, _, rfl⟩
  | header rule => exact Or.inr ⟨rule, _, rfl⟩

theorem LineOf.sameParts {e : Expression} (h : LineOf gap t e) : SameParts e t := by
  cases h with
  | plain wraps inside =>
    rcases inside.sameContent with ⟨rule, kv, rfl⟩ | ⟨rule, header, rfl⟩
    all_goals constructor <;>
      simp [Expression.keyValue?, Expression.table?, child?_cons wraps.children, rule]
  | commented parts inside =>
    rcases inside.sameContent with ⟨rule, kv, rfl⟩ | ⟨rule, header, rfl⟩
    all_goals constructor <;>
      simp [Expression.keyValue?, Expression.table?, child?_cons parts.children, rule, parts.rule]

/-- The tokens in front of the comment of a line, told by the rule of its content. -/
theorem contentTokens_eq {others : List Node} (children : t.children = i :: others)
    (known : i.rule ∈ [Rule.keyValue, .table]) (comments : ∀ o ∈ others, o.rule = .comment) :
    (t.child? .keyValue).elim [] pairTokens ++ childToken t .table .table =
      if i.rule = .keyValue then pairTokens i else [token .table i] := by
  have none_of : ∀ r : Rule, r ≠ .comment → others.find? (·.rule = r) = none := by
    intro r other
    rw [List.find?_eq_none]
    intro o member same
    rw [comments o member] at same
    exact other (of_decide_eq_true same).symm
  simp only [List.mem_cons, List.not_mem_nil, or_false] at known
  rcases known with pair | header
  · simp [childToken, child?_cons children, pair, none_of]
  · simp [childToken, child?_cons children, header, none_of]

/-- A line that is printed where its node stands has its tokens where the parts of the node
stand. -/
theorem LineOf.tokens {e : Expression} (h : LineOf gap t e)
    (start : t.start = pos + byteLength gap) : Piece.tokens pos e.pieces = lineTokens t := by
  cases h with
  | @plain i content wraps inside =>
    have bare : t.child? .comment = none := child?_comment wraps.children inside.known
    have content_tokens := inside.tokens []
    rw [List.append_nil, Piece.tokens_nil, List.append_nil, wraps.start] at content_tokens
    rw [lineTokens, contentTokens_eq wraps.children inside.known (by simp), childToken, bare]
    simp [Expression.pieces, ← start, content_tokens]
  | @commented i c between content parts inside =>
    have behindItem : t.child? .comment = some c := by
      rw [child?_comment parts.children inside.known]
      simp [parts.rule]
    have content_tokens := inside.tokens (Comment.pieces
      { before := .ofList between, text := textOf c })
    rw [parts.item_start] at content_tokens
    rw [lineTokens, contentTokens_eq parts.children inside.known (by simp [parts.rule]), childToken,
      behindItem]
    simp only [Expression.pieces, Option.map_some, Option.getD_some, List.cons_append,
      Piece.tokens_ofSpace, Space.chars_ofList, ← start, content_tokens]
    rw [Comment.pieces, Piece.tokens_ofSpace, Space.chars_ofList,
      tokens_textOf .comment (by decide) parts.comment_start, Piece.tokens_nil]
    rfl

/-- A line takes up the text up to the end of its node, so what is printed behind the line starts
there. -/
theorem LineOf.place_behind {e : Expression} (h : LineOf gap t e)
    (start : t.start = pos + byteLength gap) :
    pos + byteLength (Piece.chars e.pieces) = t.stop := by
  rw [h.chars, Tree.stop, start, byteLength_append]
  omega

/-- All lines together have their tokens where the parts of the nodes stand, if the first is printed
where the text starts. -/
theorem LinesOf.tokens {es : List Expression} (lines : LinesOf pos text ts es left) :
    Piece.tokens pos (es.flatMap Expression.pieces) = ts.flatMap lineTokens := by
  induction lines with
  | last pos left => rfl
  | line start here more ih =>
    rw [List.flatMap_cons, List.flatMap_cons, Piece.tokens_append, here.tokens start,
      here.place_behind start, ih]

/-- Lines are built one for each node, and each is printed where its node stands, if the first is
printed where the text starts. -/
theorem LinesOf.inPlace {es : List Expression} (lines : LinesOf pos text ts es left) :
    es.length = ts.length ∧ ∀ i e n, es[i]? = some e → ts[i]? = some n → SameParts e n ∧
      Piece.tokens (pos + byteLength (Piece.chars ((es.take i).flatMap Expression.pieces)))
        e.pieces = lineTokens n := by
  induction lines with
  | last pos left => exact ⟨rfl, fun i e n line => by simp at line⟩
  | @line pos gap rest left t ts e es start here more ih =>
    obtain ⟨lengths, later⟩ := ih
    refine ⟨by simp [lengths], fun i e' n line node => ?_⟩
    cases i with
    | zero =>
      obtain rfl : e = e' := Option.some.inj line
      obtain rfl : t = n := Option.some.inj node
      exact ⟨here.sameParts, here.tokens start⟩
    | succ i =>
      obtain ⟨same, tokens⟩ := later i e' n line node
      refine ⟨same, ?_⟩
      -- what is printed up to the end of the first line is the text up to the end of its node
      have place : pos + byteLength (Piece.chars (((e :: es).take (i + 1)).flatMap
          Expression.pieces)) =
          t.stop + byteLength (Piece.chars ((es.take i).flatMap Expression.pieces)) := by
        rw [List.take_succ_cons, List.flatMap_cons, Piece.chars_append, byteLength_append,
          ← here.place_behind start, Nat.add_assoc]
      rw [place]
      exact tokens

end Build

/-! ### Documents -/

/-- A numbered line, wherever it stands among the others. -/
theorem exists_of_numberAll {next i : Nat} {es : List Expression} {e : Expression}
    (h : (numberAll next es)[i]? = some e) :
    ∃ e' next', es[i]? = some e' ∧ e = e'.number next' := by
  induction es generalizing next i with
  | nil => cases h
  | cons first es ih =>
    cases i with
    | zero => exact ⟨first, next, rfl, (Option.some.inj h).symm⟩
    | succ i => exact ih h

theorem take_numberAll (next i : Nat) (es : List Expression) :
    (numberAll next es).take i = numberAll next (es.take i) := by
  induction es generalizing next i with
  | nil => simp [numberAll]
  | cons e es ih =>
    cases i with
    | zero => rfl
    | succ i => simp [numberAll, ih]

theorem length_numberAll (next : Nat) (es : List Expression) :
    (numberAll next es).length = es.length := by
  induction es generalizing next with
  | nil => rfl
  | cons e es ih => simp [numberAll, ih]

theorem Build.SameParts.number {e : Expression} {n : Build.Node} (h : Build.SameParts e n)
    (next : Nat) : Build.SameParts (e.number next) n := by
  obtain ⟨id, before, markers, item, comment⟩ := e
  cases item with
  | none => exact ⟨h.keyValue, h.table, h.comment⟩
  | some i => cases i <;> exact ⟨h.keyValue, h.table, h.comment⟩

/-- A line of a document is printed where a node stands: it has the parts of the node, and each of
its tokens takes up the bytes of the part that it was made from. -/
structure Document.LineInPlace (d : Document) (i : Nat) (e : Expression) (n : Build.Node) :
    Prop where
  /-- What is printed of the document, cut around the line. -/
  cut : d.pieces = d.piecesBefore i ++ e.pieces ++ d.piecesBehind i
  parts : Build.SameParts e n
  tokens : Piece.tokens (byteLength (Piece.chars (d.piecesBefore i))) e.pieces =
    Build.lineTokens n

/-- The lines of a document that is built from lines of a text are printed where they stand there,
with any identities. -/
theorem Build.LinesOf.lineInPlace {text left : List Char} {ts : List Build.Node}
    {es : List Expression} {d : Document} (lines : Build.LinesOf 0 text ts es left) (next : Nat)
    (before : d.before = {}) (numbered : d.expressions = numberAll next es) :
    d.expressions.length = ts.length ∧
      (∀ i e n, d.expressions[i]? = some e → ts[i]? = some n → d.LineInPlace i e n) ∧
      Piece.tokens 0 d.pieces = ts.flatMap Build.lineTokens := by
  obtain ⟨lengths, inPlace⟩ := lines.inPlace
  refine ⟨?_, ?_, ?_⟩
  · rw [numbered, length_numberAll, lengths]
  · intro i e n line node
    have found := line
    rw [numbered] at found
    obtain ⟨e', next', same, rfl⟩ := exists_of_numberAll found
    obtain ⟨parts, tokens⟩ := inPlace i e' n same node
    constructor
    case cut =>
      have printed := Document.pieces_setLine line (e'.number next')
      rwa [Document.setLine_self line] at printed
    case parts => exact parts.number next'
    case tokens =>
      rw [Expression.pieces_number, ← tokens, Document.piecesBefore, numbered, take_numberAll,
        before]
      simp [pieces_numberAll, Piece.ofSpace]
  · rw [Document.pieces, before, numbered, pieces_numberAll, List.cons_append,
      Piece.tokens_ofSpace, Piece.tokens_append, Space.chars_empty, byteLength_nil, lines.tokens,
      Piece.tokens_ofSpace, Piece.tokens_nil, List.append_nil]

end Verbatim
