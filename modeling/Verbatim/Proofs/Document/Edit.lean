import Verbatim.Document.Edit
import Verbatim.Proofs.Document.Legible

/-!
# One line of a document replaced

Whether a line may stand where it stands depends on the other lines only through the question
whether the line in front has a comment. So a legible line can be replaced by another one that
answers this question in the same way (`Continues.set`), and all that is printed in front of the
line and behind it stays (`Document.pieces_setLine`).
-/

namespace Verbatim

open Text

variable {previous : Option Bool} {es : List Expression} {e e' : Expression} {left : List Char}
  {i : Nat} {d : Document} {kv : KeyValue}

/-! ### Legible lines -/

/-- A line of a legible document is legible, and so is the space in front of it. -/
theorem Continues.line (h : Continues previous es left) (found : es[i]? = some e) :
    Before (if i = 0 then previous else some true) e.before.chars ∧ e.Legible := by
  induction es generalizing previous i with
  | nil => cases found
  | cons first es ih =>
    obtain ⟨front, legible, more⟩ := h
    cases i with
    | zero =>
      obtain rfl : first = e := Option.some.inj found
      exact ⟨front, legible⟩
    | succ i =>
      obtain ⟨front, legible⟩ := ih more found
      refine ⟨?_, legible⟩
      split at front <;> exact front

/-- A line can be replaced by a legible one that has a comment if the line had one. -/
theorem Continues.set (h : Continues previous es left) (found : es[i]? = some e)
    (front : Before (if i = 0 then previous else some true) e'.before.chars) (legible : e'.Legible)
    (noted : e'.comment.isSome = e.comment.isSome) : Continues previous (es.set i e') left := by
  induction es generalizing previous i with
  | nil => cases found
  | cons first es ih =>
    obtain ⟨here, inside, more⟩ := h
    cases i with
    | zero =>
      obtain rfl : first = e := Option.some.inj found
      exact ⟨front, legible, noted ▸ more⟩
    | succ i =>
      refine ⟨here, inside, ih more found ?_⟩
      split <;> exact front

namespace Document

/-- The document with another line in place of one. -/
def setLine (d : Document) (i : Nat) (e : Expression) : Document :=
  { d with expressions := d.expressions.set i e }

theorem getElem?_setLine (found : d.expressions[i]? = some e) (e' : Expression) :
    (d.setLine i e').expressions[i]? = some e' := by
  obtain ⟨inside, _⟩ := List.getElem?_eq_some_iff.mp found
  rw [setLine, List.getElem?_set_self inside]

theorem Legible.setLine (h : d.Legible) (found : d.expressions[i]? = some e)
    (front : Before (if i = 0 then none else some true) e'.before.chars) (legible : e'.Legible)
    (noted : e'.comment.isSome = e.comment.isSome) : (d.setLine i e').Legible :=
  ⟨h.before, h.markers, h.lines.set found front legible noted⟩

theorem mapLine?_eq_some {f : Expression → Option Expression}
    (found : d.expressions[i]? = some e) (changed : f e = some e') :
    d.mapLine? i f = some (d.setLine i e') := by
  simp [mapLine?, found, changed, setLine]

theorem mapKeyValue?_eq_some (found : d.expressions[i]? = some e) (pair : e.keyValue? = some kv)
    (f : KeyValue → KeyValue) : d.mapLine? i (Expression.mapKeyValue? f) =
      some (d.setLine i { e with item := some (.keyValue (f kv)) }) :=
  mapLine?_eq_some found (by simp [Expression.mapKeyValue?, pair])

/-! ### What is printed around a line -/

/-- The pieces in front of a line. -/
def piecesBefore (d : Document) (i : Nat) : List Piece :=
  .ofSpace d.before :: (d.expressions.take i).flatMap Expression.pieces

/-- The pieces behind a line. -/
def piecesBehind (d : Document) (i : Nat) : List Piece :=
  (d.expressions.drop (i + 1)).flatMap Expression.pieces ++ [.ofSpace d.trailing]

theorem pieces_setLine (found : d.expressions[i]? = some e) (e' : Expression) :
    (d.setLine i e').pieces = d.piecesBefore i ++ e'.pieces ++ d.piecesBehind i := by
  obtain ⟨inside, _⟩ := List.getElem?_eq_some_iff.mp found
  simp [pieces, setLine, piecesBefore, piecesBehind, List.set_eq_take_append_cons_drop, inside]

theorem setLine_self (found : d.expressions[i]? = some e) : d.setLine i e = d := by
  obtain ⟨inside, rfl⟩ := List.getElem?_eq_some_iff.mp found
  rw [setLine, List.set_getElem_self]

end Document

/-! ### What is printed around the tokens of a pair -/

theorem Expression.item_of_keyValue? (h : e.keyValue? = some kv) :
    e.item = some (.keyValue kv) := by
  unfold Expression.keyValue? at h
  split at h
  next found => rw [found, Option.some.inj h]
  · cases h

/-- The pair of a legible line is legible, and the line stays so with another legible pair. -/
theorem Expression.Legible.setPair {kv' : KeyValue} (h : e.Legible) (legible : kv'.Legible) :
    Expression.Legible { e with item := some (.keyValue kv') } :=
  ⟨h.markers, ⟨_, rfl, legible⟩, h.comment⟩

theorem Expression.Legible.pair (h : e.Legible) (found : e.keyValue? = some kv) : kv.Legible := by
  obtain ⟨i, content, legible⟩ := h.item
  rw [Expression.item_of_keyValue? found] at content
  obtain rfl := Option.some.inj content
  exact legible

/-- The pieces of the comment of a line. -/
def Expression.commentPieces (e : Expression) : List Piece :=
  (e.comment.map Comment.pieces).getD []

/-- The pieces of a line up to the key of its pair. -/
def KeyValue.piecesBeforeKey (kv : KeyValue) (e : Expression) : List Piece :=
  [.ofSpace e.before, .ofSpace kv.before, .ofSpace kv.key.before]

/-- The pieces of a line between the key of its pair and the value. -/
def KeyValue.piecesBetween (kv : KeyValue) : List Piece :=
  [.ofSpace kv.afterKey, ⟨.equals, "="⟩, .ofSpace kv.value.before]

/-- The text of a document with a pair on one of its lines. -/
theorem Document.print_setPair (found : d.expressions[i]? = some e) (kv : KeyValue) :
    (d.setLine i { e with item := some (.keyValue kv) }).print =
      Piece.join (d.piecesBefore i ++ kv.piecesBeforeKey e) ++ kv.key.name ++
        Piece.join kv.piecesBetween ++ kv.value.source ++
          Piece.join (e.commentPieces ++ d.piecesBehind i) := by
  rw [Document.print, Document.pieces_setLine found]
  simp [Expression.pieces, Item.pieces, KeyValue.pieces, Key.pieces, Literal.pieces,
    KeyValue.piecesBeforeKey, KeyValue.piecesBetween, Expression.commentPieces, String.append_assoc]

end Verbatim
