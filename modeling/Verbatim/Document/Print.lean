import Verbatim.Document.Basic

/-!
# Printing

A node is printed as its pieces: the space before it, then its own tokens and the nodes inside it
from left to right. A document ends with its trailing space. For a document fresh from a text the
pieces are that text.
-/

namespace Verbatim

/-- What a piece of printed text is. -/
inductive PieceKind where
  | space | key | equals | literal | table | comment
  deriving DecidableEq, Repr

/-- A piece of printed text. -/
structure Piece where
  kind : PieceKind
  text : String
  deriving DecidableEq, Repr

namespace Piece

def ofSpace (s : Space) : Piece := ⟨.space, s.text⟩

/-- The pieces one after another. -/
def join (pieces : List Piece) : String := String.join (pieces.map (·.text))

end Piece

def Key.pieces (k : Key) : List Piece := [.ofSpace k.before, ⟨.key, k.name⟩]

/-- The pieces of a value. -/
def Literal.pieces (l : Literal) : List Piece := [.ofSpace l.before, ⟨.literal, l.source⟩]

/-- The pieces of a pair. -/
def KeyValue.pieces (kv : KeyValue) : List Piece :=
  .ofSpace kv.before :: kv.key.pieces ++ [.ofSpace kv.afterKey, ⟨.equals, "="⟩] ++ kv.value.pieces

/-- The pieces of a header. -/
def Table.pieces (t : Table) : List Piece := [.ofSpace t.before, ⟨.table, t.source⟩]

def Comment.pieces (c : Comment) : List Piece := [.ofSpace c.before, ⟨.comment, c.text⟩]

/-- The pieces of the content of a line. -/
def Item.pieces : Item → List Piece
  | keyValue kv => kv.pieces
  | table t => t.pieces

/-- The pieces of a line of content. -/
def Expression.pieces (e : Expression) : List Piece :=
  .ofSpace e.before :: (e.item.map Item.pieces).getD [] ++ (e.comment.map Comment.pieces).getD []

def Document.pieces (d : Document) : List Piece :=
  .ofSpace d.before :: d.expressions.flatMap Expression.pieces ++ [.ofSpace d.trailing]

/-- The document as text. -/
def Document.print (d : Document) : String := Piece.join d.pieces

end Verbatim
