import Verbatim.Document.Identity
import Verbatim.Document.Print
import Verbatim.Proofs.Peg.Border
import Verbatim.Proofs.Text.Filler
import Verbatim.Proofs.Toml.Production

/-!
# Where the text between tokens goes

The shape of every space in a document that was read and not edited. Lines of content have filler or
a separator in front of them, the parts of a line have spaces and tabs between them, and no other
node has a space of its own. Identities do not matter for what is printed.
-/

namespace Verbatim

open Text

/-- The characters of a space. -/
abbrev Space.chars (s : Space) : List Char := s.text.toList

/-- The characters of some pieces. -/
def Piece.chars (pieces : List Piece) : List Char := pieces.flatMap (·.text.toList)

@[simp] theorem Piece.chars_nil : Piece.chars [] = [] := rfl

@[simp] theorem Piece.chars_cons (p : Piece) (ps : List Piece) :
    Piece.chars (p :: ps) = p.text.toList ++ Piece.chars ps := rfl

@[simp] theorem Piece.chars_append (ps qs : List Piece) :
    Piece.chars (ps ++ qs) = Piece.chars ps ++ Piece.chars qs := by
  simp [Piece.chars]

theorem Piece.toList_join (ps : List Piece) : (Piece.join ps).toList = Piece.chars ps := by
  simp [Piece.join, Piece.chars, String.toList_join, List.flatMap_map]

@[simp] theorem Piece.join_nil : Piece.join [] = "" := rfl

@[simp] theorem Piece.join_append (ps qs : List Piece) :
    Piece.join (ps ++ qs) = Piece.join ps ++ Piece.join qs := by
  rw [← String.toList_inj, String.toList_append]
  simp only [Piece.toList_join, Piece.chars_append]

@[simp] theorem Piece.join_cons (p : Piece) (ps : List Piece) :
    Piece.join (p :: ps) = p.text ++ Piece.join ps := by
  rw [← String.toList_inj, String.toList_append]
  simp only [Piece.toList_join, Piece.chars_cons]

@[simp] theorem Space.chars_ofList (s : List Char) : (Space.ofList s).chars = s := by
  simp [Space.chars, Space.ofList]

@[simp] theorem Space.chars_empty : ({} : Space).chars = [] := rfl

theorem Space.ofList_nil : Space.ofList [] = {} := by
  simp [Space.ofList]

/-! ### Spaces of unedited nodes -/

/-- A pair has spaces and tabs around its equals sign, and nothing else. -/
structure KeyValue.WellSpaced (kv : KeyValue) : Prop where
  before : kv.before = {}
  key_before : kv.key.before = {}
  afterKey : Indents kv.afterKey.chars
  value_before : Indents kv.value.before.chars

/-- A header has no space of its own. -/
def Item.WellSpaced : Item → Prop
  | keyValue kv => kv.WellSpaced
  | table t => t.before = {}

/-- A comment is the rest of its line, and spaces and tabs stand before it. -/
structure Comment.WellSpaced (c : Comment) : Prop where
  before : Indents c.before.chars
  text : ∃ body, c.text.toList = '#' :: body ∧ OneLine body
  last : EndsIn Visible c.text.toList

/-- The spaces inside a line of content. -/
structure Expression.WellSpaced (e : Expression) : Prop where
  item : ∀ i, e.item = some i → i.WellSpaced
  comment : ∀ c, e.comment = some c → c.WellSpaced

/-- The spaces of lines: one shape in front of the first, separators in front of the others. -/
def LinesSpaced (lead : List Char → Prop) : List Expression → Prop
  | [] => True
  | e :: es => lead e.before.chars ∧ e.WellSpaced ∧ LinesSpaced Separator es

/-- The spaces of a whole document. -/
structure Document.WellSpaced (d : Document) : Prop where
  before : d.before = {}
  lines : LinesSpaced Filler d.expressions
  trailing : Tail d.trailing.chars

/-! ### Identities do not matter -/

theorem Item.pieces_number (next : Nat) (i : Item) : (i.number next).pieces = i.pieces := by
  cases i <;> rfl

theorem Expression.pieces_number (next : Nat) (e : Expression) :
    (e.number next).pieces = e.pieces := by
  cases h : e.item with
  | none => simp [Expression.number, Expression.pieces, h]
  | some i => simp [Expression.number, Expression.pieces, h, Item.pieces_number]

theorem pieces_numberAll (next : Nat) (es : List Expression) :
    (numberAll next es).flatMap Expression.pieces = es.flatMap Expression.pieces := by
  induction es generalizing next with
  | nil => rfl
  | cons e es ih => simp [numberAll, Expression.pieces_number, ih]

theorem Document.pieces_number (next : Nat) (d : Document) : (d.number next).pieces = d.pieces := by
  simp [Document.number, Document.pieces, pieces_numberAll]

end Verbatim
