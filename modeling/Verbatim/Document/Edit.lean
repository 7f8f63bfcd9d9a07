import Verbatim.Document.Print

/-!
# Edits

Documents are values: an edit gives a new document. A `Place` names a node, and an edit at a place
gives `none` where the document has no such node.
-/

namespace Verbatim

/-- A node of a document. Lines are counted from zero. -/
inductive Place where
  | document
  | expression (line : Nat)
  | keyValue (line : Nat)
  | key (line : Nat)
  | literal (line : Nat)
  | table (line : Nat)
  | comment (line : Nat)
  deriving DecidableEq, Repr

namespace Expression

/-- Changes the pair of a line. -/
def mapKeyValue? (f : KeyValue → KeyValue) (e : Expression) : Option Expression :=
  e.keyValue?.map fun kv => { e with item := some (.keyValue (f kv)) }

/-- Changes the header of a line. -/
def mapTable? (f : Table → Table) (e : Expression) : Option Expression :=
  e.table?.map fun t => { e with item := some (.table (f t)) }

end Expression

namespace Document

/-- Changes one line. -/
def mapLine? (d : Document) (line : Nat) (f : Expression → Option Expression) : Option Document :=
  do
    let e ← d.expressions[line]?
    let e' ← f e
    return { d with expressions := d.expressions.set line e' }

/-- The space before a node and its markers. -/
def surroundings? (d : Document) : Place → Option (Space × Markers)
  | .document => some (d.before, d.markers)
  | .expression i => d.expressions[i]?.map fun e => (e.before, e.markers)
  | .keyValue i => (d.expressions[i]?.bind (·.keyValue?)).map fun kv => (kv.before, kv.markers)
  | .key i => (d.expressions[i]?.bind (·.keyValue?)).map fun kv => (kv.key.before, kv.key.markers)
  | .literal i =>
    (d.expressions[i]?.bind (·.keyValue?)).map fun kv => (kv.value.before, kv.value.markers)
  | .table i => (d.expressions[i]?.bind (·.table?)).map fun t => (t.before, t.markers)
  | .comment i => (d.expressions[i]?.bind (·.comment)).map fun c => (c.before, c.markers)

/-- Replaces the space before a node and its markers. -/
def setSurroundings? (d : Document) (place : Place) (before : Space) (markers : Markers) :
    Option Document :=
  match place with
  | .document => some { d with before, markers }
  | .expression i => d.mapLine? i fun e => some { e with before, markers }
  | .keyValue i => d.mapLine? i (Expression.mapKeyValue? fun kv => { kv with before, markers })
  | .key i =>
    d.mapLine? i
      (Expression.mapKeyValue? fun kv => { kv with key := { kv.key with before, markers } })
  | .literal i =>
    d.mapLine? i
      (Expression.mapKeyValue? fun kv => { kv with value := { kv.value with before, markers } })
  | .table i => d.mapLine? i (Expression.mapTable? fun t => { t with before, markers })
  | .comment i =>
    d.mapLine? i fun e =>
      e.comment.map fun c => { e with comment := some { c with before, markers } }

/-- Replaces the space before a node. -/
def setBefore? (d : Document) (place : Place) (before : Space) : Option Document := do
  let (_, markers) ← d.surroundings? place
  d.setSurroundings? place before markers

/-- Replaces the markers of a node. -/
def setMarkers? (d : Document) (place : Place) (markers : Markers) : Option Document := do
  let (before, _) ← d.surroundings? place
  d.setSurroundings? place before markers

/-- The text of one node, with the space before it. -/
def printAt? (d : Document) : Place → Option String
  | .document => some d.print
  | .expression i => d.expressions[i]?.map fun e => Piece.join e.pieces
  | .keyValue i => (d.expressions[i]?.bind (·.keyValue?)).map fun kv => Piece.join kv.pieces
  | .key i => (d.expressions[i]?.bind (·.keyValue?)).map fun kv => Piece.join kv.key.pieces
  | .literal i => (d.expressions[i]?.bind (·.keyValue?)).map fun kv => Piece.join kv.value.pieces
  | .table i => (d.expressions[i]?.bind (·.table?)).map fun t => Piece.join t.pieces
  | .comment i => (d.expressions[i]?.bind (·.comment)).map fun c => Piece.join c.pieces

/-- Renames the key of a line. -/
def setKeyName? (d : Document) (line : Nat) (name : String) : Option Document :=
  d.mapLine? line (Expression.mapKeyValue? fun kv => { kv with key := { kv.key with name } })

/-- Replaces the space between the key of a line and the equals sign. -/
def setAfterKey? (d : Document) (line : Nat) (afterKey : Space) : Option Document :=
  d.mapLine? line (Expression.mapKeyValue? fun kv => { kv with afterKey })

/-- Replaces the text of the value of a line. Its kind and its hint stay. -/
def setLiteralSource? (d : Document) (line : Nat) (source : String) : Option Document :=
  d.mapLine? line (Expression.mapKeyValue? fun kv => { kv with value := { kv.value with source } })

/-- Replaces the text of the header of a line. -/
def setTableSource? (d : Document) (line : Nat) (source : String) : Option Document :=
  d.mapLine? line (Expression.mapTable? fun t => { t with source })

/-- Puts a comment behind a line, or takes it away. -/
def setComment? (d : Document) (line : Nat) (comment : Option Comment) : Option Document :=
  d.mapLine? line fun e => some { e with comment }

/-- Takes away the content of a line. -/
def removeItem? (d : Document) (line : Nat) : Option Document :=
  d.mapLine? line fun e => some { e with item := none }

/-- The document with the given lines only, in the order given. Lines that do not exist are left
out, and a line given twice is there twice. -/
def select (d : Document) (lines : List Nat) : Document :=
  { d with expressions := lines.filterMap (d.expressions[·]?) }

/-- The document with more lines at the end, before its trailing space. -/
def append (d : Document) (more : List Expression) : Document :=
  { d with expressions := d.expressions ++ more }

end Document

end Verbatim
