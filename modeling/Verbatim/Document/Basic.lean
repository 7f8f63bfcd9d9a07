import Verbatim.Document.Marker
import Verbatim.Document.Space
import Verbatim.Literal.Hint

/-!
# Documents

The tree of one TOML file. Every node but a comment has an identity, and every node has the verbatim
space that stands before it. The texts of all nodes in print order, with the trailing space at the
end, are the file.
-/

namespace Verbatim

/-- The checksum of the bytes that a document was read from. -/
structure Checksum where
  algorithm : String
  value : String
  deriving DecidableEq, Repr

/-- A point in time, counted from the epoch. -/
structure Timestamp where
  seconds : Nat
  nanoseconds : Nat
  deriving DecidableEq, Repr

/-- What the file system says about a file. -/
structure FileAttributes where
  created : Option Timestamp := none
  modified : Option Timestamp := none
  accessed : Option Timestamp := none
  readable : Bool := false
  writable : Bool := false
  executable : Bool := false
  size : Nat := 0
  deriving DecidableEq, Repr

/-- A bare, quoted or dotted key. -/
structure Key where
  id : Nat := 0
  before : Space := {}
  markers : Markers := {}
  /-- The key as written. -/
  name : String
  deriving DecidableEq, Repr

/-- What sort of value a literal is. -/
inductive LiteralKind where
  | string | integer | float | boolean | dateTime | array | inlineTable
  deriving DecidableEq, Repr

def LiteralKind.name : LiteralKind → String
  | string => "String"
  | integer => "Integer"
  | float => "Float"
  | boolean => "Boolean"
  | dateTime => "DateTime"
  | array => "Array"
  | inlineTable => "InlineTable"

/-- A value. -/
structure Literal where
  id : Nat := 0
  /-- The space between the equals sign and the value. -/
  before : Space := {}
  markers : Markers := {}
  /-- The value as written. -/
  source : String
  kind : LiteralKind
  /-- What the value denotes. Arrays and inline tables have no hint. -/
  hint : Option Hint
  deriving DecidableEq, Repr

/-- A key, an equals sign and a value. -/
structure KeyValue where
  id : Nat := 0
  /-- The space before the pair. -/
  before : Space := {}
  markers : Markers := {}
  key : Key
  /-- The space between the key and the equals sign. -/
  afterKey : Space
  value : Literal
  deriving DecidableEq, Repr

/-- Whether a header opens a table or appends to an array of tables. -/
inductive TableKind where
  | standard | array
  deriving DecidableEq, Repr

/-- The name of a header's kind. -/
def TableKind.name : TableKind → String
  | standard => "Standard"
  | array => "Array"

/-- A table header. -/
structure Table where
  id : Nat := 0
  /-- The space before the header. -/
  before : Space := {}
  markers : Markers := {}
  kind : TableKind
  /-- The header as written, brackets included. -/
  source : String
  deriving DecidableEq, Repr

/-- A comment behind an expression, on the same line. -/
structure Comment where
  /-- The space between the expression and the comment. -/
  before : Space := {}
  markers : Markers := {}
  /-- The comment as written, from the number sign on. -/
  text : String
  deriving DecidableEq, Repr

/-- The content of a line. -/
inductive Item where
  | keyValue (kv : KeyValue)
  | table (t : Table)
  deriving DecidableEq, Repr

/-- One line of content: a key/value pair or a table header, with the comment behind it. -/
structure Expression where
  id : Nat := 0
  /-- The space before the expression, which holds the lines between it and the one before. -/
  before : Space := {}
  markers : Markers := {}
  item : Option Item
  comment : Option Comment
  deriving DecidableEq, Repr

namespace Expression

/-- The key/value pair of a line, if it holds one. -/
def keyValue? (e : Expression) : Option KeyValue :=
  match e.item with
  | some (.keyValue kv) => some kv
  | _ => none

/-- The table header of a line, if it holds one. -/
def table? (e : Expression) : Option Table :=
  match e.item with
  | some (.table t) => some t
  | _ => none

end Expression

/-- One TOML file. -/
structure Document where
  id : Nat := 0
  path : String
  /-- The space before everything else. -/
  before : Space := {}
  markers : Markers := {}
  /-- The name of the charset to write the document in. -/
  charset : String
  /-- Whether a byte-order mark stands in front of the document. -/
  marked : Bool
  checksum : Option Checksum
  attributes : Option FileAttributes
  expressions : List Expression
  /-- The space behind the last expression. -/
  trailing : Space
  deriving DecidableEq, Repr

namespace Document

/-- The key/value pairs at the top level, in order. -/
def keyValues (d : Document) : List KeyValue := d.expressions.filterMap (·.keyValue?)

/-- The table headers, in order. -/
def tables (d : Document) : List Table := d.expressions.filterMap (·.table?)

end Document

namespace Literal

/-- The truth value of a boolean. -/
def bool? (l : Literal) : Option Bool :=
  match l.hint with
  | some (.boolean b) => some b
  | _ => none

/-- The value of an integer. -/
def integer? (l : Literal) : Option Int :=
  match l.hint with
  | some (.integer n) => some n
  | _ => none

/-- The value of a floating-point number. -/
def float? (l : Literal) : Option Binary64 :=
  match l.hint with
  | some (.float x) => some x
  | _ => none

/-- The text between the delimiters of a string. -/
def content? (l : Literal) : Option String :=
  match l.hint with
  | some (.string _ content) => some content
  | _ => none

end Literal

end Verbatim
