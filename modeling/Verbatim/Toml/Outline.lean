import Verbatim.Document.Basic
import Verbatim.Peg.Expr
import Verbatim.Span
import Verbatim.Toml.Rule

/-!
# Outlines

The outline of a parse tree keeps what a reader of TOML sees in it: lines with headers and pairs,
and values inside values. Each part stands where the tree has it, so an outline can be set beside
the document that is built from the same tree.
-/

namespace Verbatim.Toml

mutual

/-- A value with the values inside it. -/
inductive Value where
  /-- A value that holds no other, with the rule by which it was matched. -/
  | scalar (kind : LiteralKind) (variant : Option Rule) (text : List Char) (span : Span)
  | array (elements : List Value)
  | inlineTable (pairs : List Pair)

/-- A key, the offset of the equals sign, and a value. -/
inductive Pair where
  | mk (key : List Char) (equals : Nat) (value : Value)

end

/-- What stands on a line. -/
inductive Content where
  | header (kind : TableKind) (key : List Char)
  | pair (p : Pair)

/-- A line with its content, its comment and the bytes of both. -/
structure Line where
  content : Option Content
  comment : Option (List Char)
  span : Span

namespace Outline

/-- A node of a TOML parse tree. -/
abbrev Node := Peg.Tree Rule

/-- The kind of a value that holds no other. -/
def scalarKind? : Rule → Option LiteralKind
  | .string => some .string
  | .integer => some .integer
  | .floatingPoint => some .float
  | .boolean => some .boolean
  | .dateTime => some .dateTime
  | _ => none

mutual

/-- The value that a node of one of the value rules stands for. -/
def typedValue? : Node → Option Value
  | .node rule start text children =>
    match rule with
    | .array => some (.array (elements children))
    | .inlineTable => some (.inlineTable (pairs children))
    | _ =>
      (scalarKind? rule).map fun kind =>
        .scalar kind (children.head?.map (·.rule)) text ⟨start, start + Text.byteLength text⟩

/-- The value that the first of some nodes stands for. -/
def firstValue? : List Node → Option Value
  | [] => none
  | t :: _ => typedValue? t

def value? : Node → Option Value
  | .node _ _ _ children => firstValue? children

/-- The values among some nodes. -/
def elements : List Node → List Value
  | [] => []
  | t :: ts => (if t.rule = .value then (value? t).toList else []) ++ elements ts

/-- The first value among some nodes. -/
def valueIn? : List Node → Option Value
  | [] => none
  | t :: ts => if t.rule = .value then value? t else valueIn? ts

def pair? : Node → Option Pair
  | .node rule start text children => do
    let key ← (Peg.Tree.node rule start text children).child? .key
    let equals ← (Peg.Tree.node rule start text children).child? .equals
    let value ← valueIn? children
    return .mk key.text equals.start value

/-- The pairs among some nodes. -/
def pairs : List Node → List Pair
  | [] => []
  | t :: ts => (if t.rule = .keyValue then (pair? t).toList else []) ++ pairs ts

end

/-- The header of a table node. -/
def header? (t : Node) : Option Content :=
  match t.child? .standardTable, t.child? .arrayTable with
  | some h, _ => (h.child? .key).map fun k => .header .standard k.text
  | none, some h => (h.child? .key).map fun k => .header .array k.text
  | none, none => none

def content? (t : Node) : Option Content :=
  ((t.child? .keyValue).bind pair?).map .pair |>.or ((t.child? .table).bind header?)

def line (t : Node) : Line :=
  ⟨content? t, (t.child? .comment).map (·.text), ⟨t.start, t.stop⟩⟩

end Outline

/-- The lines of a document node. -/
def outline (t : Peg.Tree Rule) : List Line := (t.childrenOf .expression).map Outline.line

end Verbatim.Toml
