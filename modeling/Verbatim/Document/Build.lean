import Verbatim.Document.Cursor
import Verbatim.Document.Identity

/-!
# From parse trees to documents

The parse tree is walked once from left to right. The text between two tokens goes to the node that
follows it, names and sources come from the tree, and what is left behind the last token is the
trailing space. So every byte of the source ends up in exactly one place.
-/

namespace Verbatim.Build

open Toml (Rule)

/-- A node of a TOML parse tree. -/
abbrev Node := Peg.Tree Rule

/-- The bytes that a node covers. -/
def spanOf (t : Node) : Span := ⟨t.start, t.stop⟩

/-- The one child among the given rules, or `none` if there is none of them. -/
def atMostOne (t : Node) (rules : List Rule) : Build (Option Node) :=
  match rules.filterMap t.child? with
  | [] => pure none
  | [a] => pure (some a)
  | many => throw (.alternatives t.rule (spanOf t) many.length "at most one")

/-- The one child among the given rules. -/
def exactlyOne (t : Node) (rules : List Rule) : Build Node :=
  match rules.filterMap t.child? with
  | [a] => pure a
  | found => throw (.alternatives t.rule (spanOf t) found.length "exactly one")

/-- The child that a rule cannot do without. -/
def required (t : Node) (rule : Rule) (slot : String) : Build Node :=
  match t.child? rule with
  | some c => pure c
  | none => throw (.missing t.rule (spanOf t) slot)

mutual

/-- Uses up a node of which no parts are kept. -/
def consume (source : List Char) : Node → Build Unit
  | .node rule start text children =>
    around source (.node rule start text children) fun _ => consumeAll source children

/-- Uses up nodes from left to right. -/
def consumeAll (source : List Char) : List Node → Build Unit
  | [] => pure ()
  | t :: ts => do
    consume source t
    consumeAll source ts

end

def textOf (t : Node) : String := String.ofList t.text

/-- The rule that a string or a date-time was matched by. -/
def variant? (t : Node) : Option Rule := t.children.head?.map (·.rule)

def stringStyle? : Rule → Option StringStyle
  | .basicString => some .basic
  | .mlBasicString => some .multiLineBasic
  | .literalString => some .literal
  | .mlLiteralString => some .multiLineLiteral
  | _ => none

def dateTimeKind? : Rule → Option DateTimeKind
  | .offsetDateTime => some .offsetDateTime
  | .localDateTime => some .localDateTime
  | .localDate => some .localDate
  | .localTime => some .localTime
  | _ => none

/-- What a string denotes. -/
def stringHint? (t : Node) : Option Hint := do
  let style ← stringStyle? (← variant? t)
  Hint.ofString? style t.text

/-- What a date-time denotes. -/
def dateTimeHint? (t : Node) : Option Hint := do
  let kind ← dateTimeKind? (← variant? t)
  return .dateTime kind (textOf t)

def valueRules : List Rule :=
  [.string, .integer, .floatingPoint, .boolean, .dateTime, .array, .inlineTable]

/-- The kind of a value, and what it denotes. Arrays and inline tables are used up part by part. -/
def classify (source : List Char) (t : Node) : Build (LiteralKind × Option Hint) :=
  match t.rule with
  | .string => return (.string, stringHint? t)
  | .integer => return (.integer, Hint.ofInteger? t.text)
  | .floatingPoint => return (.float, Hint.ofFloat? t.text)
  | .boolean => return (.boolean, Hint.ofBoolean? t.text)
  | .dateTime => return (.dateTime, dateTimeHint? t)
  | .array => do
    consume source t
    return (.array, none)
  | _ => do
    consume source t
    return (.inlineTable, none)

/-- Builds a value. -/
def literal (source : List Char) (t : Node) : Build Literal :=
  around source t fun before => do
    let (kind, hint) ← classify source (← exactlyOne t valueRules)
    return { before, source := textOf t, kind, hint }

def key (source : List Char) (t : Node) : Build Key :=
  around source t fun before => return { before, name := textOf t }

/-- Takes the space before the equals sign of a pair, and passes the sign. -/
def equals (source : List Char) (t : Node) : Build Space :=
  match t.child? .equals with
  | none => return {}
  | some sign => do
    let before ← spaceBefore source sign.start
    advanceTo sign.stop
    return before

/-- Builds a pair. -/
def keyValue (source : List Char) (t : Node) : Build KeyValue :=
  around source t fun before => do
    let key ← key source (← required t .key "key")
    let afterKey ← equals source t
    let value ← literal source (← required t .value "value")
    return { before, key, afterKey, value }

/-- Builds a table header, of which no parts are kept. -/
def table (source : List Char) (t : Node) : Build Table :=
  around source t fun before => do
    let header ← exactlyOne t [.standardTable, .arrayTable]
    consume source header
    let kind := if header.rule = .arrayTable then TableKind.array else .standard
    return { before, kind, source := textOf t }

/-- Builds a comment behind an expression. -/
def comment (source : List Char) (t : Node) : Build Comment :=
  around source t fun before => return { before, text := textOf t }

/-- Builds the content of a line. -/
def item (source : List Char) (t : Node) : Build (Option Item) := do
  match ← atMostOne t [.keyValue, .table] with
  | none => return none
  | some content =>
    if content.rule = .table then return some (.table (← table source content))
    else return some (.keyValue (← keyValue source content))

/-- Builds a line of content. -/
def expression (source : List Char) (t : Node) : Build Expression :=
  around source t fun before => do
    let item ← item source t
    let comment ← (t.child? .comment).mapM (comment source)
    return { before, item, comment }

end Build

/-- What is known of a document besides its text. -/
structure Origin where
  path : String
  charset : String
  marked : Bool
  checksum : Option Checksum := none
  attributes : Option FileAttributes := none
  deriving DecidableEq, Repr

namespace Build

/-- Builds a document whose nodes have no identities yet. -/
def document (source : List Char) (origin : Origin) (t : Node) : Build Document :=
  around source t fun before => do
    let expressions ← (t.childrenOf .expression).mapM (expression source)
    let trailing ← remainingSpace source
    return { origin with before, expressions, trailing }

end Build

/-- A source from which documents are built, and how much of it is used up. -/
structure Builder where
  source : List Char
  origin : Origin
  cursor : Cursor := {}
  deriving DecidableEq, Repr

/-- Builds a document from a parse tree, with identities from `firstId` on. The cursor goes on from
where the last document has left it, also after a fault. -/
def Builder.build (b : Builder) (t : Peg.Tree Toml.Rule) (firstId : Nat) :
    Except BuildFault Document × Builder :=
  let (result, cursor) := (Build.document b.source b.origin t).run.run b.cursor
  (result.map (·.number firstId), { b with cursor })

end Verbatim
