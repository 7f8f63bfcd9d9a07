import Verbatim.Document.Basic

/-!
# Identities

Identities are numbers. `Document.number` gives every node a fresh one, in print order: the
document, then for each line the line, the pair, its key and its value, or the line and the header.
-/

namespace Verbatim

/-- The pair with the identities from `next` on. -/
def KeyValue.number (next : Nat) (kv : KeyValue) : KeyValue :=
  { kv with
    id := next
    key := { kv.key with id := next + 1 }
    value := { kv.value with id := next + 2 } }

/-- The content of a line with the identities from `next` on. -/
def Item.number (next : Nat) : Item → Item
  | keyValue kv => .keyValue (kv.number next)
  | table t => .table { t with id := next }

/-- The identities in the content of a line. -/
def Item.ids : Item → List Nat
  | keyValue kv => [kv.id, kv.key.id, kv.value.id]
  | table t => [t.id]

/-- The line with the identities from `next` on. -/
def Expression.number (next : Nat) (e : Expression) : Expression :=
  { e with id := next, item := e.item.map (Item.number (next + 1)) }

/-- The identities in a line. -/
def Expression.ids (e : Expression) : List Nat := e.id :: (e.item.map Item.ids).getD []

/-- The lines with the identities from `next` on. -/
def numberAll (next : Nat) : List Expression → List Expression
  | [] => []
  | e :: es => e.number next :: numberAll (next + e.ids.length) es

namespace Document

/-- The document with the identities from `next` on. -/
def number (next : Nat) (d : Document) : Document :=
  { d with id := next, expressions := numberAll (next + 1) d.expressions }

/-- The identities in a document, in print order. -/
def ids (d : Document) : List Nat := d.id :: d.expressions.flatMap Expression.ids

/-- A number above all identities in a document. -/
def freshId (d : Document) : Nat := d.ids.foldl max 0 + 1

end Document

end Verbatim
