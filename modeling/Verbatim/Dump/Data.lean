import Verbatim.Document.Basic
import Verbatim.Text.Quoted

/-!
# What a dump holds

A document is dumped as plain data: texts, numbers, lists, and records whose fields have an order.
Markers are left out, and so is nothing else.
-/

namespace Verbatim.Dump

/-- Plain data. -/
inductive Data where
  | null
  | boolean (b : Bool)
  | integer (n : Int)
  | float (x : Binary64)
  | text (s : String)
  | list (items : List Data)
  | record (fields : List (String × Data))
  /-- One of several shapes, told by a name. -/
  | variant (name : String) (payload : Data)
  deriving Repr

namespace Data

/-- Data that may be missing. -/
def ofOption {α : Type} (f : α → Data) : Option α → Data
  | some a => f a
  | none => null

/-- The number of identities. -/
def idCount : Nat := 0x100000000000000000000000000000000

/-- An identity: 128 bits as 32 digits in five groups. -/
def ofId (id : Nat) : Data :=
  let digits := Nat.toDigits 16 (id % idCount)
  let padded := List.replicate (32 - digits.length) '0' ++ digits
  let groups := [(0, 8), (8, 4), (12, 4), (16, 4), (20, 12)]
  text ("-".intercalate (groups.map fun g => String.ofList ((padded.drop g.1).take g.2)))

def ofSpace (s : Space) : Data := text s.text

def ofTimestamp (t : Timestamp) : Data :=
  record
    [("secs_since_epoch", integer t.seconds), ("nanos_since_epoch", integer t.nanoseconds)]

def ofChecksum (c : Checksum) : Data :=
  record [("algorithm", text c.algorithm), ("value", text c.value)]

def ofAttributes (a : FileAttributes) : Data :=
  record
    [("creation_time", ofOption ofTimestamp a.created),
     ("last_modified_time", ofOption ofTimestamp a.modified),
     ("last_access_time", ofOption ofTimestamp a.accessed),
     ("is_readable", boolean a.readable), ("is_writable", boolean a.writable),
     ("is_executable", boolean a.executable), ("size", integer a.size)]

def ofHint : Hint → Data
  | .string style content =>
    variant "String" (record [("style", text style.name), ("content", text content)])
  | .integer n => variant "Integer" (integer n)
  | .float x => variant "Float" (float x)
  | .boolean b => variant "Boolean" (boolean b)
  | .dateTime kind source =>
    variant "DateTime" (record [("kind", text kind.name), ("text", text source)])

def ofKey (k : Key) : Data :=
  record [("id", ofId k.id), ("prefix", ofSpace k.before), ("name", text k.name)]

def ofLiteral (l : Literal) : Data :=
  record
    [("id", ofId l.id), ("prefix", ofSpace l.before), ("source", text l.source),
     ("kind", text l.kind.name), ("value", ofOption ofHint l.hint)]

def ofKeyValue (kv : KeyValue) : Data :=
  record
    [("id", ofId kv.id), ("prefix", ofSpace kv.before), ("key", ofKey kv.key),
     ("after_key", ofSpace kv.afterKey), ("value", ofLiteral kv.value)]

/-- A header has no structured value, so that field stays empty. -/
def ofTable (t : Table) : Data :=
  record
    [("id", ofId t.id), ("prefix", ofSpace t.before), ("kind", text t.kind.name),
     ("source", text t.source), ("value", null)]

def ofItem : Item → Data
  | .keyValue kv => variant "KeyValue" (ofKeyValue kv)
  | .table t => variant "Table" (ofTable t)

def ofComment (c : Comment) : Data :=
  record [("prefix", ofSpace c.before), ("text", text c.text)]

def ofExpression (e : Expression) : Data :=
  record
    [("id", ofId e.id), ("prefix", ofSpace e.before), ("value", ofOption ofItem e.item),
     ("comment", ofOption ofComment e.comment)]

def ofDocument (d : Document) : Data :=
  record
    [("id", ofId d.id), ("path", text d.path), ("prefix", ofSpace d.before),
     ("charset_name", text d.charset), ("charset_bom_marked", boolean d.marked),
     ("checksum", ofOption ofChecksum d.checksum),
     ("file_attributes", ofOption ofAttributes d.attributes),
     ("expressions", list (d.expressions.map ofExpression)), ("eof", ofSpace d.trailing)]

end Data

end Verbatim.Dump
