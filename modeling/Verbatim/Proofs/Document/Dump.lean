import Verbatim.Dump.Format
import Verbatim.Proofs.Document.Spacing
import Verbatim.Proofs.Dump.Json

/-!
# A dump in JSON holds the document

Whatever a document prints stands in its dump, in the order of printing: `Rebuild.document?` puts
the text together from a JSON value alone, and does so for the value that the dump is read as
(`read_dump_json`). So documents with the same dump print the same (`print_of_dump_json`).
-/

namespace Verbatim

open Dump Json

/-! ### Looking into a JSON value -/

namespace Json.Value

/-- The member of an object with a name. -/
def get? (v : Value) (name : String) : Option Value :=
  match v with
  | .object members => members.lookup name
  | _ => none

/-- The text that a member of an object is. -/
def getText? (v : Value) (name : String) : Option String :=
  match v.get? name with
  | some (.text s) => some s
  | _ => none

end Json.Value

/-! ### The text of a document from its dump -/

namespace Rebuild

def key? (v : Value) : Option String := do
  let before ← v.getText? "prefix"
  let name ← v.getText? "name"
  some (before ++ name)

def literal? (v : Value) : Option String := do
  let before ← v.getText? "prefix"
  let source ← v.getText? "source"
  some (before ++ source)

def pair? (v : Value) : Option String := do
  let before ← v.getText? "prefix"
  let key ← (v.get? "key").bind key?
  let afterKey ← v.getText? "after_key"
  let value ← (v.get? "value").bind literal?
  some (before ++ key ++ afterKey ++ "=" ++ value)

def header? (v : Value) : Option String := do
  let before ← v.getText? "prefix"
  let source ← v.getText? "source"
  some (before ++ source)

def item? : Value → Option String
  | .null => some ""
  | .object [("KeyValue", v)] => pair? v
  | .object [("Table", v)] => header? v
  | _ => none

def comment? : Value → Option String
  | .null => some ""
  | v => do
    let before ← v.getText? "prefix"
    let text ← v.getText? "text"
    some (before ++ text)

def expression? (v : Value) : Option String := do
  let before ← v.getText? "prefix"
  let item ← (v.get? "value").bind item?
  let comment ← (v.get? "comment").bind comment?
  some (before ++ item ++ comment)

def expressions? : List Value → Option String
  | [] => some ""
  | v :: vs => do
    let first ← expression? v
    let others ← expressions? vs
    some (first ++ others)

/-- The text of a document: the texts in its dump one after another. -/
def document? (v : Value) : Option String := do
  let before ← v.getText? "prefix"
  let lines ←
    match v.get? "expressions" with
    | some (.list vs) => expressions? vs
    | _ => none
  let trailing ← v.getText? "eof"
  some (before ++ lines ++ trailing)

end Rebuild

namespace Dump.Data

open Rebuild

/-! ### Each node is rebuilt from its data -/

/-- A field of a record is a member of its object. -/
theorem get?_record (fields : List (String × Data)) (name : String) :
    (record fields).value.get? name = (fields.lookup name).map value := by
  rw [value, Value.get?]
  induction fields with
  | nil => rfl
  | cons field fields ih =>
    rw [members, List.lookup_cons, List.lookup_cons, ih]
    split <;> rfl

theorem getText?_record {fields : List (String × Data)} {name s : String}
    (found : fields.lookup name = some (text s)) :
    (record fields).value.getText? name = some s := by
  rw [Value.getText?, get?_record, found]
  simp [value]

theorem key?_ofKey (k : Key) : key? (ofKey k).value = some (Piece.join k.pieces) := by
  rw [ofKey, key?, getText?_record rfl, getText?_record rfl]
  simp [Key.pieces, Piece.ofSpace]

theorem literal?_ofLiteral (l : Literal) :
    literal? (ofLiteral l).value = some (Piece.join l.pieces) := by
  rw [ofLiteral, literal?, getText?_record rfl, getText?_record rfl]
  simp [Literal.pieces, Piece.ofSpace]

theorem pair?_ofKeyValue (kv : KeyValue) :
    pair? (ofKeyValue kv).value = some (Piece.join kv.pieces) := by
  have key : (ofKeyValue kv).value.get? "key" = some (ofKey kv.key).value :=
    get?_record _ _
  have inner : (ofKeyValue kv).value.get? "value" = some (ofLiteral kv.value).value :=
    get?_record _ _
  rw [pair?, key, inner, ofKeyValue, getText?_record rfl, getText?_record rfl]
  simp [key?_ofKey, literal?_ofLiteral, KeyValue.pieces, Piece.ofSpace, String.append_assoc]

theorem header?_ofTable (t : Table) : header? (ofTable t).value = some (Piece.join t.pieces) := by
  rw [ofTable, header?, getText?_record rfl, getText?_record rfl]
  simp [Table.pieces, Piece.ofSpace]

theorem item?_ofItem (item : Option Item) : item? (ofOption ofItem item).value =
    some (Piece.join ((item.map Item.pieces).getD [])) := by
  rcases item with _ | ⟨kv | t⟩
  · simp [ofOption, value, item?]
  · simp [ofOption, ofItem, value, item?, pair?_ofKeyValue, Item.pieces]
  · simp [ofOption, ofItem, value, item?, header?_ofTable, Item.pieces]

theorem comment?_ofComment (c : Option Comment) : comment? (ofOption ofComment c).value =
    some (Piece.join ((c.map Comment.pieces).getD [])) := by
  cases c with
  | none => simp [ofOption, value, comment?]
  | some c =>
    have before : (ofComment c).value.getText? "prefix" = some c.before.text := getText?_record rfl
    have text : (ofComment c).value.getText? "text" = some c.text := getText?_record rfl
    obtain ⟨ms, shape⟩ : ∃ ms, (ofComment c).value = .object ms := ⟨_, by rw [ofComment, value]⟩
    rw [shape] at before text
    simp [ofOption, shape, comment?, before, text, Comment.pieces, Piece.ofSpace]

theorem expression?_ofExpression (e : Expression) :
    expression? (ofExpression e).value = some (Piece.join e.pieces) := by
  have item : (ofExpression e).value.get? "value" = some (ofOption ofItem e.item).value :=
    get?_record _ _
  have comment : (ofExpression e).value.get? "comment" =
      some (ofOption ofComment e.comment).value :=
    get?_record _ _
  rw [expression?, item, comment, ofExpression, getText?_record rfl]
  simp [item?_ofItem, comment?_ofComment, Expression.pieces, Piece.ofSpace, String.append_assoc]

theorem expressions?_ofExpression (es : List Expression) :
    expressions? (values (es.map ofExpression)) =
      some (Piece.join (es.flatMap Expression.pieces)) := by
  induction es with
  | nil => rfl
  | cons e es ih =>
    simp [values, expressions?, expression?_ofExpression, ih]

/-- The text of a document is rebuilt from its data. -/
theorem document?_ofDocument (d : Document) : document? (ofDocument d).value = some d.print := by
  have lines : (ofDocument d).value.get? "expressions" =
      some (.list (values (d.expressions.map ofExpression))) := by
    rw [← value]
    exact get?_record _ _
  rw [document?, lines, ofDocument, getText?_record rfl, getText?_record rfl]
  simp [expressions?_ofExpression, Document.print, Document.pieces, Piece.ofSpace,
    String.append_assoc]

/-! ### Each field has a name of its own -/

theorem distinct_ofOption {α : Type} {f : α → Data} (each : ∀ a, (f a).Distinct) (a : Option α) :
    (ofOption f a).Distinct := by
  cases a with
  | none => trivial
  | some a => exact each a

theorem distinctItems_map {α : Type} {f : α → Data} (each : ∀ a, (f a).Distinct) (as : List α) :
    DistinctItems (as.map f) := by
  induction as with
  | nil => trivial
  | cons a as ih => exact ⟨each a, ih⟩

theorem distinct_ofTimestamp (t : Timestamp) : (ofTimestamp t).Distinct := by
  simp [ofTimestamp]

theorem distinct_ofChecksum (c : Checksum) : (ofChecksum c).Distinct := by
  simp [ofChecksum]

theorem distinct_ofAttributes (a : FileAttributes) : (ofAttributes a).Distinct := by
  have times := distinct_ofOption distinct_ofTimestamp
  simp [ofAttributes, times]

theorem distinct_ofHint (h : Hint) : (ofHint h).Distinct := by
  cases h <;> simp [ofHint]

theorem distinct_ofKey (k : Key) : (ofKey k).Distinct := by
  simp [ofKey, ofId, ofSpace]

theorem distinct_ofLiteral (l : Literal) : (ofLiteral l).Distinct := by
  have hint := distinct_ofOption distinct_ofHint l.hint
  simp [ofLiteral, ofId, ofSpace, hint]

theorem distinct_ofItem (item : Item) : (ofItem item).Distinct := by
  cases item with
  | keyValue kv =>
    simp [ofItem, ofKeyValue, ofId, ofSpace, distinct_ofKey, distinct_ofLiteral]
  | table t => simp [ofItem, ofTable, ofId, ofSpace]

theorem distinct_ofComment (c : Comment) : (ofComment c).Distinct := by
  simp [ofComment, ofSpace]

theorem distinct_ofExpression (e : Expression) : (ofExpression e).Distinct := by
  have item := distinct_ofOption distinct_ofItem e.item
  have comment := distinct_ofOption distinct_ofComment e.comment
  simp [ofExpression, ofId, ofSpace, item, comment]

theorem distinct_ofDocument (d : Document) : (ofDocument d).Distinct := by
  have checksum := distinct_ofOption distinct_ofChecksum d.checksum
  have attributes := distinct_ofOption distinct_ofAttributes d.attributes
  have lines := distinctItems_map distinct_ofExpression d.expressions
  simp [ofDocument, ofId, ofSpace, checksum, attributes, lines]

end Dump.Data

namespace Document

/-- The dump of a document in JSON is JSON. -/
theorem read_dump_json (d : Document) :
    Json.read (d.dump .json) = some (Data.ofDocument d).value :=
  read_dump (Data.distinct_ofDocument d)

theorem print_of_dump_json {d d' : Document} (same : d.dump .json = d'.dump .json) :
    d.print = d'.print := by
  have read := d.read_dump_json
  rw [same, d'.read_dump_json] at read
  have rebuilt := Data.document?_ofDocument d
  rw [← Option.some.inj read, Data.document?_ofDocument] at rebuilt
  exact (Option.some.inj rebuilt).symm

end Document

end Verbatim
