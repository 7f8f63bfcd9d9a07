import Mathlib.Data.List.Infix
import Verbatim.Dump.Format
import Verbatim.Proofs.Document.Edit
import Verbatim.Reader

/-!
# Markers over a run

A bag of markers is what is left of a log: it holds the markers that were added and that no later
operation has removed, in the order in which they were added (`Markers.toList_run`). Nothing that a
document is written as tells its markers. Documents that differ in markers only are printed, encoded
and dumped alike, so a bag can be attached to any node without a trace in the output
(`Markers.run_kept`).
-/

namespace Verbatim

variable {d d' : Document} {e e' : Expression} {kv kv' : KeyValue} {i : Nat} {place : Place}
  {before : Space} {old ms : Markers}

/-! ### Runs of operations -/

namespace Markers

/-- What can be done to a bag of markers. -/
inductive Operation where
  | add (m : Marker)
  | remove (id : Nat)
  deriving DecidableEq, Repr

/-- The bag after one operation. -/
def apply (ms : Markers) : Operation → Markers
  | .add m => ms.add m
  | .remove id => ms.remove id

/-- The bag after a log of operations, the first of them in front. -/
def run (ms : Markers) (log : List Operation) : Markers := log.foldl apply ms

/-- The marker that the first operation of a log adds, unless a later one removes it. -/
def keptFirst? : List Operation → Option Marker
  | .add m :: later => if .remove m.id ∈ later then none else some m
  | _ => none

/-- The markers that a log adds and does not remove later, in the order in which it adds them. -/
def kept (log : List Operation) : List Marker := log.tails.filterMap keptFirst?

@[simp] theorem kept_nil : kept [] = [] := rfl

theorem kept_add (m : Marker) (log : List Operation) :
    kept (.add m :: log) = (if .remove m.id ∈ log then [] else [m]) ++ kept log := by
  unfold kept
  rw [List.tails_cons]
  by_cases removed : .remove m.id ∈ log
  · rw [List.filterMap_cons_none (by simp [keptFirst?, removed]), if_pos removed, List.nil_append]
  · rw [List.filterMap_cons_some (by rw [keptFirst?, if_neg removed]), if_neg removed]
    rfl

theorem kept_remove (id : Nat) (log : List Operation) : kept (.remove id :: log) = kept log := by
  unfold kept
  rw [List.tails_cons, List.filterMap_cons_none rfl]

/-- Of the markers in a bag, a log leaves those that it does not remove. Behind them stand those
that it adds and does not remove later. -/
theorem toList_run (ms : Markers) (log : List Operation) :
    (ms.run log).toList = ms.toList.filter (fun m => .remove m.id ∉ log) ++ kept log := by
  induction log generalizing ms with
  | nil => simp [run]
  | cons op log ih =>
    have step : ms.run (op :: log) = (ms.apply op).run log := rfl
    rw [step, ih]
    cases op with
    | add m =>
      rw [kept_add, ← List.append_assoc]
      congr 1
      by_cases removed : .remove m.id ∈ log <;> simp [apply, add, removed]
    | remove id =>
      rw [kept_remove, apply, remove, List.filter_filter]
      congr 1
      apply List.filter_congr
      intro m _
      by_cases same : m.id = id <;> simp [same]

/-- What is found is the oldest marker of its kind. -/
theorem find?_eq_some {kind : String} {m : Marker} : ms.find? kind = some m ↔
    ∃ front back, ms.toList = front ++ m :: back ∧ m.kind = kind ∧ ∀ x ∈ front, x.kind ≠ kind := by
  rw [find?, List.find?_eq_some_iff_append]
  constructor
  · rintro ⟨known, front, back, split, others⟩
    exact ⟨front, back, split, by simpa using known, by simpa using others⟩
  · rintro ⟨front, back, split, known, others⟩
    exact ⟨by simpa using known, front, back, split, by simpa using others⟩

theorem find?_eq_none {kind : String} :
    ms.find? kind = none ↔ ∀ m ∈ ms.toList, m.kind ≠ kind := by
  simp [find?]

end Markers

/-! ### Documents without markers -/

/-- The pair without markers. -/
def KeyValue.unmarked (kv : KeyValue) : KeyValue :=
  { kv with
    markers := {}
    key := { kv.key with markers := {} }
    value := { kv.value with markers := {} } }

/-- The content of a line without markers. -/
def Item.unmarked : Item → Item
  | keyValue kv => .keyValue kv.unmarked
  | table t => .table { t with markers := {} }

/-- The line without markers. -/
def Expression.unmarked (e : Expression) : Expression :=
  { e with
    markers := {}
    item := e.item.map Item.unmarked
    comment := e.comment.map fun c => { c with markers := {} } }

/-- The document without markers. -/
def Document.unmarked (d : Document) : Document :=
  { d with markers := {}, expressions := d.expressions.map Expression.unmarked }

theorem Item.pieces_unmarked (i : Item) : i.unmarked.pieces = i.pieces := by cases i <;> rfl

theorem Expression.pieces_unmarked (e : Expression) : e.unmarked.pieces = e.pieces := by
  cases content : e.item <;> cases note : e.comment <;>
    simp [pieces, unmarked, content, note, Item.pieces_unmarked, Comment.pieces]

theorem Document.pieces_unmarked (d : Document) : d.unmarked.pieces = d.pieces := by
  simp only [pieces, unmarked, List.flatMap_map, Expression.pieces_unmarked]

namespace Dump.Data

theorem ofItem_unmarked (i : Item) : ofItem i.unmarked = ofItem i := by cases i <;> rfl

theorem ofExpression_unmarked (e : Expression) : ofExpression e.unmarked = ofExpression e := by
  cases content : e.item <;> cases note : e.comment <;>
    simp [ofExpression, ofOption, Expression.unmarked, content, note, ofItem_unmarked, ofComment]

theorem ofDocument_unmarked (d : Document) : ofDocument d.unmarked = ofDocument d := by
  simp only [ofDocument, Document.unmarked, List.map_map, Function.comp_def, ofExpression_unmarked]

end Dump.Data

/-- The content of a line with a header. -/
theorem Expression.item_of_table? {t : Table} (h : e.table? = some t) :
    e.item = some (.table t) := by
  unfold Expression.table? at h
  split at h
  next found => rw [found, Option.some.inj h]
  · cases h

namespace Document

/-- Documents that differ in their markers only are printed alike. -/
theorem print_of_unmarked_eq (same : d.unmarked = d'.unmarked) : d.print = d'.print := by
  rw [print, print, ← pieces_unmarked d, ← pieces_unmarked d', same]

theorem toBytes_of_unmarked_eq (same : d.unmarked = d'.unmarked) : d.toBytes = d'.toBytes := by
  have charset : d.charset = d'.charset := congrArg (·.charset) same
  have marked : d.marked = d'.marked := congrArg (·.marked) same
  rw [toBytes, toBytes, print_of_unmarked_eq same, charset, marked]

theorem dump_of_unmarked_eq (same : d.unmarked = d'.unmarked) (format : DumpFormat) :
    d.dump format = d'.dump format := by
  have data : Dump.Data.ofDocument d = Dump.Data.ofDocument d' := by
    rw [← Dump.Data.ofDocument_unmarked d, ← Dump.Data.ofDocument_unmarked d', same]
  cases format <;> simp only [dump, data]

/-! ### Markers attached to a node -/

/-- A line can be replaced by one that differs in its markers only. -/
theorem unmarked_setLine (found : d.expressions[i]? = some e) (same : e'.unmarked = e.unmarked) :
    (d.setLine i e').unmarked = d.unmarked := by
  obtain ⟨inside, rfl⟩ := List.getElem?_eq_some_iff.mp found
  simp only [unmarked, setLine, List.map_set, same]
  rw [← List.getElem_map Expression.unmarked (h := by simpa using inside), List.set_getElem_self]

/-- The document has a node at a place. -/
def HasNode (d : Document) : Place → Prop
  | .document => True
  | .expression i => i < d.expressions.length
  | .keyValue i | .key i | .literal i =>
    ∃ e kv, d.expressions[i]? = some e ∧ e.item = some (.keyValue kv)
  | .table i => ∃ e t, d.expressions[i]? = some e ∧ e.item = some (.table t)
  | .comment i => ∃ e c, d.expressions[i]? = some e ∧ e.comment = some c

/-- Every node has a space in front of it and markers. -/
theorem exists_surroundings (node : d.HasNode place) :
    ∃ before old, d.surroundings? place = some (before, old) := by
  cases place with
  | document => exact ⟨d.before, d.markers, rfl⟩
  | expression i =>
    have line : d.expressions[i]? = some d.expressions[i] := List.getElem?_eq_getElem node
    simp [surroundings?, line]
  | keyValue i | key i | literal i =>
    obtain ⟨e, kv, line, pair⟩ := node
    have held : e.keyValue? = some kv := by rw [Expression.keyValue?, pair]
    simp [surroundings?, line, held]
  | table i =>
    obtain ⟨e, t, line, header⟩ := node
    have held : e.table? = some t := by rw [Expression.table?, header]
    simp [surroundings?, line, held]
  | comment i =>
    obtain ⟨e, c, line, note⟩ := node
    simp [surroundings?, line, note]

/-- Markers are attached to a node of a document: they are found there, and nothing but markers has
changed. -/
structure Attached (d : Document) (place : Place) (before : Space) (ms : Markers) (d' : Document) :
    Prop where
  set : d.setMarkers? place ms = some d'
  shown : d'.surroundings? place = some (before, ms)
  same : d'.unmarked = d.unmarked

/-- A pair can be replaced by one that differs in its markers only. -/
theorem exists_setPair (found : (d.expressions[i]?.bind (·.keyValue?)) = some kv)
    (f : KeyValue → KeyValue) (same : (f kv).unmarked = kv.unmarked) :
    ∃ d', d.mapLine? i (Expression.mapKeyValue? f) = some d' ∧
      (d'.expressions[i]?.bind (·.keyValue?)) = some (f kv) ∧ d'.unmarked = d.unmarked := by
  obtain ⟨e, line, pair⟩ := Option.bind_eq_some_iff.mp found
  refine ⟨_, mapKeyValue?_eq_some line pair f, ?_, ?_⟩
  · rw [getElem?_setLine line]
    rfl
  · apply unmarked_setLine line
    simp [Expression.unmarked, Item.unmarked, Expression.item_of_keyValue? pair, same]

/-- A line can be replaced by one that differs in its markers only. -/
theorem exists_setLine (line : d.expressions[i]? = some e) {f : Expression → Option Expression}
    (changed : f e = some e') (same : e'.unmarked = e.unmarked) :
    ∃ d', d.mapLine? i f = some d' ∧ d'.expressions[i]? = some e' ∧ d'.unmarked = d.unmarked :=
  ⟨_, mapLine?_eq_some line changed, getElem?_setLine line e', unmarked_setLine line same⟩

/-- Markers can be attached to every node. -/
theorem exists_attached (node : d.surroundings? place = some (before, old)) (ms : Markers) :
    ∃ d', d.Attached place before ms d' := by
  have changes : d.setMarkers? place ms = d.setSurroundings? place before ms := by
    simp [setMarkers?, node]
  cases place with
  | document =>
    obtain ⟨rfl, rfl⟩ := Prod.mk.inj (Option.some.inj node)
    exact ⟨{ d with markers := ms }, changes, rfl, rfl⟩
  | expression i =>
    obtain ⟨e, line, held⟩ := Option.map_eq_some_iff.mp node
    obtain ⟨rfl, rfl⟩ := Prod.mk.inj held
    obtain ⟨d', set, there, same⟩ := exists_setLine line
      (f := fun e' => some { e' with before := e.before, markers := ms }) rfl rfl
    exact ⟨d', changes.trans set, by simp [surroundings?, there], same⟩
  | keyValue i =>
    obtain ⟨kv, found, held⟩ := Option.map_eq_some_iff.mp node
    obtain ⟨rfl, rfl⟩ := Prod.mk.inj held
    obtain ⟨d', set, there, same⟩ := exists_setPair found
      (fun kv' => { kv' with before := kv.before, markers := ms }) rfl
    exact ⟨d', changes.trans set, by simp [surroundings?, there], same⟩
  | key i =>
    obtain ⟨kv, found, held⟩ := Option.map_eq_some_iff.mp node
    obtain ⟨rfl, rfl⟩ := Prod.mk.inj held
    obtain ⟨d', set, there, same⟩ := exists_setPair found
      (fun kv' => { kv' with key := { kv'.key with before := kv.key.before, markers := ms } }) rfl
    exact ⟨d', changes.trans set, by simp [surroundings?, there], same⟩
  | literal i =>
    obtain ⟨kv, found, held⟩ := Option.map_eq_some_iff.mp node
    obtain ⟨rfl, rfl⟩ := Prod.mk.inj held
    obtain ⟨d', set, there, same⟩ := exists_setPair found
      (fun kv' => { kv' with value := { kv'.value with before := kv.value.before, markers := ms } })
      rfl
    exact ⟨d', changes.trans set, by simp [surroundings?, there], same⟩
  | table i =>
    obtain ⟨t, found, held⟩ := Option.map_eq_some_iff.mp node
    obtain ⟨rfl, rfl⟩ := Prod.mk.inj held
    obtain ⟨e, line, header⟩ := Option.bind_eq_some_iff.mp found
    obtain ⟨d', set, there, same⟩ := exists_setLine line
      (f := Expression.mapTable? fun t' => { t' with before := t.before, markers := ms })
      (by rw [Expression.mapTable?, header, Option.map_some])
      (by simp [Expression.unmarked, Item.unmarked, Expression.item_of_table? header])
    exact ⟨d', changes.trans set, by simp [surroundings?, there, Expression.table?], same⟩
  | comment i =>
    obtain ⟨c, found, held⟩ := Option.map_eq_some_iff.mp node
    obtain ⟨rfl, rfl⟩ := Prod.mk.inj held
    obtain ⟨e, line, note⟩ := Option.bind_eq_some_iff.mp found
    obtain ⟨d', set, there, same⟩ := exists_setLine line
      (f := fun e' => e'.comment.map fun c' =>
        { e' with comment := some { c' with before := c.before, markers := ms } })
      (by rw [note, Option.map_some]) (by simp [Expression.unmarked, note])
    exact ⟨d', changes.trans set, by simp [surroundings?, there], same⟩

end Document

/-! ### Bags that a run leaves -/

namespace Markers

/-- A run from the empty bag leaves the markers that were added and that no later operation has
removed, in the order in which they were added. What is found in the bag is the first marker of its
kind. The bag can be attached to every node of every document, which is printed, encoded and dumped
as before. -/
theorem run_kept (log : List Operation) :
    let bag := run {} log
    bag.toList = kept log ∧
      (∀ kind m, bag.find? kind = some m ↔ ∃ front back, kept log = front ++ m :: back ∧
        m.kind = kind ∧ ∀ x ∈ front, x.kind ≠ kind) ∧
      (∀ kind, bag.find? kind = none ↔ ∀ m ∈ kept log, m.kind ≠ kind) ∧
      (∀ d place, Document.HasNode d place →
        ∃ before old, d.surroundings? place = some (before, old)) ∧
      ∀ d place before old, Document.surroundings? d place = some (before, old) →
        ∃ d', d.setMarkers? place bag = some d' ∧ d'.surroundings? place = some (before, bag) ∧
          d'.print = d.print ∧ d'.toBytes = d.toBytes ∧
            ∀ format, d'.dump format = d.dump format := by
  intro bag
  have left : bag.toList = kept log := toList_run {} log
  refine ⟨left, ?_, ?_, fun d place => Document.exists_surroundings, ?_⟩
  · intro kind m
    rw [find?_eq_some, left]
  · intro kind
    rw [find?_eq_none, left]
  · intro d place before old node
    obtain ⟨d', attached⟩ := Document.exists_attached node bag
    exact ⟨d', attached.set, attached.shown, Document.print_of_unmarked_eq attached.same,
      Document.toBytes_of_unmarked_eq attached.same, Document.dump_of_unmarked_eq attached.same⟩

/-- A marker is added, removed with its identity, and added twice more. The bag is attached to the
comment of a line. -/
theorem run_kept_again :
    let note : Marker := ⟨1, "note", "n"⟩
    let flag : Marker := ⟨2, "flag", "f"⟩
    let log : List Operation := [.add note, .add flag, .remove 1, .add note, .add note]
    let d : Document :=
      { path := "a.toml", charset := "UTF-8", marked := false, checksum := none, attributes := none
        expressions := [{ item := none, comment := some { before := ⟨" "⟩, text := "# c" } }]
        trailing := {} }
    (run {} log).toList = [flag, note, note] ∧ (run {} log).find? "note" = some note ∧
      ∃ d', d.setMarkers? (.comment 0) (run {} log) = some d' ∧
        d'.surroundings? (.comment 0) = some (⟨" "⟩, run {} log) ∧ d'.print = d.print ∧
          d'.toBytes = d.toBytes ∧ ∀ format, d'.dump format = d.dump format := by
  intro note flag log d
  obtain ⟨left, found, _, _, attaches⟩ := run_kept log
  refine ⟨left, ?_, attaches d (.comment 0) ⟨" "⟩ {} rfl⟩
  exact (found "note" note).mpr ⟨[flag], [note], rfl, rfl, by decide⟩

end Markers

end Verbatim
