import Verbatim.Yaml.Event

/-!
# Documents as lists of items

An item is an event whose alias, if it is one, is resolved to the slot of its anchor. A document can
be read item by item, from the start or from any anchor.
-/

namespace Verbatim.Yaml

structure Scalar where
  tag : Option (List Char)
  text : List Char
  style : ScalarStyle
  deriving DecidableEq, Repr

/-- A node, or the start or end of one. -/
inductive Item where
  /-- The node whose anchor has a slot. -/
  | alias (slot : Nat)
  | scalar (s : Scalar)
  | sequenceStart
  | sequenceEnd
  | mappingStart
  | mappingEnd
  deriving DecidableEq, Repr

/-- What is wrong with a document that is only partly there. -/
inductive Obstacle where
  | problem (p : Problem)
  | unknownAnchor (mark : Mark)
  deriving DecidableEq, Repr

/-- What is wrong, in words. -/
def Obstacle.message : Obstacle → String
  | problem p => p.message
  | unknownAnchor mark => "unknown anchor" ++ mark.suffix

/-- A document, as far as it is there. -/
structure Document where
  items : List (Item × Mark) := []
  /-- The number of the item that a slot stands for. -/
  slots : List (Nat × Nat) := []
  /-- What is wrong behind the last item. -/
  obstacle : Option Obstacle := none
  /-- Whether more follows in the text. -/
  isFollowed : Bool := false
  deriving DecidableEq, Repr

namespace Document

/-- The document with an item at the end. -/
def add (d : Document) (item : Item) (mark : Mark) : Document :=
  { d with items := d.items ++ [(item, mark)] }

/-- Gives a name the slot counted by the names so far, for the next item. A name given again keeps
its place among the names, so slots may be given twice, and the last item has them. -/
def bind (d : Document) (names : List (List Char × Nat)) :
    Option (List Char) → Document × List (List Char × Nat)
  | none => (d, names)
  | some name =>
    let slot := names.length
    ({ d with slots := (slot, d.items.length) :: d.slots },
      if (names.lookup name).isSome then
        names.map fun (n, old) => (n, if n = name then slot else old)
      else names ++ [(name, slot)])

/-- Resolves the aliases of events. The document ends before an alias without an anchor. -/
def ofEvents (obstacle : Option Obstacle) :
    Document → List (List Char × Nat) → List (Event × Mark) → Document
  | d, _, [] => { d with obstacle }
  | d, names, (event, mark) :: events =>
    let node (properties : Properties) (item : Item) : Document :=
      let (d, names) := d.bind names properties.anchor
      ofEvents obstacle (d.add item mark) names events
    match event with
    | .alias name =>
      match names.lookup name with
      | some slot => ofEvents obstacle (d.add (.alias slot) mark) names events
      | none => { d with obstacle := some (.unknownAnchor mark) }
    | .scalar properties text style => node properties (.scalar ⟨properties.tag, text, style⟩)
    | .sequenceStart properties => node properties .sequenceStart
    | .sequenceEnd => ofEvents obstacle (d.add .sequenceEnd mark) names events
    | .mappingStart properties => node properties .mappingStart
    | .mappingEnd => ofEvents obstacle (d.add .mappingEnd mark) names events

/-- The first document of a text. -/
def read (text : List Char) : Document :=
  let (problem, events) := firstDocument text
  { ofEvents (problem.map .problem) {} [] events.toList with isFollowed := events.isFollowed }

/-- The items from the one on that a slot stands for. -/
def itemsFrom (d : Document) (slot : Nat) : List (Item × Mark) :=
  d.items.drop ((d.slots.lookup slot).getD d.items.length)

end Document

end Verbatim.Yaml
