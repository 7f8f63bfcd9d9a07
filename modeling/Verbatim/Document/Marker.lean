/-!
# Markers

A marker is a note that a later stage attaches to a node. Markers are kept in the order in which
they were added, repetitions included, and are never printed.
-/

namespace Verbatim

/-- A note attached to a node. -/
structure Marker where
  /-- The identity by which the marker is removed. -/
  id : Nat
  kind : String
  /-- What the marker says. -/
  text : String
  deriving DecidableEq, Repr

/-- The markers of a node, the oldest first. -/
structure Markers where
  /-- The markers in the order in which they were added. -/
  toList : List Marker := []
  deriving DecidableEq, Repr

namespace Markers

/-- Appends a marker. -/
def add (ms : Markers) (m : Marker) : Markers := ⟨ms.toList ++ [m]⟩

/-- Removes every marker with an identity. -/
def remove (ms : Markers) (id : Nat) : Markers := ⟨ms.toList.filter (·.id ≠ id)⟩

/-- The oldest marker of a kind. -/
def find? (ms : Markers) (kind : String) : Option Marker := ms.toList.find? (·.kind = kind)

/-- The number of markers. -/
def size (ms : Markers) : Nat := ms.toList.length

def isEmpty (ms : Markers) : Bool := ms.toList.isEmpty

end Markers

end Verbatim
