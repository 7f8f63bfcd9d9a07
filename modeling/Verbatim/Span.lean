/-!
# Spans

A span is a half-open range of byte offsets in a text.
-/

namespace Verbatim

/-- A half-open range of byte offsets. Nothing keeps the ends in order: a span says what an error
points at, and an error may point at offsets that do not fit its text. -/
structure Span where
  /-- The offset of the first byte. -/
  start : Nat := 0
  /-- The offset just past the last byte. -/
  stop : Nat := 0
  deriving DecidableEq, Repr

namespace Span

/-- The empty span at an offset. -/
def point (offset : Nat) : Span := ⟨offset, offset⟩

/-- The number of bytes, zero if the ends are out of order. -/
def length (s : Span) : Nat := s.stop - s.start

/-- Whether no byte lies in the span. -/
def isEmpty (s : Span) : Bool := s.length == 0

/-- The span with both ends moved back to a limit. -/
def clamp (s : Span) (limit : Nat) : Span := ⟨min s.start limit, min s.stop limit⟩

end Span

end Verbatim
