/-!
# Blank characters

`isBlank` is the Unicode property White_Space: 25 characters in ten ranges. Spaces and tabs alone
are `isIndent`; a line ends at a line feed, a carriage return, or the two together.
-/

namespace Verbatim.Text

/-- The code points with the property White_Space, as closed ranges in ascending order. -/
def blankRanges : List (Nat × Nat) :=
  [(0x09, 0x0D), (0x20, 0x20), (0x85, 0x85), (0xA0, 0xA0), (0x1680, 0x1680), (0x2000, 0x200A),
   (0x2028, 0x2029), (0x202F, 0x202F), (0x205F, 0x205F), (0x3000, 0x3000)]

/-- A blank is a character with the Unicode property White_Space. -/
def isBlank (c : Char) : Bool := blankRanges.any fun r => r.1 ≤ c.toNat && c.toNat ≤ r.2

/-- The blanks that may stand between two tokens of a line: space and tab. -/
def isIndent (c : Char) : Bool := c == ' ' || c == '\t'

def isLineEnd (c : Char) : Bool := c == '\n' || c == '\r'

def trimEnd (s : List Char) : List Char := (s.reverse.dropWhile isBlank).reverse

theorem isBlank_of_isIndent {c : Char} (h : isIndent c = true) : isBlank c = true := by
  simp only [isIndent, Bool.or_eq_true, beq_iff_eq] at h
  rcases h with h | h <;> subst h <;> decide

theorem isBlank_of_isLineEnd {c : Char} (h : isLineEnd c = true) : isBlank c = true := by
  simp only [isLineEnd, Bool.or_eq_true, beq_iff_eq] at h
  rcases h with h | h <;> subst h <;> decide

/-- The lines of a text without their ends. A line ends at a line feed; one carriage return before
the line feed belongs to the end. What follows the last line feed is a line if it is not empty, and
keeps its carriage returns. -/
def lines : List Char → List (List Char)
  | [] => []
  | c :: s =>
    if c = '\n' then [] :: lines s
    else if c = '\r' ∧ s.head? = some '\n' then
      -- the line feed that follows closes this line
      lines s
    else
      match lines s with
      | [] => [[c]]
      | l :: ls => (c :: l) :: ls

end Verbatim.Text
