/-!
# Differences between two texts

Two texts are compared line by line. `LineDiff.common` finds lines that both have in the same order,
and `LineDiff.runs` cuts the texts along them into runs of lines that are kept, removed or added.
-/

namespace Verbatim.Text

/-- Lines that the two texts share, or that only one of them has. -/
inductive Run where
  | kept (lines : List String)
  | removed (lines : List String)
  | added (lines : List String)
  deriving DecidableEq, Repr

/-- The run with its sign in front. Only the first line of a run has a sign. -/
def Run.show : Run → String
  | kept lines => " " ++ "\n".intercalate lines
  | removed lines => "-" ++ "\n".intercalate lines
  | added lines => "+" ++ "\n".intercalate lines

namespace LineDiff

/-- The pieces of a text between line feeds. An empty text is one empty piece. -/
def pieces (s : String) : List String := (s.toList.splitOn '\n').map String.ofList

/-- The pieces of a text, of which an empty text has none. -/
def linesOf (s : String) : List String := if s = "" then [] else pieces s

/-- A row of the table for a line: how many lines it and the lines before it have in common with the
other text up to each of its lines. The counts of the line before are `above`; `corner` and `left`
are the counts next to the first one. -/
def row (line : String) (corner left : Nat) : List String → List Nat → List Nat
  | [], _ => []
  | other :: others, above =>
    let up := above.headD 0
    let count := if line = other then corner + 1 else max up left
    count :: row line up count others above.tail

/-- The rows of the table from the one below `above` on. -/
def rows (others : List String) (above : List Nat) : List String → List (List Nat)
  | [] => []
  | line :: lines =>
    let here := row line 0 0 others above
    here :: rows others here lines

/-- Walks back through the table from the first `i` and `j` lines of two texts, and collects lines
in common in front of those found. Where the last lines differ, the walk follows the larger of the
counts to the left and above; to the left of the first column stands the end of the row above. -/
def walk (a b : Array String) (table : Array Nat) : Nat → Nat → List String → List String
  | i + 1, j + 1, found =>
    if a[i]? = b[j]? then walk a b table i j ((a[i]?).toList ++ found)
    else
      let here := i * b.size + j
      let left := (table[here - 1]?).getD 0
      let above := (table[here - b.size]?).getD 0
      if i = 0 ∨ above < left then walk a b table (i + 1) j found
      else walk a b table i (j + 1) found
  | _, _, found => found
termination_by i j => i + j

/-- Lines that two texts have in common, in the order of both. -/
def common (a b : List String) : List String :=
  let table := ((rows b [] a).flatten).toArray
  walk a.toArray b.toArray table a.length b.length []

/-- The number of lines at the start of three lists that agree in all of them. -/
def agreement : List String → List String → List String → Nat
  | x :: a, y :: b, z :: c => if x = z ∧ y = z then agreement a b c + 1 else 0
  | _, _, _ => 0

/-- The lines before the next line in common. -/
def upTo (next : Option String) (lines : List String) : List String :=
  lines.takeWhile (some · ≠ next)

/-- The runs of two texts along the lines they have in common. Each round takes a run of each kind
that is not empty. -/
def runsAlong : Nat → List String → List String → List String → List Run
  | 0, _, _, _ => []
  | fuel + 1, a, b, shared =>
    if a = [] ∧ b = [] then []
    else
      let n := agreement a b shared
      let next := (shared.drop n).head?
      let removed := upTo next (a.drop n)
      let added := upTo next (b.drop n)
      (if n = 0 then [] else [.kept (a.take n)]) ++
        (if removed = [] then [] else [.removed removed]) ++
        (if added = [] then [] else [.added added]) ++
        runsAlong fuel (a.drop (n + removed.length)) (b.drop (n + added.length)) (shared.drop n)

/-- The runs of a text and a later state of it. The lines in common are put together to one text,
so a single empty line in common is none. -/
def runs (before after : String) : List Run :=
  let shared := linesOf ("\n".intercalate (common (pieces before) (pieces after)))
  let a := linesOf before
  let b := linesOf after
  runsAlong (a.length + b.length) a b shared

end LineDiff

end Verbatim.Text
