import Verbatim.Proofs.Document.Edit
import Verbatim.Proofs.Document.Join
import Verbatim.Proofs.Reader.Accepted

/-!
# Some lines of a text

Leaving lines out of a document makes lines meet that have never met. Reading the rest gives back
just the lines that are left (`readString_select`). The space in front of a line that is kept starts
with the line break behind the line that was in front of it, so it can follow any line. The first
line is kept, since nothing has to stand in front of it. And what is left of the text can stand
behind any line, if it is not the rest of a line with a comment.
-/

namespace Verbatim

open Text

variable {es : List Expression} {left : List Char} {commented : Bool}

/-- Lines that can each stand behind another line can stand one behind another, with any text at the
end that can stand behind any line. -/
theorem continues_of_forall (lines : ∀ e ∈ es, Separator e.before.chars ∧ e.Legible)
    (ended : ∀ commented, After (some commented) left) : Continues (some commented) es left := by
  induction es generalizing commented with
  | nil => exact ended commented
  | cons e es ih =>
    obtain ⟨front, legible⟩ := lines e (List.mem_cons_self ..)
    refine ⟨front, legible, ih fun e' member => ?_⟩
    exact lines e' (List.mem_cons_of_mem e member)

/-- The first line and some lines behind it can stand where all lines have stood. -/
theorem Continues.select {rest : List Nat} (h : Continues none es left)
    (some_lines : 0 < es.length) (later : ∀ i ∈ rest, 0 < i)
    (plain : '#' ∉ left.takeWhile fun c => !isLineEnd c) :
    Continues none ((0 :: rest).filterMap (es[·]?)) left := by
  have first : es[0]? = some es[0] := List.getElem?_eq_getElem some_lines
  obtain ⟨front, legible⟩ := h.line first
  rw [List.filterMap_cons_some first]
  refine ⟨front, legible, continues_of_forall ?_ (after_of_tail h.linesSpaced.2 plain)⟩
  intro e member
  obtain ⟨i, inRest, found⟩ := List.mem_filterMap.mp member
  have behind : i ≠ 0 := Nat.ne_of_gt (later i inRest)
  have line := h.line found
  rwa [if_neg behind] at line

namespace Reader

variable {options : Options} {s : String} {d : Document} {rest : List Nat}

/-- Some lines of a document that was read, in their order and with the first among them, are read
again as they are, if no comment stands behind the last line of content. Just these lines are read,
and the text at the end stays what it was. -/
theorem readString_select (found : readString options s = .ok d)
    (plain : '#' ∉ d.trailing.chars.takeWhile fun c => !isLineEnd c)
    (inOrder : (0 :: rest).Pairwise (· < ·)) (exist : ∀ i ∈ 0 :: rest, i < d.expressions.length) :
    ∃ d', readString options (d.select (0 :: rest)).print = .ok d' ∧
      d'.bare = (d.select (0 :: rest)).bare ∧
      d'.expressions.map Expression.bare =
        (0 :: rest).filterMap (fun i => d.expressions[i]?.map Expression.bare) ∧
      d'.trailing = d.trailing := by
  obtain ⟨_, legible⟩ := fresh_of_readString found
  have some_lines : 0 < d.expressions.length := exist 0 (List.mem_cons_self ..)
  have later : ∀ i ∈ rest, 0 < i := (List.pairwise_cons.mp inOrder).1
  have selected : (d.select (0 :: rest)).Legible :=
    ⟨legible.before, legible.markers, legible.lines.select some_lines later plain⟩
  have origin : (d.select (0 :: rest)).origin = textOrigin := (origin_of_readString found :)
  obtain ⟨d', reread, same⟩ := readString_print options selected origin
  have lines := congrArg Document.expressions same
  have left : d'.bare.trailing = (d.select (0 :: rest)).bare.trailing := by rw [same]
  refine ⟨d', reread, same, ?_, left⟩
  simpa only [Document.bare, Document.select, List.map_filterMap] using lines

theorem readString_select_comments :
    let options : Options := { computeChecksum := false }
    let a := pairLine "a" "1" .integer (some (.integer 1)) (some { text := "#c" })
    let b := pairLine "b" "2" .integer (some (.integer 2)) none
    let d := Document.number 1
      { textOrigin with
        before := {}
        expressions := [a, { b with before := ⟨"\n"⟩ }, { a with before := ⟨"\n#d\n"⟩ }]
        trailing := ⟨" \n#e"⟩ }
    readString options "a = 1#c\nb = 2\n#d\na = 1#c \n#e" = .ok d ∧
      (d.select [0, 2]).print = "a = 1#c\n#d\na = 1#c \n#e" ∧
      ∃ r, readString options "a = 1#c\n#d\na = 1#c \n#e" = .ok r ∧
        r.bare = (d.select [0, 2]).bare := by
  intro options a b d
  have found : readString options "a = 1#c\nb = 2\n#d\na = 1#c \n#e" = .ok d :=
    ok_of_toOption (by decide +kernel)
  have plain : '#' ∉ d.trailing.chars.takeWhile fun c => !isLineEnd c := by decide +kernel
  have printed : (d.select [0, 2]).print = "a = 1#c\n#d\na = 1#c \n#e" := by decide +kernel
  have inOrder : [0, 2].Pairwise (· < ·) := by decide
  obtain ⟨r, reread, same, _⟩ := readString_select found plain inOrder (by decide)
  rw [printed] at reread
  exact ⟨found, printed, r, reread, same⟩

end Reader

end Verbatim
