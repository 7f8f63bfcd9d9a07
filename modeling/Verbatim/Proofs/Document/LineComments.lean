import Verbatim.Proofs.Document.CommentLines
import Verbatim.Proofs.Text.Trim

/-!
# The comments of a space, line by line

`Space.comments` reads one line after another and looks neither back nor ahead: at a line feed, the
comments of a text are those in front of it and those behind it (`commentsIn_joined`). So what holds
of the comment of one line holds of all comments of a text. Each is a piece of its line from the
number sign on, without blanks at the end (`lineComment?_eq_some`), and the pieces stand in the text
one behind another (`comments_lines`).
-/

namespace Verbatim

namespace Text

/-- Texts that stand in a text one behind another, with anything around them. -/
inductive InOrder : List (List Char) → List Char → Prop where
  | none (s : List Char) : InOrder [] s
  | next {texts : List (List Char)} {rest : List Char} (gap text : List Char)
      (more : InOrder texts rest) : InOrder (text :: texts) (gap ++ text ++ rest)

namespace InOrder

variable {texts more : List (List Char)} {s t : List Char}

theorem behind (h : InOrder texts s) (front : List Char) : InOrder texts (front ++ s) := by
  cases h with
  | none => exact .none _
  | next gap text more =>
    rw [← List.append_assoc, ← List.append_assoc]
    exact .next (front ++ gap) text more

theorem append (left : InOrder texts s) (right : InOrder more t) :
    InOrder (texts ++ more) (s ++ t) := by
  induction left with
  | none s => exact right.behind s
  | next gap text _ ih =>
    rw [List.append_assoc]
    exact .next gap text ih

end InOrder

end Text

namespace Space

open Text

variable {line c s : List Char}

/-- A comment as it is found: it starts with the number sign, stays on its line and does not end in
a blank. -/
structure IsLineComment (c : List Char) : Prop where
  hash : c.head? = some '#'
  inLine : '\n' ∉ c
  last : EndsIn Visible c

/-- The comment of a line is what is left of the line when blanks at both ends are cut off. -/
theorem lineComment?_eq_some (h : lineComment? line = some c) :
    ∃ front blanks, line = front ++ c ++ blanks ∧ c.head? = some '#' ∧ EndsIn Visible c := by
  simp only [lineComment?] at h
  split at h
  next hash =>
    obtain ⟨body, left⟩ := List.head?_eq_some_iff.mp hash
    obtain ⟨rest, trimmed, last⟩ := trimEnd_visible (c := '#') (by decide) body
    obtain ⟨blanks, cut, _⟩ := exists_trimEnd ('#' :: body)
    rw [left] at h
    obtain rfl := Option.some.inj h
    refine ⟨line.takeWhile isIndent, blanks, ?_, by rw [trimmed]; rfl, trimmed ▸ last⟩
    rw [List.append_assoc, ← cut, ← left, List.takeWhile_append_dropWhile]
  · cases h

theorem isLineComment_of_line (inside : '\n' ∉ line) (h : lineComment? line = some c) :
    IsLineComment c := by
  obtain ⟨front, blanks, rfl, hash, last⟩ := lineComment?_eq_some h
  exact ⟨hash, fun member => inside (by simp [member]), last⟩

theorem inOrder_line (line : List Char) : InOrder (lineComment? line).toList line := by
  cases found : lineComment? line with
  | none => exact .none line
  | some c =>
    obtain ⟨front, blanks, rfl, _⟩ := lineComment?_eq_some found
    exact .next front c (.none blanks)

/-- The comments of two texts with a line feed between them are those of the first and those of the
second. -/
theorem commentsIn_joined (a b : List Char) :
    commentsIn (a ++ '\n' :: b) = commentsIn a ++ commentsIn b := by
  induction a using line_induction with
  | last a inside => rw [commentsIn_feed inside, commentsIn_last inside]
  | line a more inside ih =>
    rw [List.append_assoc, List.cons_append, commentsIn_feed inside, commentsIn_feed inside, ih,
      List.append_assoc]

theorem isLineComment_of_mem (h : c ∈ commentsIn s) : IsLineComment c := by
  induction s using line_induction with
  | last a inside =>
    rw [commentsIn_last inside] at h
    exact isLineComment_of_line inside (Option.mem_toList.mp h)
  | line a more inside ih =>
    rw [commentsIn_feed inside] at h
    rcases List.mem_append.mp h with here | later
    · exact isLineComment_of_line inside (Option.mem_toList.mp here)
    · exact ih later

theorem inOrder_commentsIn (s : List Char) : InOrder (commentsIn s) s := by
  induction s using line_induction with
  | last a inside =>
    rw [commentsIn_last inside]
    exact inOrder_line a
  | line a more inside ih =>
    rw [commentsIn_feed inside]
    exact (inOrder_line a).append (ih.behind ['\n'])

/-- The comments of two texts with a line feed between them are those of the first and those of the
second. The comments of any text start with a number sign, hold no line feed, do not end in a blank,
and stand in the text one behind another. -/
theorem comments_lines (a b : String) (s : Space) :
    comments ⟨a ++ "\n" ++ b⟩ = comments ⟨a⟩ ++ comments ⟨b⟩ ∧
      (∀ c ∈ s.comments, IsLineComment c.toList) ∧
        InOrder (s.comments.map String.toList) s.text.toList := by
  refine ⟨?_, ?_, ?_⟩
  · have feed : (a ++ "\n" ++ b).toList = a.toList ++ '\n' :: b.toList := by simp
    rw [comments_eq, comments_eq, comments_eq, chars, feed, commentsIn_joined, List.map_append]
  · intro c member
    rw [comments_eq] at member
    obtain ⟨found, inText, rfl⟩ := List.mem_map.mp member
    rw [String.toList_ofList]
    exact isLineComment_of_mem inText
  · have same : s.comments.map String.toList = commentsIn s.chars := by
      simp [comments_eq, Function.comp_def]
    rw [same]
    exact inOrder_commentsIn s.chars

/-- A carriage return in front of the line feed at the cut, and a comment with blanks around it. -/
theorem comments_lines_return :
    comments ⟨"# a \r" ++ "\n" ++ "\t#b\u3000\n\n c"⟩ =
        comments ⟨"# a \r"⟩ ++ comments ⟨"\t#b\u3000\n\n c"⟩ ∧
      comments ⟨"\t#b\u3000\n\n c"⟩ = ["#b"] ∧ IsLineComment "#b".toList := by
  have found : comments ⟨"\t#b\u3000\n\n c"⟩ = ["#b"] := by decide +kernel
  obtain ⟨joined, alike, _⟩ := comments_lines "# a \r" "\t#b\u3000\n\n c" ⟨"\t#b\u3000\n\n c"⟩
  exact ⟨joined, found, alike "#b" (by rw [found]; exact List.mem_singleton_self _)⟩

end Space

end Verbatim
