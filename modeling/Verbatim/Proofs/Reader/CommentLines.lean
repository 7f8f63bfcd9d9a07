import Verbatim.Proofs.Document.CommentLines
import Verbatim.Proofs.Reader.Places

/-!
# Comment lines of a document

The comment lines of a text end up in the spaces of its document, in front of lines of content and
at the end. `Space.comments` finds them all, and nothing else, exactly if no space hides one
(`readString_commentLines`).
-/

namespace Verbatim

open Text Toml

variable {s gap gap' rest rest' left : List Char} {pos : Nat} {ns ts : List Build.Node}
  {es : List Expression} {d : Document}

/-! ### Spaces and the nodes between lines -/

/-- Texts in front of the same text, or of others, with as many bytes. -/
theorem eq_of_byteLength (same : gap ++ rest = gap' ++ rest')
    (length : byteLength gap = byteLength gap') : gap = gap' ∧ rest = rest' := by
  have cut := takeBytes?_append gap rest
  rw [same, length, takeBytes?_append] at cut
  obtain rfl := Option.some.inj cut
  exact ⟨rfl, List.append_cancel_left same⟩

/-- Nodes for comment lines are no content. -/
theorem Toml.Notes.filters (h : Notes ns) :
    ns.filter isContent = [] ∧ ns.filter (·.rule = .comment) = ns := by
  refine ⟨List.filter_eq_nil_iff.mpr fun n member => ?_,
    List.filter_eq_self.mpr fun n member => ?_⟩
  · simp [isContent, h n member]
  · simp [h n member]

/-- The spaces in front of the lines and at the end hold the comment lines whose nodes stand
there. -/
theorem exists_commentGaps (lines : Build.LinesOf pos s ts es left) (noted : NotedLines pos s ns)
    (same : ns.filter isContent = ts) :
    ∃ css, List.Forall₂ CommentGap (es.map (·.before.chars) ++ [left]) css ∧
      textsOf (ns.filter (·.rule = .comment)) = css.flatten := by
  induction lines generalizing ns with
  | last pos left =>
    cases noted with
    | last notes behind =>
      refine ⟨[textsOf ns], .cons behind .nil, ?_⟩
      rw [notes.filters.2, List.flatten_singleton]
    | line notes front rule start more =>
      rw [List.filter_append, List.append_eq_nil_iff, List.filter_cons_of_pos
        (by simp [isContent, rule])] at same
      cases same.2
  | @line pos gap rest left t ts e es start here more ih =>
    generalize whole : gap ++ t.text ++ rest = s at noted
    cases noted with
    | last notes _ =>
      rw [notes.filters.1] at same
      cases same
    | @line _ gap' rest' t' ns ts' notes front rule start' more' =>
      rw [List.filter_append, notes.filters.1, List.nil_append, List.filter_cons_of_pos
        (by simp [isContent, rule])] at same
      obtain ⟨rfl, rfl⟩ := List.cons.inj same
      rw [List.append_assoc, List.append_assoc] at whole
      obtain ⟨rfl, behind⟩ := eq_of_byteLength whole (by omega)
      obtain rfl := List.append_cancel_left behind
      obtain ⟨css, gaps, texts⟩ := ih more' rfl
      have before : e.before.chars = gap := by cases here <;> exact Space.chars_ofList gap
      refine ⟨textsOf ns :: css, ?_, ?_⟩
      · rw [List.map_cons, List.cons_append, before]
        exact .cons front gaps
      · have header : ¬ t'.rule = .comment := by simp [rule]
        rw [List.filter_append, notes.filters.2, List.filter_cons_of_neg (by simp [header]),
          List.flatten_cons, ← texts, textsOf, textsOf, textsOf, List.map_append]

theorem map_before_numberAll (next : Nat) (es : List Expression) :
    (numberAll next es).map (·.before) = es.map (·.before) := by
  induction es generalizing next with
  | nil => rfl
  | cons e es ih => simp [numberAll, Expression.number, ih]

/-- The spaces of a document outside of its lines of content, in the order of the text. -/
def Document.spaces (d : Document) : List Space :=
  d.before :: d.expressions.map (·.before) ++ [d.trailing]

namespace Reader

/-- The spaces of a document that is read hold the comment lines that the grammar has read in its
text. -/
theorem exists_commentGaps_of_readString {options : Options} {s : String}
    (found : readString options s = .ok d) :
    ∃ css, List.Forall₂ CommentGap (d.spaces.map (·.chars)) css ∧
      commentLines s.toList = css.flatten := by
  obtain ⟨t, accepted⟩ := exists_ok_of_isOk (x := Toml.parse s.toList)
    (by rw [← isOk_readString options, found]; rfl)
  obtain ⟨es, left, lines, before, numbered, trailing⟩ :=
    exists_linesOf_of_readString found accepted
  obtain ⟨ns, noted, content, read⟩ := notedLines_of_accepted accepted
  obtain ⟨css, gaps, texts⟩ := exists_commentGaps lines noted content
  have spaces : d.spaces.map (·.chars) = [] :: (es.map (·.before.chars) ++ [left]) := by
    have same := congrArg (List.map (·.chars)) (map_before_numberAll 2 es)
    rw [Document.spaces, before, numbered, trailing]
    simpa [Function.comp_def] using same
  refine ⟨[] :: css, ?_, by rw [read, texts]; rfl⟩
  rw [spaces]
  exact .cons (CommentLines.none (s := []) fun c member => nomatch member).gap gaps

/-- The comments that are found in the spaces of a document are those of the comment lines that the
grammar has read outside of values, in this order and each without the blanks at its end, exactly if
no space hides one of them. -/
theorem readString_commentLines {options : Options} {s : String}
    (found : readString options s = .ok d) :
    d.spaces.flatMap Space.comments =
        (commentLines s.toList).map (fun c => String.ofList (trimEnd c)) ↔
      ∀ space ∈ d.spaces, ¬ Space.HidesComment space.chars := by
  obtain ⟨css, gaps, read⟩ := exists_commentGaps_of_readString found
  have seen : d.spaces.flatMap Space.comments =
      ((d.spaces.map (·.chars)).flatMap Space.commentsIn).map String.ofList := by
    simp only [List.map_flatMap, List.flatMap_map, ← Space.comments_eq]
  have trimmed : (commentLines s.toList).map (fun c => String.ofList (trimEnd c)) =
      (css.flatten.map trimEnd).map String.ofList := by
    rw [read, List.map_map]
    rfl
  have apart : Function.Injective (List.map String.ofList) :=
    List.map_injective_iff.mpr fun _ _ => String.ofList_inj.mp
  rw [seen, trimmed, apart.eq_iff, Space.flatMap_commentsIn_eq_iff gaps, List.forall_mem_map]

theorem readString_commentLines_mixed :
    ∃ d, readString {} "\t# a\u3000\r\n\rb = 1 # c\n # d" = .ok d ∧
      (d.spaces.flatMap Space.comments =
          (commentLines "\t# a\u3000\r\n\rb = 1 # c\n # d".toList).map
            (fun c => String.ofList (trimEnd c)) ↔
        ∀ space ∈ d.spaces, ¬ Space.HidesComment space.chars) := by
  obtain ⟨d, found⟩ := exists_ok_of_isOk
    (x := readString {} "\t# a\u3000\r\n\rb = 1 # c\n # d") (by decide +kernel)
  exact ⟨d, found, readString_commentLines found⟩

/-- Two comment lines are taken for one if a carriage return stands between them, and one behind an
ideographic space at the end of the last line is not found. -/
theorem readString_commentLines_hidden :
    (∃ d, readString { computeChecksum := false } "# a\r# b\n" = .ok d ∧
      d.spaces.flatMap Space.comments = ["# a\r# b"] ∧
      (commentLines "# a\r# b\n".toList).map (fun c => String.ofList (trimEnd c)) =
        ["# a", "# b"]) ∧
    ∃ d, readString { computeChecksum := false } "a = 1\u3000# c" = .ok d ∧
      d.spaces.flatMap Space.comments = [] ∧
      (commentLines "a = 1\u3000# c".toList).map (fun c => String.ofList (trimEnd c)) =
        ["# c"] := by
  constructor
  · have found : readString { computeChecksum := false } "# a\r# b\n" =
        .ok (Document.number 1
          { textOrigin with before := {}, expressions := [], trailing := ⟨"# a\r# b\n"⟩ }) :=
      ok_of_toOption (by decide +kernel)
    exact ⟨_, found, by decide +kernel, by decide +kernel⟩
  · have found : readString { computeChecksum := false } "a = 1\u3000# c" =
        .ok (singleLine (pairLine "a" "1" .integer (some (.integer 1)) none) ⟨"\u3000# c"⟩) :=
      ok_of_toOption (by decide +kernel)
    exact ⟨_, found, by decide +kernel, by decide +kernel⟩

end Reader

end Verbatim
