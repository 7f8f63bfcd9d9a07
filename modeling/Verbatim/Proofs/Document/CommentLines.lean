import Mathlib.Data.List.Forall2
import Verbatim.Document.Space
import Verbatim.Proofs.Document.Spacing
import Verbatim.Proofs.Toml.CommentLines

/-!
# The comments of a space

`Space.comments` has a notion of lines and blanks of its own: a line ends at a line feed, and spaces
and tabs may stand in front of its comment. In a space between lines of content it finds the comment
lines that the grammar has read there, unless one of them is hidden (`HidesComment`): it starts
behind a carriage return that no line feed follows, which ends a line for the grammar only, or
behind another blank at the very start of the space. Whatever the space, there are no more comments
found than there are comment lines, and fewer if one is hidden (`length_commentsIn`).
-/

namespace Verbatim.Space

open Text Toml

variable {s t a b : List Char} {cs : List (List Char)}

/-- The comments of a space with this text. -/
def commentsIn (s : List Char) : List (List Char) := (lines s).filterMap lineComment?

theorem comments_eq (s : Space) : s.comments = (commentsIn s.chars).map String.ofList := rfl

/-! ### Lines -/

/-- A text is its last line, or a line with a line feed and more text behind it. -/
theorem line_induction {P : List Char → Prop} (last : ∀ a, '\n' ∉ a → P a)
    (line : ∀ a b, '\n' ∉ a → P b → P (a ++ '\n' :: b)) (s : List Char) : P s := by
  by_cases feed : '\n' ∈ s
  · obtain ⟨a, b, split, first⟩ := List.eq_append_cons_of_mem feed
    have shorter : b.length < s.length := by
      rw [split, List.length_append, List.length_cons]
      omega
    rw [split]
    exact line a b first (line_induction last line b)
  · exact last s feed
termination_by s.length

theorem lines_last (h : '\n' ∉ a) (some_text : a ≠ []) : lines a = [a] := by
  induction a with
  | nil => exact absurd rfl some_text
  | cons c a ih =>
    obtain ⟨other, later⟩ := List.ne_and_not_mem_of_not_mem_cons h
    have next : ¬ (c = '\r' ∧ a.head? = some '\n') := fun closing =>
      later (List.mem_of_mem_head? closing.2)
    rw [lines, if_neg (Ne.symm other), if_neg next]
    cases a with
    | nil => rfl
    | cons d a => rw [ih later (List.cons_ne_nil _ _)]

/-- The line feed that ends a line takes one carriage return in front of it with it. -/
theorem lines_feed (h : '\n' ∉ a) (b : List Char) :
    ∃ l, lines (a ++ '\n' :: b) = l :: lines b ∧ (a = l ∨ a = l ++ ['\r']) := by
  induction a with
  | nil => exact ⟨[], by simp [lines], Or.inl rfl⟩
  | cons c a ih =>
    obtain ⟨other, later⟩ := List.ne_and_not_mem_of_not_mem_cons h
    obtain ⟨l, rest, cut⟩ := ih later
    rw [List.cons_append, lines, if_neg (Ne.symm other)]
    by_cases closing : c = '\r' ∧ (a ++ '\n' :: b).head? = some '\n'
    · obtain rfl : a = [] := by
        cases a with
        | nil => rfl
        | cons d a =>
          obtain rfl : d = '\n' := Option.some.inj closing.2
          exact absurd (List.mem_cons_self ..) later
      exact ⟨[], by rw [if_pos closing]; simp [lines], Or.inr (by rw [closing.1]; rfl)⟩
    · refine ⟨c :: l, by rw [if_neg closing, rest], ?_⟩
      rcases cut with rfl | rfl
      · exact Or.inl rfl
      · exact Or.inr rfl

/-! ### The comment of a line -/

theorem lineComment?_hash {indents : List Char} (h : Indents indents) (x : List Char) :
    lineComment? (indents ++ '#' :: x) = some (trimEnd ('#' :: x)) := by
  have front : (indents ++ '#' :: x).dropWhile isIndent = '#' :: x :=
    List.dropWhile_append_of_pos h
  simp only [lineComment?, front, List.head?_cons, if_true]

theorem lineComment?_eq_none (h : '#' ∉ a) : lineComment? a = none := by
  refine if_neg fun first => h ?_
  exact (List.dropWhile_sublist isIndent).subset (List.mem_of_mem_head? first)

/-- Behind other blanks than spaces and tabs no comment of the line starts. -/
theorem lineComment?_behind {blanks : List Char} (blank : ∀ c ∈ blanks, isBlank c = true)
    (wide : ¬ Indents blanks) (x : List Char) : lineComment? (blanks ++ x) = none := by
  obtain ⟨front, c, more, rfl, indents, other⟩ := exists_of_not_indents wide
  have skipped : ((front ++ c :: more) ++ x).dropWhile isIndent = c :: (more ++ x) := by
    rw [List.append_assoc, List.dropWhile_append_of_pos indents, List.cons_append,
      List.dropWhile_cons_of_neg (by simp [other])]
  refine if_neg fun first => ?_
  rw [skipped] at first
  obtain rfl : c = '#' := Option.some.inj first
  cases blank '#' (by simp)

theorem trimEnd_append_blanks {blanks : List Char} (blank : ∀ c ∈ blanks, isBlank c = true)
    (s : List Char) : trimEnd (s ++ blanks) = trimEnd s := by
  rw [trimEnd, List.reverse_append, List.dropWhile_append_of_pos fun c member =>
    blank c (List.mem_reverse.mp member), trimEnd]

/-- Blanks at the end of a line do not matter. -/
theorem lineComment?_append_blanks {blanks : List Char} (blank : ∀ c ∈ blanks, isBlank c = true)
    (a : List Char) : lineComment? (a ++ blanks) = lineComment? a := by
  by_cases indents : Indents a
  · have nothing : '#' ∉ a ++ blanks := by
      intro member
      rcases List.mem_append.mp member with front | behind
      · cases indents _ front
      · cases blank _ behind
    rw [lineComment?_eq_none nothing,
      lineComment?_eq_none fun front => nothing (List.mem_append_left _ front)]
  · have some_text : a.dropWhile isIndent ≠ [] := fun none =>
      indents (List.dropWhile_eq_nil_iff.mp none)
    obtain ⟨c, rest, left⟩ := List.exists_cons_of_ne_nil some_text
    have longer : (a ++ blanks).dropWhile isIndent = c :: (rest ++ blanks) := by
      rw [List.dropWhile_append, left]
      rfl
    simp only [lineComment?, longer, left, List.head?_cons]
    rw [← List.cons_append, trimEnd_append_blanks blank]

/-- A line with more text behind it starts with a comment only if it does so alone, or if it is
blank and the text does. -/
theorem isSome_lineComment?_append (h : (lineComment? (a ++ b)).isSome) :
    (lineComment? a).isSome ∨ (lineComment? b).isSome := by
  simp only [lineComment?, Option.isSome_ite] at h ⊢
  rw [List.dropWhile_append] at h
  split at h
  · exact Or.inr h
  next left =>
    obtain ⟨c, rest, cut⟩ := List.exists_cons_of_ne_nil fun none => left (List.isEmpty_iff.mpr none)
    rw [cut] at h ⊢
    exact Or.inl h

/-! ### The comments of a text -/

theorem commentsIn_last (h : '\n' ∉ a) : commentsIn a = (lineComment? a).toList := by
  by_cases empty : a = []
  · subst empty
    rfl
  · rw [commentsIn, lines_last h empty]
    cases found : lineComment? a <;> simp [found]

theorem commentsIn_feed (h : '\n' ∉ a) (b : List Char) :
    commentsIn (a ++ '\n' :: b) = (lineComment? a).toList ++ commentsIn b := by
  obtain ⟨l, split, cut⟩ := lines_feed h b
  have same : lineComment? a = lineComment? l := by
    rcases cut with rfl | rfl
    · rfl
    · exact lineComment?_append_blanks (List.forall_mem_singleton.mpr (by decide)) l
  rw [commentsIn, split, same]
  cases found : lineComment? l <;> simp [commentsIn, found]

theorem commentsIn_eq_nil (h : '#' ∉ s) : commentsIn s = [] := by
  induction s using line_induction with
  | last a inside => rw [commentsIn_last inside, lineComment?_eq_none h]; rfl
  | line a b inside ih =>
    rw [commentsIn_feed inside, ih fun member => h (by simp [member]),
      lineComment?_eq_none fun member => h (by simp [member])]
    rfl

/-- Two texts one behind the other have no more comments than the two alone. -/
theorem length_commentsIn_append (a b : List Char) :
    (commentsIn (a ++ b)).length ≤ (commentsIn a).length + (commentsIn b).length := by
  have joined : ∀ x y : List Char, (lineComment? (x ++ y)).toList.length ≤
      (lineComment? x).toList.length + (lineComment? y).toList.length := by
    intro x y
    cases found : lineComment? (x ++ y) with
    | none => simp
    | some c =>
      rcases isSome_lineComment?_append (by rw [found]; rfl) with here | behind
      · obtain ⟨d, here⟩ := Option.isSome_iff_exists.mp here
        simp [here]
      · obtain ⟨d, behind⟩ := Option.isSome_iff_exists.mp behind
        simp [behind]
  induction a using line_induction with
  | last a inside =>
    by_cases feed : '\n' ∈ b
    · obtain ⟨x, y, rfl, first⟩ := List.eq_append_cons_of_mem feed
      have whole : '\n' ∉ a ++ x := by simp [inside, first]
      rw [← List.append_assoc, commentsIn_feed whole, commentsIn_feed first, commentsIn_last inside]
      have parts := joined a x
      simp only [List.length_append]
      omega
    · rw [commentsIn_last inside, commentsIn_last feed, commentsIn_last (by simp [inside, feed])]
      exact joined a b
  | line a x inside ih =>
    rw [List.append_assoc, List.cons_append, commentsIn_feed inside, commentsIn_feed inside]
    simp only [List.length_append]
    omega

/-! ### Hidden comments -/

/-- A comment starts behind a carriage return, perhaps behind spaces and tabs. -/
def HiddenByReturn (s : List Char) : Prop :=
  ∃ front indents back, s = front ++ '\r' :: (indents ++ '#' :: back) ∧ Indents indents

/-- A comment starts behind the blanks at the start of the text, and these are not spaces and tabs
alone. -/
def HiddenByBlank (s : List Char) : Prop :=
  ∃ blanks back, s = blanks ++ '#' :: back ∧ InlineBlanks blanks ∧ ¬ Indents blanks

/-- A text with a comment line whose comment does not start a line, where a line ends at a line feed
and only spaces and tabs may stand in front of a comment. -/
def HidesComment (s : List Char) : Prop := HiddenByReturn s ∨ HiddenByBlank s

theorem HiddenByReturn.behind (h : HiddenByReturn t) (s : List Char) : HiddenByReturn (s ++ t) := by
  obtain ⟨front, indents, back, rfl, blank⟩ := h
  exact ⟨s ++ front, indents, back, by simp, blank⟩

theorem isBlank_of_blankLines (h : BlankLines s) : ∀ c ∈ s, isBlank c = true :=
  fun c member => (h c member).elim isBlank_of_isIndent isBlank_of_isLineEnd

/-- The blanks behind a line, with blank lines behind them. -/
theorem isBlank_of_lead {blanks : List Char} (inline : InlineBlanks blanks) (h : BlankLines s) :
    ∀ c ∈ blanks ++ s, isBlank c = true := by
  intro c member
  rcases List.mem_append.mp member with here | there
  · exact (inline c here).1
  · exact isBlank_of_blankLines h c there

/-- Text that consists of blanks has no number sign. -/
theorem hash_not_mem (blank : ∀ c ∈ s, isBlank c = true) : '#' ∉ s := by
  intro member
  cases blank _ member

/-- Blank lines without a line feed are spaces and tabs, or the last carriage return in them stands
in front of spaces and tabs. -/
theorem indents_or_return (blank : BlankLines s) (noFeed : '\n' ∉ s) :
    Indents s ∨ ∃ front indents, s = front ++ '\r' :: indents ∧ Indents indents := by
  induction s with
  | nil => exact Or.inl fun c member => nomatch member
  | cons c s ih =>
    obtain ⟨other, later⟩ := List.ne_and_not_mem_of_not_mem_cons noFeed
    rcases ih (fun d member => blank d (List.mem_cons_of_mem _ member)) later with
      indents | ⟨front, indents, rfl, behind⟩
    · rcases blank c (List.mem_cons_self ..) with indent | ends
      · refine Or.inl fun d member => ?_
        rcases List.mem_cons.mp member with rfl | inside
        · exact indent
        · exact indents d inside
      · obtain rfl : c = '\r' := by simpa [isLineEnd, Ne.symm other] using ends
        exact Or.inr ⟨[], s, rfl, indents⟩
    · exact Or.inr ⟨c :: front, indents, rfl, behind⟩

/-! ### Every comment is found -/

/-- Blank text in front of a line feed does not matter. -/
theorem commentsIn_behind_feed (blank : ∀ c ∈ s, isBlank c = true) (t : List Char) :
    commentsIn (s ++ '\n' :: t) = commentsIn t := by
  induction s using line_induction with
  | last a inside =>
    rw [commentsIn_feed inside, lineComment?_eq_none (hash_not_mem blank)]
    rfl
  | line a b inside ih =>
    rw [List.append_assoc, List.cons_append, commentsIn_feed inside,
      ih fun c member => blank c (by simp [member]),
      lineComment?_eq_none fun member => hash_not_mem blank (by simp [member])]
    rfl

/-- The comment of a line, with blanks behind it up to the line feed. -/
theorem commentsIn_comment {indents body blanks : List Char} (front : Indents indents)
    (inside : OneLine body) (blank : ∀ c ∈ blanks, isBlank c = true) (noFeed : '\n' ∉ blanks)
    (behind : t = blanks ∨ ∃ more, t = blanks ++ '\n' :: more) :
    commentsIn (indents ++ '#' :: body ++ t) = trimEnd ('#' :: body) :: commentsIn t := by
  have noFeed' : '\n' ∉ indents ++ '#' :: body ++ blanks := by
    intro member
    simp only [List.append_assoc, List.cons_append, List.mem_append, List.mem_cons] at member
    rcases member with here | here | here | here
    · cases front _ here
    · cases here
    · cases inside _ here
    · exact noFeed here
  have nothing : lineComment? blanks = none := lineComment?_eq_none (hash_not_mem blank)
  have here : lineComment? (indents ++ '#' :: body ++ blanks) = some (trimEnd ('#' :: body)) := by
    rw [lineComment?_append_blanks blank, lineComment?_hash front]
  rcases behind with rfl | ⟨more, rfl⟩
  · rw [commentsIn_last noFeed', commentsIn_last noFeed, here, nothing]
    rfl
  · rw [← List.append_assoc, commentsIn_feed noFeed', commentsIn_feed noFeed, here, nothing]
    rfl

/-- Behind a comment the line ends before the next comment starts, if none is hidden. -/
theorem blanks_behind_comment (h : CommentLines t cs) (ended : AtLineEnd t)
    (shown : ¬ HiddenByReturn t) : ∃ blanks, (∀ c ∈ blanks, isBlank c = true) ∧ '\n' ∉ blanks ∧
      (t = blanks ∨ ∃ more, t = blanks ++ '\n' :: more) := by
  have upToFeed : ∀ {front : List Char}, BlankLines front → '\n' ∈ front →
      ∃ blanks more, front = blanks ++ '\n' :: more ∧ '\n' ∉ blanks ∧
        ∀ c ∈ blanks, isBlank c = true := by
    intro front blank feed
    obtain ⟨blanks, more, rfl, first⟩ := List.eq_append_cons_of_mem feed
    exact ⟨blanks, more, rfl, first, fun c member =>
      isBlank_of_blankLines blank c (List.mem_append_left _ member)⟩
  cases h with
  | none blank =>
    by_cases feed : '\n' ∈ t
    · obtain ⟨blanks, more, rfl, noFeed, isBlank⟩ := upToFeed blank feed
      exact ⟨blanks, isBlank, noFeed, Or.inr ⟨more, rfl⟩⟩
    · exact ⟨t, isBlank_of_blankLines blank, feed, Or.inl rfl⟩
  | @comment front body rest cs blank inside _ more =>
    by_cases feed : '\n' ∈ front
    · obtain ⟨blanks, more, rfl, noFeed, isBlank⟩ := upToFeed blank feed
      exact ⟨blanks, isBlank, noFeed, Or.inr ⟨more ++ '#' :: body ++ rest, by simp⟩⟩
    · rcases indents_or_return blank feed with indents | ⟨before, indents, rfl, behind⟩
      · -- a comment cannot start on the line of the one before it
        rw [List.append_assoc, List.cons_append] at ended
        cases ended.ends indents (by decide)
      · exact absurd ⟨before, indents, body ++ rest, by simp, behind⟩ shown

/-- What leads to a comment that is not hidden is spaces and tabs, behind the last line feed. -/
theorem commentsIn_lead {blanks front x : List Char} (inline : InlineBlanks blanks)
    (blank : BlankLines front) (shown : ¬ HidesComment (blanks ++ front ++ '#' :: x)) :
    ∃ indents, Indents indents ∧ commentsIn (blanks ++ front ++ '#' :: x) =
      commentsIn (indents ++ '#' :: x) := by
  by_cases feed : '\n' ∈ front
  · obtain ⟨after, before, split, noFeed⟩ := List.eq_append_cons_of_mem (List.mem_reverse.mpr feed)
    obtain rfl : front = before.reverse ++ '\n' :: after.reverse := by
      simpa using congrArg List.reverse split
    have isBlank : ∀ c ∈ blanks ++ before.reverse, isBlank c = true := by
      intro c member
      rcases List.mem_append.mp member with here | there
      · exact (inline c here).1
      · exact isBlank_of_blankLines blank c (List.mem_append_left _ there)
    refine ⟨after.reverse, ?_, ?_⟩
    · have last : BlankLines after.reverse := fun c member =>
        blank c (List.mem_append_right _ (List.mem_cons_of_mem _ member))
      rcases indents_or_return last (by simpa using noFeed) with
        indents | ⟨before', indents, returned, behind⟩
      · exact indents
      · refine absurd (Or.inl ⟨blanks ++ before.reverse ++ '\n' :: before', indents, x, ?_, behind⟩)
          shown
        rw [returned]
        simp
    · have same := commentsIn_behind_feed isBlank (after.reverse ++ '#' :: x)
      simpa using same
  · refine ⟨blanks ++ front, ?_, rfl⟩
    rcases indents_or_return blank feed with indents | ⟨before, indents, rfl, behind⟩
    · by_contra wide
      exact shown (Or.inr ⟨blanks ++ front, x, rfl, inline.append indents.inlineBlanks, wide⟩)
    · exact absurd (Or.inl ⟨blanks ++ before, indents, x, by simp, behind⟩) shown

/-- A comment line that stands at the end of a line is not behind a blank at the start. -/
theorem not_hiddenByBlank (ended : AtLineEnd s) : ¬ HiddenByBlank s := by
  rintro ⟨blanks, back, rfl, inline, wide⟩
  obtain ⟨front, c, more, rfl, indents, other⟩ := exists_of_not_indents wide
  rw [List.append_assoc, List.cons_append] at ended
  have ends := ended.ends indents other
  rw [(inline c (by simp)).2] at ends
  cases ends

/-- Where no comment is hidden, the comments are found that the grammar has read, each without the
blanks at its end. -/
theorem commentsIn_eq_of_shown {blanks : List Char} (h : CommentLines s cs)
    (inline : InlineBlanks blanks) (shown : ¬ HidesComment (blanks ++ s)) :
    commentsIn (blanks ++ s) = cs.map trimEnd := by
  induction h generalizing blanks with
  | none blank => exact commentsIn_eq_nil (hash_not_mem (isBlank_of_lead inline blank))
  | @comment front body rest cs blank inside ended more ih =>
    have shown' : ¬ HiddenByReturn rest := fun hidden =>
      shown (Or.inl ((hidden.behind (front ++ '#' :: body)).behind blanks))
    have whole : blanks ++ (front ++ '#' :: body ++ rest) =
        blanks ++ front ++ '#' :: (body ++ rest) := by simp
    rw [whole] at shown ⊢
    obtain ⟨indents, isIndents, same⟩ := commentsIn_lead inline blank shown
    obtain ⟨gap, isBlank, noFeed, behind⟩ := blanks_behind_comment more ended shown'
    have here := commentsIn_comment isIndents inside isBlank noFeed behind
    have later := ih inlineBlanks_nil fun hides =>
      hides.elim shown' (not_hiddenByBlank ended)
    rw [List.nil_append] at later
    rw [same, ← List.cons_append, ← List.append_assoc, here, later, List.map_cons]

/-! ### Hidden comments are missing -/

theorem not_mem_feed {body : List Char} (inside : OneLine body) : '\n' ∉ body := by
  intro member
  cases inside _ member

/-- A comment line has one comment at most. -/
theorem length_commentsIn_comment {lead body : List Char} (blank : ∀ c ∈ lead, isBlank c = true)
    (inside : OneLine body) : (commentsIn (lead ++ '#' :: body)).length ≤ 1 := by
  have noFeed : '\n' ∉ '#' :: body := by simp [not_mem_feed inside]
  have parts := length_commentsIn_append lead ('#' :: body)
  rw [commentsIn_eq_nil (hash_not_mem blank), commentsIn_last noFeed] at parts
  have single := Option.length_toList_le (o := lineComment? ('#' :: body))
  simp only [List.length_nil] at parts
  omega

/-- Behind blanks that are not spaces and tabs alone it has none. -/
theorem commentsIn_behind {lead body : List Char} (blank : ∀ c ∈ lead, isBlank c = true)
    (noFeed : '\n' ∉ lead) (wide : ¬ Indents lead) (inside : OneLine body) :
    commentsIn (lead ++ '#' :: body) = [] := by
  rw [commentsIn_last (by simp [noFeed, not_mem_feed inside]), lineComment?_behind blank wide]
  rfl

/-- Nor behind a carriage return. -/
theorem commentsIn_behind_return {front indents body : List Char}
    (blank : ∀ c ∈ front, isBlank c = true) (isIndents : Indents indents) (inside : OneLine body) :
    commentsIn (front ++ '\r' :: indents ++ '#' :: body) = [] := by
  have blank' : ∀ c ∈ '\r' :: indents, isBlank c = true :=
    List.forall_mem_cons.mpr ⟨rfl, fun c member => isBlank_of_isIndent (isIndents c member)⟩
  have noFeed : '\n' ∉ '\r' :: indents := by
    intro member
    rcases List.mem_cons.mp member with impossible | here
    · cases impossible
    · cases isIndents _ here
  have wide : ¬ Indents ('\r' :: indents) := fun all => by cases all '\r' (List.mem_cons_self ..)
  have parts := length_commentsIn_append front (('\r' :: indents) ++ '#' :: body)
  rw [commentsIn_eq_nil (hash_not_mem blank), commentsIn_behind blank' noFeed wide inside] at parts
  rw [List.append_assoc]
  exact List.eq_nil_of_length_eq_zero (Nat.le_zero.mp parts)

/-- In a text that hides a comment, the first comment is hidden or one behind it is. -/
theorem HidesComment.first_or_later {lead body rest : List Char}
    (blank : ∀ c ∈ lead, isBlank c = true) (inside : OneLine body)
    (h : HidesComment (lead ++ '#' :: (body ++ rest))) :
    commentsIn (lead ++ '#' :: body) = [] ∨ HidesComment rest := by
  have apart : ∀ {u : List Char}, '#' ∉ u → ∀ c ∈ u, (c != '#') = true := fun nothing c member =>
    bne_iff_ne.mpr fun same => nothing (same ▸ member)
  have leadApart := apart (hash_not_mem blank)
  rcases h with ⟨front, indents, back, split, isIndents⟩ | ⟨blanks, back, split, inline, wide⟩
  · by_cases earlier : '#' ∈ front
    · obtain ⟨a, b, rfl, noHash⟩ := List.eq_append_cons_of_mem earlier
      rw [List.append_assoc, List.cons_append] at split
      obtain ⟨_, behind⟩ := same_front leadApart (apart noHash) rfl rfl split
      -- the carriage return is not in the first comment, which is on one line
      obtain ⟨c, _, later⟩ | ⟨c, within, later⟩ :=
        List.append_eq_append_iff.mp (List.cons.inj behind).2
      · exact Or.inr (Or.inl ⟨c, indents, back, later, isIndents⟩)
      · cases c with
        | nil => exact Or.inr (Or.inl ⟨[], indents, back, later.symm, isIndents⟩)
        | cons d c =>
          obtain rfl : '\r' = d := (List.cons.inj later).1
          cases inside '\r' (by simp [within])
    · have noHash : '#' ∉ front ++ '\r' :: indents := by
        intro member
        rcases List.mem_append.mp member with here | there
        · exact earlier here
        · rcases List.mem_cons.mp there with impossible | indent
          · cases impossible
          · cases isIndents _ indent
      obtain ⟨rfl, _⟩ := same_front (x := body ++ rest) (y := back) leadApart (apart noHash) rfl rfl
        (by simpa using split)
      exact Or.inl (commentsIn_behind_return
        (fun c member => blank c (List.mem_append_left _ member)) isIndents inside)
  · have noHash : '#' ∉ blanks := hash_not_mem fun c member => (inline c member).1
    obtain ⟨rfl, _⟩ := same_front leadApart (apart noHash) rfl rfl split
    exact Or.inl (commentsIn_behind blank (fun member => by cases (inline _ member).2) wide inside)

/-- A space has no more comments than the grammar has read there, and fewer if it hides one. -/
theorem length_commentsIn {blanks : List Char} (h : CommentLines s cs)
    (inline : InlineBlanks blanks) :
    (commentsIn (blanks ++ s)).length ≤ cs.length ∧
      (HidesComment (blanks ++ s) → (commentsIn (blanks ++ s)).length < cs.length) := by
  induction h generalizing blanks with
  | @none s blank =>
    have nothing : '#' ∉ blanks ++ s := hash_not_mem (isBlank_of_lead inline blank)
    refine ⟨by simp [commentsIn_eq_nil nothing], fun hides => absurd ?_ nothing⟩
    rcases hides with ⟨front, indents, back, split, _⟩ | ⟨lead, back, split, _⟩
    all_goals simp [split]
  | @comment front body rest cs blank inside ended more ih =>
    have lead := isBlank_of_lead inline blank
    have parts := length_commentsIn_append (blanks ++ front ++ '#' :: body) rest
    have first := length_commentsIn_comment lead inside
    obtain ⟨atMost, fewer⟩ := ih inlineBlanks_nil
    rw [List.nil_append] at atMost fewer
    have whole : blanks ++ (front ++ '#' :: body ++ rest) = blanks ++ front ++ '#' :: body ++ rest :=
      by simp
    rw [whole, List.length_cons]
    refine ⟨by omega, fun hides => ?_⟩
    rw [List.append_assoc, List.cons_append] at hides
    rcases hides.first_or_later lead inside with nothing | later
    · rw [nothing, List.length_nil] at parts
      omega
    · have strictly := fewer later
      omega

/-! ### Spaces between lines of content -/

/-- Gaps, and the comment lines that the grammar has read in each of them. -/
theorem flatMap_commentsIn_eq_iff {gaps : List (List Char)} {css : List (List (List Char))}
    (h : List.Forall₂ CommentGap gaps css) :
    gaps.flatMap commentsIn = css.flatten.map trimEnd ↔ ∀ gap ∈ gaps, ¬ HidesComment gap := by
  have atMost : ∀ {gaps : List (List Char)} {css : List (List (List Char))},
      List.Forall₂ CommentGap gaps css → (gaps.flatMap commentsIn).length ≤ css.flatten.length := by
    intro gaps css h
    induction h with
    | nil => exact Nat.le_refl _
    | cons gap _ ih =>
      obtain ⟨blanks, rest, rfl, inline, lines⟩ := gap
      have here := (length_commentsIn lines inline).1
      simp only [List.flatMap_cons, List.flatten_cons, List.length_append] at ih ⊢
      omega
  induction h with
  | nil => simp
  | @cons gap cs gaps css first more ih =>
    obtain ⟨blanks, rest, rfl, inline, lines⟩ := first
    rw [List.flatMap_cons, List.flatten_cons, List.map_append, List.forall_mem_cons]
    by_cases hides : HidesComment (blanks ++ rest)
    · refine iff_of_false (fun same => ?_) fun both => both.1 hides
      have lengths := congrArg List.length same
      have here := (length_commentsIn lines inline).2 hides
      have later := atMost more
      simp only [List.length_append, List.length_map] at lengths
      omega
    · rw [commentsIn_eq_of_shown lines inline hides, List.append_right_inj]
      exact ih.trans ⟨fun others => ⟨hides, others⟩, And.right⟩

end Verbatim.Space
