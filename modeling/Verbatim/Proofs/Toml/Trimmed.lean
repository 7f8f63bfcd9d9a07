import Verbatim.Proofs.Toml.Layout
import Verbatim.Proofs.Toml.Values

/-!
# Trees without blanks at their borders

Every node below the document has some text, lies inside its parent behind the siblings in front of
it, and neither starts nor ends with a blank (`parse_wellFormed`). Where a node lies is read off the
text that its production has matched. The first character is told by the shape of the production
(`startsVisible_production`), except for numbers: those start with a sign that need not be there,
and for them it is enough that no part of a number is a blank.
-/

namespace Verbatim.Toml

open Peg Grammar Text

variable {depth : Nat} {mode : Mode} {pos : Nat} {s : List Char} {m : Match Rule}
  {t n parent : Peg.Tree Rule}

/-! ### First characters -/

theorem startsVisible_key : key.StartsIn Visible := by
  apply key_startsIn.mono
  rintro c (bare | rfl | rfl)
  · exact visible_of_keyChar bare
  · decide
  · decide

theorem startsVisible_string : string.StartsIn Visible := by
  apply string_startsIn.mono
  rintro c (rfl | rfl) <;> decide

theorem startsVisible_dateTime : dateTime.StartsIn Visible :=
  dateTime_startsIn.mono fun _ => visible_of_scalarChar

theorem startsVisible_table : table.StartsIn Visible :=
  ⟨⟨'[', rfl, by decide⟩, ⟨'[', rfl, by decide⟩⟩

/-- Wherever the first part of a production tells, its matches start with a character that is no
blank. A choice starts as its parts do. -/
theorem startsVisible_production {r : Rule}
    (h : r ∉ [.endOfInput, .document, .value, .integer, .decInt, .floatingPoint]) :
    (production r).StartsIn Visible := by
  obtain ⟨dotted, quoted, unquoted⟩ := startsVisible_key
  obtain ⟨mlBasic, basic, mlLiteral, literal⟩ := startsVisible_string
  obtain ⟨offsetDateTime, localDateTime, localDate, localTime⟩ := startsVisible_dateTime
  have content : (Expr.alt keyValue table).StartsIn Visible :=
    ⟨startsVisible_key, startsVisible_table⟩
  cases r with
  | endOfInput | document | value | integer | decInt | floatingPoint => exact absurd (by decide) h
  | expression => exact ⟨content, content⟩
  | comment => exact ⟨'#', rfl, by decide⟩
  | keyValue => exact startsVisible_key
  | equals => exact ⟨'=', rfl, by decide⟩
  | key => exact startsVisible_key
  | dottedKey => exact dotted
  | simpleKey => exact ⟨quoted, unquoted⟩
  | quotedKey => exact quoted
  | unquotedKey => exact unquoted
  | string => exact startsVisible_string
  | basicString => exact basic
  | mlBasicString => exact mlBasic
  | literalString => exact literal
  | mlLiteralString => exact mlLiteral
  | hexInt | octInt | binInt => exact ⟨'0', rfl, by decide⟩
  | boolean => exact ⟨⟨'t', rfl, by decide⟩, ⟨'f', rfl, by decide⟩⟩
  | dateTime => exact startsVisible_dateTime
  | offsetDateTime => exact offsetDateTime
  | localDateTime => exact localDateTime
  | localDate => exact localDate
  | localTime => exact localTime
  | array => exact ⟨'[', rfl, by decide⟩
  | inlineTable => exact ⟨'\x7b', rfl, by decide⟩
  | table => exact startsVisible_table
  | standardTable | arrayTable => exact ⟨'[', rfl, by decide⟩

/-- What is made of the characters of numbers starts with one of them. -/
theorem scalar_startsVisible {e : Production} (avoids : e.Avoids (scalarChar · = false) mode)
    (consumes : e.consumes = true) (h : matcher depth e mode pos s = some m) :
    StartsIn Visible m.text := by
  have some_text := Expr.text_ne_nil_of_consumes (productive depth).progress consumes h
  obtain ⟨c, rest, text⟩ := List.exists_cons_of_ne_nil some_text
  have scalar := Expr.text_of_avoids (productive depth) avoids h c (by simp [text])
  refine ⟨c, by simp [text], visible_of_scalarChar ?_⟩
  simpa using scalar

/-- Every node inside a document starts with a character that is no blank. -/
theorem Made.startsVisible (made : Made n) : StartsIn Visible n.text := by
  obtain ⟨depth, mode, rest, parsed⟩ := made.whole
  have foreign : ∀ c, scalarChar c = false → scalarChar c = false := fun _ => id
  by_cases known : n.rule ∈ [.endOfInput, .document, .value, .integer, .decInt, .floatingPoint]
  · simp only [List.mem_cons, List.not_mem_nil, or_false] at known
    rcases known with landmark | whole | value | integer | decimal | float
    · have shape : production n.rule = .rule n.rule .landmark (.absent .any) := by
        rw [landmark]
        rfl
      obtain ⟨_, _, _, makes, _⟩ := made.body shape
      cases makes
    · obtain ⟨_, _, _, _, _, named, _, _⟩ := made
      rw [whole] at named
      cases named
    · rw [value] at parsed
      have nested : matcher (depth + 1) .nested mode n.start (n.text ++ rest) = _ := parsed
      obtain ⟨c, first, opens⟩ := nested_startsIn nested
      exact ⟨c, first, visible_of_not_closesValue opens⟩
    · rw [integer] at parsed
      exact scalar_startsVisible (avoids_integer foreign) rfl parsed
    · rw [decimal] at parsed
      have avoids : decInt.Avoids (scalarChar · = false) mode :=
        avoids_then (avoids_sign foreign .token) (avoids_unsignedDec foreign)
      exact scalar_startsVisible avoids rfl parsed
    · rw [float] at parsed
      exact scalar_startsVisible (avoids_floatingPoint foreign) rfl parsed
  · exact Expr.text_startsIn (startsVisible_production known) parsed

/-! ### The tree of a text -/

/-- A node below the document lies inside its parent, covers some characters of the text, and has no
blank at either end. -/
structure Trimmed (s : List Char) (parent n : Peg.Tree Rule) : Prop where
  borders : IsBoundary s n.start ∧ IsBoundary s n.stop
  covers : slice? s n.start n.stop = some n.text
  filled : n.start < n.stop
  inside : parent.start ≤ n.start ∧ n.stop ≤ parent.stop
  /-- The offset that is given for the last character is the one at which it stands. -/
  last : ∃ front c, n.text = front ++ [c] ∧ n.last? = some (n.start + byteLength front)
  first : StartsIn Visible n.text
  ends : EndsIn Visible n.text

/-- The tree of a text: the document takes up the text, and the nodes below it are trimmed and in
order. -/
structure WellFormed (s : List Char) (t : Peg.Tree Rule) : Prop where
  rule : t.rule = .document
  span : Build.spanOf t = ⟨0, byteLength s⟩
  siblings : ∀ parent : Peg.Tree Rule, parent.Within t →
    parent.children.Pairwise fun a b => a.stop ≤ b.start
  nodes : ∀ parent : Peg.Tree Rule, parent.Within t → ∀ n ∈ parent.children, Trimmed s parent n

theorem Lines.spread {lead : List Char → Prop} {ts : List (Peg.Tree Rule)}
    (h : Lines depth lead pos s ts) : Spread pos s ts := by
  induction h with
  | last => exact .nil _ _
  | line _ _ start _ _ ih => exact .cons _ start ih

namespace IsDocument

/-- All nodes in a document are spread over the text of the node they stand in. -/
theorem spread (h : IsDocument s t) (inside : parent.Within t) :
    Spread parent.start parent.text parent.children := by
  cases inside with
  | self =>
    rw [h.start, h.text]
    exact h.lines.spread
  | child member deeper => exact (h.sound _ member _ deeper).spread

theorem standsIn (h : IsDocument s t) : t.StandsIn s :=
  ⟨[], [], by simp [h.text], h.start⟩

/-- Below the document, every node is made by its rule. -/
theorem made_child (h : IsDocument s t) (inside : parent.Within t) (member : n ∈ parent.children) :
    Made n := by
  cases inside with
  | self => exact (h.sound n member).made
  | child below deeper => exact h.sound _ below n (deeper.of_parent member)

theorem trimmed (h : IsDocument s t) (inside : parent.Within t) (member : n ∈ parent.children) :
    Trimmed s parent n := by
  have made := h.made_child inside member
  have stands := h.standsIn.within (inside.of_parent member) fun _ within => h.spread within
  obtain ⟨before, behind, split, start⟩ := (h.spread inside).exists_split member
  obtain ⟨c, ends, visible⟩ := made.endsVisible
  obtain ⟨front, text⟩ := List.getLast?_eq_some_iff.mp ends
  have stop : n.stop = n.start + byteLength front + c.utf8Size := by
    rw [Tree.stop, text]
    simp only [byteLength_append, byteLength_cons, byteLength_nil]
    omega
  have size : 0 < c.utf8Size := Char.utf8Size_pos c
  constructor
  case borders => exact stands.borders
  case covers => exact stands.slice
  case filled => omega
  case inside =>
    have parent_stop : parent.stop = n.stop + byteLength behind := by
      rw [Tree.stop, split, Tree.stop, start]
      simp only [byteLength_append]
      omega
    omega
  case last =>
    refine ⟨front, c, text, ?_⟩
    rw [Tree.last?, ends, Option.map_some, stop, Nat.add_sub_cancel]
  case first => exact made.startsVisible
  case ends => exact ⟨c, ends, visible⟩

end IsDocument

/-- The tree of an accepted text is well formed: the document spans the text, and every other node
is a filled slice inside its parent, behind its earlier siblings, without a blank at either end. -/
theorem parse_wellFormed (h : parse s = .ok t) : WellFormed s t := by
  have whole := parse_isDocument h
  constructor
  case rule => exact whole.rule
  case span => rw [Build.spanOf, Tree.stop, whole.start, whole.text, Nat.zero_add]
  case siblings =>
    intro parent inside
    exact (whole.spread inside).ordered
  case nodes =>
    intro parent inside n member
    exact whole.trimmed inside member

theorem parse_wellFormed_nested :
    ∃ t, parse "a .b = [ \x7bc = -1 \x7d, ] # x ".toList = .ok t ∧
      WellFormed "a .b = [ \x7bc = -1 \x7d, ] # x ".toList t := by
  have accepted : (document? "a .b = [ \x7bc = -1 \x7d, ] # x ".toList).isSome = true := by
    decide +kernel
  obtain ⟨t, found⟩ := Option.isSome_iff_exists.mp accepted
  have parsed := parse_eq_ok.mpr found
  exact ⟨t, parsed, parse_wellFormed parsed⟩

end Verbatim.Toml
