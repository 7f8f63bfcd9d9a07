import Verbatim.Proofs.Toml.Floats

/-!
# Hints agree with kinds

The form in which a value is written says its kind and its hint (`exists_formHint_of_spelled`). A
form of strings, floating-point numbers, truth values or date-times has a hint for all that it
matches as a whole (`kind_of_formHint?_eq_none`). So the hint of a legible literal is there if it
should be, is one for values of its kind and agrees with the source (`Literal.Legible.hintAgrees`).
-/

namespace Verbatim

open Peg Text Toml Build

variable {t : List Char} {f : Rule} {l : Literal} {b : Bool}

/-! ### Hints of forms -/

/-- The forms of date-times are those of which a date-time has a kind. -/
theorem exists_dateTimeKind (same : literalKind f = .dateTime) : ∃ k, dateTimeKind? f = some k := by
  cases f <;> first | exact ⟨_, rfl⟩ | cases same

theorem eq_floatingPoint (same : literalKind f = .float) : f = .floatingPoint := by
  cases f <;> first | rfl | cases same

theorem eq_boolean (same : literalKind f = .boolean) : f = .boolean := by
  cases f <;> first | rfl | cases same

/-- The two truth values. -/
theorem boolean_words (h : MatchesAll .boolean t) : t = "true".toList ∨ t = "false".toList := by
  obtain ⟨_, taken⟩ := matchesAll_iff.mp h
  obtain ⟨_, inside, _⟩ := Expr.takes_rule.mp taken
  obtain yes | ⟨_, no⟩ := Expr.takes_alt.mp inside
  · exact Or.inl (Expr.takes_word.mp yes).1
  · exact Or.inr (Expr.takes_word.mp no).1

/-- What a form matches as a whole is without a hint only if it is a container or an integer. -/
theorem kind_of_formHint?_eq_none (whole : MatchesAll f t) (nothing : formHint? f t = none) :
    literalKind f = .array ∨ literalKind f = .inlineTable ∨ literalKind f = .integer := by
  obtain ⟨_, taken⟩ := matchesAll_iff.mp whole
  cases kind : literalKind f
  case array | inlineTable | integer => simp
  all_goals
    exfalso
    rw [formHint?, kind] at nothing
  case string =>
    obtain ⟨style, styled⟩ := exists_style kind
    obtain ⟨body, rfl⟩ := delimited_of_form styled taken
    rw [styled, Option.bind_some, ofString?_delimited] at nothing
    cases nothing
  case float =>
    obtain rfl := eq_floatingPoint kind
    obtain ⟨y, denotes⟩ := exists_floatText taken
    rw [denotes.ofFloat?_eq] at nothing
    cases nothing
  case boolean =>
    obtain rfl := eq_boolean kind
    rcases boolean_words whole with rfl | rfl <;> cases nothing
  case dateTime =>
    obtain ⟨k, dated⟩ := exists_dateTimeKind kind
    rw [dated] at nothing
    cases nothing

theorem eq_true_of_ofBoolean? (h : Hint.ofBoolean? t = some (.boolean b)) :
    b = true ↔ t = "true".toList := by
  unfold Hint.ofBoolean? at h
  split_ifs at h with yes no
  · cases h
    exact iff_of_true rfl yes
  · cases h
    exact iff_of_false Bool.false_ne_true yes

/-! ### Hints of literals -/

namespace Literal

/-- The hint of a literal is there if it should be, is one for values of its kind, and agrees with
the source. The values that can be taken from the literal are those of its kind. -/
structure HintAgrees (l : Literal) : Prop where
  missing : l.hint = none → l.kind = .array ∨ l.kind = .inlineTable ∨ l.kind = .integer
  present : ∀ given, l.hint = some given → given.kind = l.kind
  boolean : l.bool?.isSome = true ↔ l.kind = .boolean
  integer : l.integer?.isSome = true ↔ l.kind = .integer ∧ l.hint.isSome = true
  float : l.float?.isSome = true ↔ l.kind = .float
  string : l.content?.isSome = true ↔ l.kind = .string
  truth : ∀ b, l.hint = some (.boolean b) → (b = true ↔ l.source = "true")
  number : ∀ x, l.hint = some (.float x) → (x = .nan ↔ l.source.toList ∈ nanSpellings)
  dateTime : ∀ k text, l.hint = some (.dateTime k text) → text = l.source

theorem isSome_bool? : l.bool?.isSome = true ↔ l.hint.map Hint.kind = some .boolean := by
  unfold bool?
  generalize l.hint = hint
  rcases hint with _ | ⟨_ | _ | _ | _ | _⟩ <;> simp [Hint.kind]

theorem isSome_integer? : l.integer?.isSome = true ↔ l.hint.map Hint.kind = some .integer := by
  unfold integer?
  generalize l.hint = hint
  rcases hint with _ | ⟨_ | _ | _ | _ | _⟩ <;> simp [Hint.kind]

theorem isSome_float? : l.float?.isSome = true ↔ l.hint.map Hint.kind = some .float := by
  unfold float?
  generalize l.hint = hint
  rcases hint with _ | ⟨_ | _ | _ | _ | _⟩ <;> simp [Hint.kind]

theorem isSome_content? : l.content?.isSome = true ↔ l.hint.map Hint.kind = some .string := by
  unfold content?
  generalize l.hint = hint
  rcases hint with _ | ⟨_ | _ | _ | _ | _⟩ <;> simp [Hint.kind]

namespace Legible

theorem kind_of_hint_eq_none (h : l.Legible) (nothing : l.hint = none) :
    l.kind = .array ∨ l.kind = .inlineTable ∨ l.kind = .integer := by
  obtain ⟨f, _, whole, kind, hint⟩ := h.exists_formHint
  rw [kind]
  exact kind_of_formHint?_eq_none whole (hint.symm.trans nothing)

/-- A hint tells the kind of the literal, which has one unless it is a container or an integer. -/
theorem map_kind_iff (h : l.Legible) {kind : LiteralKind} :
    l.hint.map Hint.kind = some kind ↔ l.kind = kind ∧ l.hint.isSome = true := by
  cases found : l.hint with
  | none => simp
  | some given => simp [h.kind_of_hint found]

theorem isSome_hint (h : l.Legible)
    (scalar : l.kind ≠ .array ∧ l.kind ≠ .inlineTable ∧ l.kind ≠ .integer) :
    l.hint.isSome = true := by
  rw [Option.isSome_iff_ne_none]
  intro nothing
  have kinds := h.kind_of_hint_eq_none nothing
  tauto

theorem hint_boolean (h : l.Legible) (found : l.hint = some (.boolean b)) :
    b = true ↔ l.source = "true" := by
  obtain ⟨f, _, _, kind, hint⟩ := h.exists_formHint
  have same : literalKind f = .boolean := kind.symm.trans (h.kind_of_hint found).symm
  rw [formHint?, same, found] at hint
  rw [eq_true_of_ofBoolean? hint.symm, String.toList_inj]

theorem hint_float (h : l.Legible) {x : Binary64} (found : l.hint = some (.float x)) :
    x = .nan ↔ l.source.toList ∈ nanSpellings := by
  obtain ⟨f, _, whole, kind, hint⟩ := h.exists_formHint
  have same : literalKind f = .float := kind.symm.trans (h.kind_of_hint found).symm
  obtain rfl := eq_floatingPoint same
  obtain ⟨_, taken⟩ := matchesAll_iff.mp whole
  obtain ⟨y, denotes⟩ := exists_floatText taken
  have read : Hint.ofFloat? l.source.toList = some (.float x) := hint.symm.trans found
  rw [denotes.ofFloat?_eq] at read
  cases read
  exact denotes.eq_nan_iff

theorem hint_dateTime (h : l.Legible) {k : DateTimeKind} {text : String}
    (found : l.hint = some (.dateTime k text)) : text = l.source := by
  obtain ⟨f, _, _, kind, hint⟩ := h.exists_formHint
  have same : literalKind f = .dateTime := kind.symm.trans (h.kind_of_hint found).symm
  obtain ⟨k', dated⟩ := exists_dateTimeKind same
  rw [formHint?, same, found, dated] at hint
  cases hint
  exact String.ofList_toList

theorem hintAgrees (h : l.Legible) : l.HintAgrees where
  missing := h.kind_of_hint_eq_none
  present _ := h.kind_of_hint
  boolean := by
    rw [isSome_bool?, h.map_kind_iff]
    exact and_iff_left_of_imp fun kind => h.isSome_hint (by simp [kind])
  integer := by rw [isSome_integer?, h.map_kind_iff]
  float := by
    rw [isSome_float?, h.map_kind_iff]
    exact and_iff_left_of_imp fun kind => h.isSome_hint (by simp [kind])
  string := by
    rw [isSome_content?, h.map_kind_iff]
    exact and_iff_left_of_imp fun kind => h.isSome_hint (by simp [kind])
  truth _ := h.hint_boolean
  number _ := h.hint_float
  dateTime _ _ := h.hint_dateTime

end Legible

end Literal

end Verbatim
