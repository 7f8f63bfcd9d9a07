import Verbatim.Proofs.Document.Legible
import Verbatim.Proofs.Toml.Contents
import Verbatim.Proofs.Toml.Forms

/-!
# What a form says about a value

The form in which a value is written decides its kind, the style of a string and the kind of a
date-time (`Describes`). A text is spelled as a value exactly if one of the forms matches it as a
whole, and the form says what the value is (`exists_form_of_spelled`, `exists_spelled_of_form`).
-/

namespace Verbatim

open Peg Text Toml Build

/-- The kind of the values that a hint is given for. -/
def Hint.kind : Hint → LiteralKind
  | .string .. => .string
  | .integer _ => .integer
  | .float _ => .float
  | .boolean _ => .boolean
  | .dateTime .. => .dateTime

variable {t w x : List Char} {ts : List Node} {n v : Node} {f : Rule} {group : FormGroup}
  {depth pos : Nat} {mode : Mode} {style : StringStyle} {kind : LiteralKind} {hint : Option Hint}

/-! ### Delimiters -/

/-- A string stands between two delimiters of its style. -/
theorem delimited_of_form (styled : stringStyle? f = some style)
    (h : (Grammar.matcher depth (Grammar.production f)).Takes mode pos w x ts) :
    ∃ body, w = style.delimiter ++ (body ++ style.delimiter) :=
  (writes_of_form styled h).imp fun _ writes => writes.delimited

/-- What stands between the delimiters is the content of the hint. -/
theorem ofString?_delimited (style : StringStyle) (body : List Char) :
    Hint.ofString? style (style.delimiter ++ (body ++ style.delimiter)) =
      some (.string style (String.ofList body)) := by
  have long : byteLength style.delimiter ≤
      byteLength (style.delimiter ++ (body ++ style.delimiter)) := by
    simp only [byteLength_append]
    omega
  have stop : byteLength (style.delimiter ++ (body ++ style.delimiter)) -
      byteLength style.delimiter = byteLength style.delimiter + byteLength body := by
    simp only [byteLength_append]
    omega
  have inside := slice?_append style.delimiter body style.delimiter
  rw [List.append_assoc] at inside
  rw [Hint.ofString?, if_pos long, stop, inside, Option.map_some]

/-! ### Forms and literals -/

/-- The kind of the values that are written in a form. -/
def literalKind : Rule → LiteralKind
  | .mlBasicString | .basicString | .mlLiteralString | .literalString => .string
  | .offsetDateTime | .localDateTime | .localDate | .localTime => .dateTime
  | .floatingPoint => .float
  | .hexInt | .octInt | .binInt | .decInt => .integer
  | .boolean => .boolean
  | .array => .array
  | _ => .inlineTable

/-- The forms of strings, each with the style of its strings. -/
def stringForms : List (Rule × StringStyle) :=
  [(.mlBasicString, .multiLineBasic), (.basicString, .basic),
    (.mlLiteralString, .multiLineLiteral), (.literalString, .literal)]

/-- The forms of date-times, each with the kind of its date-times. -/
def dateTimeForms : List (Rule × DateTimeKind) :=
  [(.offsetDateTime, .offsetDateTime), (.localDateTime, .localDateTime),
    (.localDate, .localDate), (.localTime, .localTime)]

/-- What the form of a text says about its kind and what it denotes: the kind, the style of a string
with what stands between its delimiters, and the kind of a date-time. -/
structure Describes (f : Rule) (t : List Char) (kind : LiteralKind) (hint : Option Hint) :
    Prop where
  kind : kind = literalKind f
  string : ∀ style, (f, style) ∈ stringForms → ∃ content,
    hint = some (.string style (String.ofList content)) ∧
      t = style.delimiter ++ (content ++ style.delimiter)
  dateTime : ∀ k, (f, k) ∈ dateTimeForms → hint = some (.dateTime k (String.ofList t))

/-- The builder gives the strings of each form their style, and no other form has one. -/
theorem stringStyle?_eq_some : stringStyle? f = some style ↔ (f, style) ∈ stringForms := by
  cases f <;> simp [stringStyle?, stringForms, eq_comm]

/-- The builder gives the date-times of each form their kind, and no other form has one. -/
theorem dateTimeKind?_eq_some {k : DateTimeKind} :
    dateTimeKind? f = some k ↔ (f, k) ∈ dateTimeForms := by
  cases f <;> simp [dateTimeKind?, dateTimeForms, eq_comm]

/-- What a text denotes that is written in a form. -/
def formHint? (f : Rule) (t : List Char) : Option Hint :=
  match literalKind f with
  | .string => (stringStyle? f).bind (Hint.ofString? · t)
  | .integer => Hint.ofInteger? t
  | .float => Hint.ofFloat? t
  | .boolean => Hint.ofBoolean? t
  | .dateTime => (dateTimeKind? f).map (Hint.dateTime · (String.ofList t))
  | .array | .inlineTable => none

theorem literalKind_of_style (styled : stringStyle? f = some style) : literalKind f = .string := by
  cases f <;> first | rfl | cases styled

theorem literalKind_of_dateTime {k : DateTimeKind} (dated : dateTimeKind? f = some k) :
    literalKind f = .dateTime := by
  cases f <;> first | rfl | cases dated

/-- The node of a form has the kind and the hint of the form. -/
theorem classOf_form (member : group ∈ valueGroups) (form : f ∈ group.forms) (rule : n.rule = f) :
    classOf (group.node n) = (literalKind f, formHint? f n.text) := by
  obtain ⟨r, start, text, children⟩ := n
  obtain rfl : r = f := rule
  simp only [valueGroups, List.mem_cons, List.not_mem_nil, or_false] at member
  rcases member with rfl | rfl | rfl | rfl | rfl | rfl | rfl
  all_goals simp only [List.mem_cons, List.not_mem_nil, or_false] at form
  case inl | inr.inl | inr.inr.inr.inl => rcases form with rfl | rfl | rfl | rfl <;> rfl
  all_goals
    subst form
    rfl

/-- What is written in a form is what the form says. -/
theorem describes_form (h : (Grammar.matcher depth (Grammar.production f)).Takes mode pos t x ts) :
    Describes f t (literalKind f) (formHint? f t) := by
  refine ⟨rfl, fun style member => ?_, fun k member => ?_⟩
  · have styled := stringStyle?_eq_some.mpr member
    obtain ⟨body, rfl⟩ := delimited_of_form styled h
    refine ⟨body, ?_, rfl⟩
    simp only [formHint?, literalKind_of_style styled, styled, Option.bind_some,
      ofString?_delimited]
  · have dated := dateTimeKind?_eq_some.mpr member
    simp only [formHint?, literalKind_of_dateTime dated, dated, Option.map_some]

/-- The hint of a form is one for values of its kind. -/
theorem kind_of_formHint? {given : Hint} (h : formHint? f t = some given) :
    given.kind = literalKind f := by
  unfold formHint? at h
  cases kind : literalKind f <;> rw [kind] at h
  case string =>
    obtain ⟨style, _, found⟩ := Option.bind_eq_some_iff.mp h
    rw [Hint.ofString?, Option.ite_none_right_eq_some] at found
    obtain ⟨_, _, rfl⟩ := Option.map_eq_some_iff.mp found.2
    rfl
  case integer | float | dateTime =>
    obtain ⟨_, _, rfl⟩ := Option.map_eq_some_iff.mp h
    rfl
  case boolean =>
    unfold Hint.ofBoolean? at h
    split_ifs at h <;> cases h <;> rfl
  case array | inlineTable => cases h

/-- A form matches all of a text on its own. -/
def MatchesAll (f : Rule) (t : List Char) : Prop :=
  (grammar.parse (Grammar.production f) .spaced 0 t).map (·.rest) = some []

theorem matchesAll_iff : MatchesAll f t ↔
    ∃ ts, (Grammar.matcher t.length (Grammar.production f)).Takes .spaced 0 t [] ts := by
  rw [MatchesAll, Option.map_eq_some_iff]
  constructor
  · rintro ⟨⟨w, ts, rest⟩, found, rfl⟩
    obtain rfl : w = t := by simpa using (matcher_covers found).split
    exact ⟨ts, by rw [Matcher.Takes, List.append_nil]; exact found⟩
  · rintro ⟨ts, taken⟩
    rw [Matcher.Takes, List.append_nil] at taken
    exact ⟨_, taken, rfl⟩

/-- A spelled value is taken as a value where values are nested in it at most as often as its text
is long. -/
theorem spells_nested_iff :
    Spells .nested t v ↔ (Grammar.matcher t.length Grammar.value).Takes .spaced 0 t [] [v] := by
  rw [Spells, parse_eq_matcher .nested (Nat.le_succ _), Matcher.Takes, List.append_nil]
  rfl

/-- A spelled value has one of the forms, with its kind and its hint. -/
theorem exists_formHint_of_spelled (h : Spells .nested t v) (means : meaning? v = some (kind, hint)) :
    ∃ f ∈ valueForms, MatchesAll f t ∧ (kind, hint) = (literalKind f, formHint? f t) := by
  obtain ⟨group, member, f, form, n, taken, same⟩ := exists_form (spells_nested_iff.mp h)
  obtain rfl : v = .node .value 0 t [group.node n] := by simpa using same
  obtain ⟨n', one, rule, _, text⟩ := form_node member form taken
  obtain rfl : n = n' := by simpa using one
  have told : (kind, hint) = (literalKind f, formHint? f n.text) :=
    (Option.some.inj means).symm.trans (classOf_form member form rule)
  rw [text] at told
  exact ⟨f, List.mem_flatMap.mpr ⟨group, member, form⟩, matchesAll_iff.mpr ⟨_, taken⟩, told⟩

/-- A spelled value has one of the forms and is what the form says. -/
theorem exists_form_of_spelled (h : Spells .nested t v) (means : meaning? v = some (kind, hint)) :
    ∃ f ∈ valueForms, MatchesAll f t ∧ Describes f t kind hint := by
  obtain ⟨f, form, whole, told⟩ := exists_formHint_of_spelled h means
  obtain ⟨rfl, rfl⟩ := Prod.mk.inj told
  obtain ⟨_, taken⟩ := matchesAll_iff.mp whole
  exact ⟨f, form, whole, describes_form taken⟩

/-- What one of the forms matches as a whole is a value, with the kind and the hint of the form. -/
theorem exists_spelled_formHint (form : f ∈ valueForms) (h : MatchesAll f t) :
    ∃ v, Spells .nested t v ∧ meaning? v = some (literalKind f, formHint? f t) := by
  obtain ⟨group, member, inGroup⟩ := List.mem_flatMap.mp form
  obtain ⟨ts, taken⟩ := matchesAll_iff.mp h
  obtain ⟨n, rfl, rule, _, rfl⟩ := form_node member inGroup taken
  exact ⟨_, spells_nested_iff.mpr (value_takes_of_form member inGroup taken),
    congrArg some (classOf_form member inGroup rule)⟩

/-- What one of the forms matches as a whole is a value, of which the form says what it is. -/
theorem exists_spelled_of_form (form : f ∈ valueForms) (h : MatchesAll f t) :
    ∃ v kind hint,
      Spells .nested t v ∧ meaning? v = some (kind, hint) ∧ Describes f t kind hint := by
  obtain ⟨v, spelled, means⟩ := exists_spelled_formHint form h
  obtain ⟨_, taken⟩ := matchesAll_iff.mp h
  exact ⟨v, _, _, spelled, means, describes_form taken⟩

/-- No form matches a front part of a text that a later form matches as a whole. -/
theorem parse_eq_none_of_later {f g : Rule} (earlier : [f, g].Sublist valueForms)
    (h : MatchesAll g t) : grammar.parse (Grammar.production f) .spaced 0 t = none := by
  obtain ⟨ts, taken⟩ := matchesAll_iff.mp h
  exact earlier_eq_none earlier taken

/-- A text has at most one form. -/
theorem form_unique {f g : Rule} (form : f ∈ valueForms) (form' : g ∈ valueForms)
    (h : MatchesAll f t) (h' : MatchesAll g t) : f = g := by
  have ordered : ∀ f ∈ valueForms, ∀ g ∈ valueForms,
      f = g ∨ [f, g].Sublist valueForms ∨ [g, f].Sublist valueForms := by decide +kernel
  rcases ordered f form g form' with same | earlier | later
  · exact same
  · rw [MatchesAll, parse_eq_none_of_later earlier h'] at h
    cases h
  · rw [MatchesAll, parse_eq_none_of_later later h] at h'
    cases h'

/-- A legible literal is written in one of the forms, with its kind and its hint. -/
theorem Literal.Legible.exists_formHint {l : Literal} (h : l.Legible) :
    ∃ f ∈ valueForms, MatchesAll f l.source.toList ∧
      l.kind = literalKind f ∧ l.hint = formHint? f l.source.toList := by
  obtain ⟨v, spelled, means⟩ := h.spelled
  obtain ⟨f, form, whole, told⟩ := exists_formHint_of_spelled spelled means
  exact ⟨f, form, whole, Prod.mk.inj told⟩

/-- A legible literal is written in one of the forms, and is what the form says. -/
theorem Literal.Legible.exists_form {l : Literal} (h : l.Legible) :
    ∃ f ∈ valueForms, MatchesAll f l.source.toList ∧
      Describes f l.source.toList l.kind l.hint := by
  obtain ⟨v, spelled, means⟩ := h.spelled
  exact exists_form_of_spelled spelled means

/-- The hint of a legible literal is one for values of its kind. -/
theorem Literal.Legible.kind_of_hint {l : Literal} (h : l.Legible) {given : Hint}
    (found : l.hint = some given) : given.kind = l.kind := by
  obtain ⟨f, _, _, kind, hint⟩ := h.exists_formHint
  rw [kind, kind_of_formHint? (hint.symm.trans found)]

/-- The forms of strings are those with a style. -/
theorem exists_style (same : literalKind f = .string) : ∃ style, stringStyle? f = some style := by
  cases f <;> first | exact ⟨_, rfl⟩ | cases same

/-- The content of a hint is what the form of the string has between its delimiters. -/
theorem Describes.writes (h : Describes f t kind hint) (whole : MatchesAll f t)
    (styled : stringStyle? f = some style) :
    ∃ content, hint = some (.string style (String.ofList content)) ∧ style.Writes t content := by
  obtain ⟨content, told, delimited⟩ := h.string style (stringStyle?_eq_some.mp styled)
  obtain ⟨ts, taken⟩ := matchesAll_iff.mp whole
  obtain ⟨content', writes⟩ := writes_of_form styled taken
  obtain rfl : content = content' := by
    have same := delimited.symm.trans writes.delimited
    exact List.append_cancel_right (List.append_cancel_left same)
  exact ⟨content, told, writes⟩

end Verbatim
