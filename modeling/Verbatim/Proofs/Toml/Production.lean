import Verbatim.Proofs.Peg.Border
import Verbatim.Proofs.Peg.Node
import Verbatim.Toml.Grammar

/-!
# The productions of TOML

`Grammar.production` is the table of the productions in a document, and the grammar uses no others
(`follows_documentBody`, `follows_value`). The second part asks each production for its last
character: wherever the shape of a production tells, a match ends in a character that is no blank
(`endsIn_production`). The comment and the line of content need a look at the text instead.
-/

namespace Verbatim

/-- No blank. -/
abbrev Text.Visible (c : Char) : Prop := isBlank c = false

namespace Toml

open Peg Grammar

/-- The production of each rule inside a document. A document stands inside nothing, so that no node
is made under its name. -/
def Grammar.production : Rule → Production
  | .endOfInput => endOfInput
  | .document => .nested
  | .expression => expression
  | .comment => comment
  | .keyValue => keyValue
  | .equals => equals
  | .key => key
  | .dottedKey => dottedKey
  | .simpleKey => simpleKey
  | .quotedKey => quotedKey
  | .unquotedKey => unquotedKey
  | .value => value
  | .string => string
  | .basicString => basicString
  | .mlBasicString => mlBasicString
  | .literalString => literalString
  | .mlLiteralString => mlLiteralString
  | .integer => integer
  | .decInt => decInt
  | .hexInt => hexInt
  | .octInt => octInt
  | .binInt => binInt
  | .floatingPoint => floatingPoint
  | .boolean => boolean
  | .dateTime => dateTime
  | .offsetDateTime => offsetDateTime
  | .localDateTime => localDateTime
  | .localDate => localDate
  | .localTime => localTime
  | .array => array
  | .inlineTable => inlineTable
  | .table => table
  | .standardTable => standardTable
  | .arrayTable => arrayTable

/-- What a production matches where values are nested at most to a depth. -/
abbrev Grammar.matcher (depth : Nat) (e : Production) : Matcher Rule :=
  e.parseWith grammar.blank (grammar.nestedMatcher depth)

/-- What a document is made of. -/
abbrev Grammar.documentBody : Production :=
  .seq .startOfInput (.seq (.star trivia) (.seq (.opt (.seq expression (.seq lineTail
    (.star nextLine)))) (.seq (.star trivia) endOfInput)))

/-- Every rule in a document has its production from the table. -/
theorem follows_documentBody : documentBody.Follows production := by
  simp only [Expr.Follows]
  repeat' constructor

/-- Every rule in a value has its production from the table. -/
theorem follows_value : value.Follows production := by
  simp only [value, Expr.Follows, Expr.first]
  repeat' constructor

/-! ### Progress -/

theorem covers (depth : Nat) (mode : Mode) : (grammar.nestedMatcher depth).CoversIn mode :=
  grammar.nestedMatcher_covers depth mode

theorem productive (depth : Nat) : (grammar.nestedMatcher depth).Productive :=
  grammar.nestedMatcher_productive rfl depth

/-- A production that consumes something leaves less text than it was given. -/
theorem consumesIn {e : Production} (h : e.consumes = true) (depth : Nat) (mode : Mode) :
    (matcher depth e).ConsumesIn mode :=
  Expr.consumesIn_of_consumes (productive depth) h mode

/-- A repetition of a production that consumes something, where no blank stands in front. -/
theorem star_repeats {e : Production} (h : e.consumes = true) {depth : Nat} {mode : Mode}
    {pos : Nat} {s : List Char} {m : Match Rule} (front : skip grammar.blank mode s = ([], s))
    (parsed : matcher depth (.star e) mode pos s = some m) :
    Repeats grammar.blank (matcher depth e) mode pos s m := by
  rw [Expr.parseWith_star.mp parsed]
  exact starMatch_repeats (consumesIn h depth mode) front

/-- A match of a production covers its text. -/
theorem matcher_covers {e : Production} {depth : Nat} {mode : Mode} {pos : Nat} {s : List Char}
    {m : Match Rule} (h : matcher depth e mode pos s = some m) : m.Covers pos s :=
  Expr.parseWith_covers (covers depth) e mode pos s m h

/-! ### Characters that are no blanks -/

open Text (Visible)

theorem visible_of_graphic {c : Char} (low : 0x20 < c.toNat) (high : c.toNat < 0x7F) :
    Visible c := by
  simp only [Visible, Text.isBlank, Text.blankRanges, List.any_cons, List.any_nil,
    Bool.or_eq_false_iff, Bool.and_eq_false_iff, decide_eq_false_iff_not, and_true]
  omega

theorem visible_of_between {c : Char} (low high : Char) (above : low ≤ c) (below : c ≤ high)
    (lowest : 0x20 < low.toNat) (highest : high.toNat < 0x7F) : Visible c := by
  have least : low.toNat ≤ c.toNat := above
  have most : c.toNat ≤ high.toNat := below
  exact visible_of_graphic (by omega) (by omega)

theorem visible_of_isDigit {c : Char} (h : c.isDigit = true) : Visible c := by
  simp only [Char.isDigit, Bool.and_eq_true, decide_eq_true_eq] at h
  exact visible_of_between '0' '9' h.1 h.2 (by decide) (by decide)

theorem visible_of_isAlphanum {c : Char} (h : c.isAlphanum = true) : Visible c := by
  have kinds : ((c.isUpper || c.isLower) || c.isDigit) = true := h
  rw [Bool.or_eq_true, Bool.or_eq_true] at kinds
  rcases kinds with (upper | lower) | digit
  · have bounds : 'A' ≤ c ∧ c ≤ 'Z' := of_decide_eq_true upper
    exact visible_of_between 'A' 'Z' bounds.1 bounds.2 (by decide) (by decide)
  · have bounds := Bool.and_eq_true_iff.mp lower
    exact visible_of_between 'a' 'z' (of_decide_eq_true bounds.1) (of_decide_eq_true bounds.2)
      (by decide) (by decide)
  · exact visible_of_isDigit digit

/-- The characters of keys without quotes. -/
theorem visible_of_keyChar {c : Char} (h : (c.isAlphanum || c == '_' || c == '-') = true) :
    Visible c := by
  simp only [Bool.or_eq_true, beq_iff_eq] at h
  rcases h with (plain | rfl) | rfl
  · exact visible_of_isAlphanum plain
  · decide
  · decide

theorem visible_of_oneOf {s : List Char} (all : (s.all fun c => !Text.isBlank c) = true) (c : Char)
    (found : s.contains c = true) : Visible c := by
  have visible := List.all_eq_true.mp all c (List.contains_iff_mem.mp found)
  simpa using visible

/-! ### Last characters -/

theorem compound_inside_ne_spaced (mode : Mode) : RuleKind.compound.inside mode ≠ .spaced := by
  simp [RuleKind.inside]

theorem token_inside_ne_spaced (mode : Mode) : RuleKind.token.inside mode ≠ .spaced := by
  simp [RuleKind.inside]

section EndsIn

attribute [local simp] Expr.all Expr.EndsIn

variable {mode : Mode} {orEmpty : Bool}

theorem endsIn_digit : digit.EndsIn Visible mode orEmpty := fun _ h => visible_of_isDigit h

theorem endsIn_nonzeroDigit : nonzeroDigit.EndsIn Visible mode orEmpty := by
  intro c h
  rw [Bool.and_eq_true] at h
  exact visible_of_isDigit h.1

theorem endsIn_hexDigit : hexDigit.EndsIn Visible mode orEmpty := by
  intro c h
  simp only [Bool.or_eq_true, Bool.and_eq_true, decide_eq_true_eq] at h
  rcases h with (digit | lower) | upper
  · exact visible_of_isDigit digit
  · exact visible_of_between 'a' 'f' lower.1 lower.2 (by decide) (by decide)
  · exact visible_of_between 'A' 'F' upper.1 upper.2 (by decide) (by decide)

theorem endsIn_octDigit : octDigit.EndsIn Visible mode orEmpty := by
  intro c h
  simp only [Bool.and_eq_true, decide_eq_true_eq] at h
  exact visible_of_between '0' '7' h.1 h.2 (by decide) (by decide)

theorem endsIn_binDigit : binDigit.EndsIn Visible mode orEmpty :=
  visible_of_oneOf (by decide)

theorem endsIn_digitRun {one : Production} (h : ∀ orEmpty, one.EndsIn Visible .token orEmpty) :
    (digitRun one).EndsIn Visible .token orEmpty :=
  Or.inr ⟨by decide, h orEmpty, rfl, Or.inl (h false)⟩

theorem endsIn_unsignedDec : unsignedDec.EndsIn Visible .token orEmpty := by
  constructor
  · exact Or.inl ⟨'0', by decide, by decide⟩
  · exact Or.inr ⟨by decide, endsIn_nonzeroDigit, rfl, Or.inl endsIn_digit⟩

theorem endsIn_twoDigits : (Expr.times 2 digit).EndsIn Visible .token orEmpty :=
  Or.inl endsIn_digit

theorem endsIn_fullDate : fullDate.EndsIn Visible .token orEmpty := by
  simp [fullDate, endsIn_twoDigits]

theorem endsIn_partialTime : partialTime.EndsIn Visible .token orEmpty := by
  simp [partialTime, Expr.plus, endsIn_twoDigits, endsIn_digit]

theorem endsIn_timeOffset : timeOffset.EndsIn Visible .token orEmpty := by
  constructor
  · exact visible_of_oneOf (by decide)
  · simp [Expr.first, endsIn_twoDigits]

theorem endsIn_exponent : exponent.EndsIn Visible .token orEmpty := by
  simp [exponent, endsIn_digitRun fun _ => endsIn_digit]

theorem endsIn_fraction : fraction.EndsIn Visible .token orEmpty := by
  simp [fraction, endsIn_digitRun fun _ => endsIn_digit]

theorem endsIn_unquotedKey : unquotedKey.EndsIn Visible mode orEmpty :=
  have member : ∀ c : Char, (c.isAlphanum || c == '_' || c == '-') = true → Visible c :=
    fun _ => visible_of_keyChar
  Or.inr ⟨token_inside_ne_spaced mode, member, rfl, member⟩

theorem endsIn_basicString : basicString.EndsIn Visible mode orEmpty :=
  Or.inl (Or.inl (Or.inl ⟨'"', by decide, by decide⟩))

theorem endsIn_literalString : literalString.EndsIn Visible mode orEmpty :=
  Or.inl (Or.inl (Or.inl ⟨'\'', by decide, by decide⟩))

/-- A closing delimiter with the quotes that may stand directly before it. -/
theorem endsIn_delimiter {three one : Production} (closing : three.EndsIn Visible .token false)
    (quote : one.EndsIn Visible .token true) :
    (Expr.all [three, .opt one, .opt one]).EndsIn Visible .token false :=
  have tight : Mode.token ≠ .spaced := by decide
  Or.inr ⟨tight, closing, Or.inr ⟨tight, ⟨rfl, quote⟩, ⟨rfl, quote⟩⟩⟩

theorem endsIn_mlBasicString : mlBasicString.EndsIn Visible mode orEmpty := by
  have closing : (lit "\"\"\"").EndsIn Visible .token false := Or.inl ⟨'"', by decide, by decide⟩
  have quote : (lit "\"").EndsIn Visible .token true := Or.inl ⟨'"', by decide, by decide⟩
  exact Or.inl (Or.inl (endsIn_delimiter closing quote))

theorem endsIn_mlLiteralString : mlLiteralString.EndsIn Visible mode orEmpty := by
  have closing : (lit "'''").EndsIn Visible .token false := Or.inl ⟨'\'', by decide, by decide⟩
  have quote : (lit "'").EndsIn Visible .token true := Or.inl ⟨'\'', by decide, by decide⟩
  exact Or.inl (Or.inl (endsIn_delimiter closing quote))

theorem endsIn_string : string.EndsIn Visible mode orEmpty :=
  ⟨endsIn_mlBasicString, endsIn_basicString, endsIn_mlLiteralString, endsIn_literalString⟩

theorem endsIn_integer : integer.EndsIn Visible mode orEmpty :=
  ⟨Or.inl (endsIn_digitRun fun _ => endsIn_hexDigit),
    Or.inl (endsIn_digitRun fun _ => endsIn_octDigit),
    Or.inl (endsIn_digitRun fun _ => endsIn_binDigit), Or.inl endsIn_unsignedDec⟩

theorem endsIn_floatingPoint : floatingPoint.EndsIn Visible mode orEmpty := by
  refine Or.inl ⟨⟨?_, ?_⟩, Or.inl ⟨endsIn_exponent, ?_⟩⟩
  · exact Or.inl ⟨'f', by decide, by decide⟩
  · exact Or.inl ⟨'n', by decide, by decide⟩
  · exact Or.inr ⟨token_inside_ne_spaced mode, endsIn_fraction, rfl, endsIn_exponent⟩

theorem endsIn_boolean : boolean.EndsIn Visible mode orEmpty :=
  ⟨Or.inl ⟨'e', by decide, by decide⟩, Or.inl ⟨'e', by decide, by decide⟩⟩

theorem endsIn_dateTime : dateTime.EndsIn Visible mode orEmpty :=
  ⟨Or.inl (Or.inl (Or.inl endsIn_timeOffset)), Or.inl (Or.inl endsIn_partialTime), endsIn_fullDate,
    endsIn_partialTime⟩

theorem endsIn_simpleKey : simpleKey.EndsIn Visible mode orEmpty :=
  ⟨⟨endsIn_basicString, endsIn_literalString⟩, endsIn_unquotedKey⟩

theorem endsIn_dottedKey : dottedKey.EndsIn Visible mode orEmpty := by
  have tail : ∀ orEmpty, (Expr.all [keyBlanks, lit ".", keyBlanks, simpleKey]).EndsIn Visible
      .adjacent orEmpty := fun _ => Or.inl (Or.inl (Or.inl endsIn_simpleKey))
  have tight := compound_inside_ne_spaced mode
  exact Or.inr ⟨tight, endsIn_simpleKey, Or.inr ⟨tight, tail _, rfl, tail false⟩⟩

theorem endsIn_key : key.EndsIn Visible mode orEmpty := ⟨endsIn_dottedKey, endsIn_simpleKey⟩

theorem endsIn_array : array.EndsIn Visible mode orEmpty :=
  Or.inl (Or.inl (Or.inl (Or.inl ⟨']', by decide, by decide⟩)))

theorem endsIn_inlineTable : inlineTable.EndsIn Visible mode orEmpty :=
  Or.inl (Or.inl (Or.inl ⟨'\x7d', by decide, by decide⟩))

theorem endsIn_value : value.EndsIn Visible mode orEmpty :=
  ⟨endsIn_string, endsIn_dateTime, endsIn_floatingPoint, endsIn_integer, endsIn_boolean,
    endsIn_array, endsIn_inlineTable⟩

theorem endsIn_keyValue : keyValue.EndsIn Visible mode orEmpty := Or.inl (Or.inl trivial)

theorem endsIn_table : table.EndsIn Visible mode orEmpty :=
  ⟨Or.inl (Or.inl (Or.inl ⟨']', by decide, by decide⟩)),
    Or.inl (Or.inl (Or.inl ⟨']', by decide, by decide⟩))⟩

end EndsIn

/-- Wherever the shape of a production tells, its matches end in a character that is no blank. -/
theorem endsIn_production {r : Rule} (h : r ∉ [.endOfInput, .document, .expression, .comment])
    (mode : Mode) : (production r).EndsIn Visible mode false := by
  have tables : table.EndsIn Visible mode false := endsIn_table
  cases r with
  | endOfInput => exact absurd (by decide) h
  | document => exact absurd (by decide) h
  | expression => exact absurd (by decide) h
  | comment => exact absurd (by decide) h
  | keyValue => exact endsIn_keyValue
  | equals => exact Or.inl ⟨'=', by decide, by decide⟩
  | key => exact endsIn_key
  | dottedKey => exact endsIn_dottedKey
  | simpleKey => exact endsIn_simpleKey
  | quotedKey => exact ⟨endsIn_basicString, endsIn_literalString⟩
  | unquotedKey => exact endsIn_unquotedKey
  | value => exact endsIn_value
  | string => exact endsIn_string
  | basicString => exact endsIn_basicString
  | mlBasicString => exact endsIn_mlBasicString
  | literalString => exact endsIn_literalString
  | mlLiteralString => exact endsIn_mlLiteralString
  | integer => exact endsIn_integer
  | decInt => exact Or.inl endsIn_unsignedDec
  | hexInt => exact Or.inl (endsIn_digitRun fun _ => endsIn_hexDigit)
  | octInt => exact Or.inl (endsIn_digitRun fun _ => endsIn_octDigit)
  | binInt => exact Or.inl (endsIn_digitRun fun _ => endsIn_binDigit)
  | floatingPoint => exact endsIn_floatingPoint
  | boolean => exact endsIn_boolean
  | dateTime => exact endsIn_dateTime
  | offsetDateTime => exact Or.inl (Or.inl (Or.inl endsIn_timeOffset))
  | localDateTime => exact Or.inl (Or.inl endsIn_partialTime)
  | localDate => exact endsIn_fullDate
  | localTime => exact endsIn_partialTime
  | array => exact endsIn_array
  | inlineTable => exact endsIn_inlineTable
  | table => exact endsIn_table
  | standardTable => exact tables.2
  | arrayTable => exact tables.1

end Toml

end Verbatim
