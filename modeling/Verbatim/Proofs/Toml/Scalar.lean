import Verbatim.Proofs.Peg.Keep
import Verbatim.Proofs.Toml.Trivia

/-!
# Scalars in front of other text

A number, a truth value or a date stays what it is when text follows that cannot go on with it:
blanks, a comment, or what separates and closes values (`ValueEnd`). For a date this is not a matter
of one character, since a blank may join it to a time (`Unjoined`).
-/

namespace Verbatim.Toml

open Peg Grammar Text

variable {depth : Nat} {mode : Mode} {pos : Nat} {s w x y : List Char} {m : Match Rule}
  {ts : List (Peg.Tree Rule)} {S : Char → Prop}

theorem tight_token : Mode.token ≠ .spaced := by decide

theorem tight_adjacent : Mode.adjacent ≠ .spaced := by decide

/-! ### What stands behind a value -/

/-- A blank, the number sign of a comment, or a character that separates or closes values. -/
def closesValue (c : Char) : Bool :=
  isBlank c || c == '#' || c == ',' || c == ']' || c == '\x7d'

/-- A character that starts a string, an array or an inline table. -/
def opensValue (c : Char) : Bool := c == '"' || c == '\'' || c == '[' || c == '\x7b'

/-- A character that numbers, truth values and dates are made of. -/
def scalarChar (c : Char) : Bool :=
  c.isAlphanum || c == '+' || c == '-' || c == '_' || c == '.' || c == ':'

/-- Spaces and tabs are skipped up to the first other character. -/
theorem skip_indents {gap rest : List Char} (blanks : Indents gap)
    (front : ∀ c, rest.head? = some c → isIndent c = false) :
    skip grammar.blank .spaced (gap ++ rest) = (gap, rest) :=
  skip_gap blanks front

theorem indents_of_skip {gap rest : List Char} (h : skip grammar.blank mode s = (gap, rest)) :
    Indents gap := by
  have blanks := indents_skip mode s
  rwa [h] at blanks

/-- Behind spaces and tabs the text ends, or a character of a class stands there. -/
def Ahead (P : Char → Prop) (x : List Char) : Prop :=
  ∀ c, (skip grammar.blank .spaced x).2.head? = some c → P c

/-- Text that cannot go on with the value in front of it. -/
abbrev ValueEnd (x : List Char) : Prop := Ahead (closesValue · = true) x

theorem closesValue_of_isBlank {c : Char} (h : isBlank c = true) : closesValue c = true := by
  simp [closesValue, h]

theorem visible_of_not_closesValue {c : Char} (h : closesValue c = false) : Visible c := by
  by_contra blank
  rw [closesValue_of_isBlank (by simpa using blank)] at h
  cases h

theorem not_isIndent_of_closesValue {c : Char} (h : closesValue c = false) :
    isIndent c = false := by
  by_contra indent
  rw [closesValue_of_isBlank (isBlank_of_isIndent (by simpa using indent))] at h
  cases h

theorem scalarChar_of_isAlphanum {c : Char} (h : c.isAlphanum = true) : scalarChar c = true := by
  simp [scalarChar, h]

theorem scalarChar_of_isDigit {c : Char} (h : c.isDigit = true) : scalarChar c = true := by
  simp [scalarChar, Char.isAlphanum, h]

theorem visible_of_scalarChar {c : Char} (h : scalarChar c = true) : Visible c := by
  simp only [scalarChar, Bool.or_eq_true, beq_iff_eq] at h
  rcases h with ((((letter | rfl) | rfl) | rfl) | rfl) | rfl
  · exact visible_of_isAlphanum letter
  all_goals decide

theorem not_scalarChar_of_closesValue {c : Char} (h : closesValue c = true) :
    scalarChar c = false := by
  simp only [closesValue, Bool.or_eq_true, beq_iff_eq] at h
  rcases h with (((blank | rfl) | rfl) | rfl) | rfl
  · by_contra scalar
    have visible : Visible c := visible_of_scalarChar (by simpa using scalar)
    rw [Visible, blank] at visible
    cases visible
  all_goals decide

theorem not_opensValue_of_closesValue {c : Char} (h : closesValue c = true) :
    opensValue c = false := by
  by_contra opens
  simp only [opensValue, Bool.not_eq_false, Bool.or_eq_true, beq_iff_eq] at opens
  rcases opens with ((rfl | rfl) | rfl) | rfl
  all_goals exact absurd h (by decide)

namespace Ahead

variable {P Q : Char → Prop}

theorem nil : Ahead P [] := by
  intro c first
  cases first

theorem mono (h : Ahead P x) (weaker : ∀ c, P c → Q c) : Ahead Q x :=
  fun c first => weaker c (h c first)

/-- The text itself starts with such a character or with a space or a tab. -/
theorem head (h : Ahead P x) {c : Char} (first : x.head? = some c) : isIndent c = true ∨ P c := by
  cases x with
  | nil => cases first
  | cons d x =>
    obtain rfl : d = c := Option.some.inj first
    cases blank : isIndent d with
    | true => exact Or.inl rfl
    | false => exact Or.inr (h d (by simp [skip, grammar, blank]))

theorem of_head? (h : ∀ c, x.head? = some c → P c ∧ isIndent c = false) : Ahead P x := by
  have stays : skip grammar.blank .spaced x = ([], x) :=
    skip_eq_self .spaced fun c first => (h c first).2
  intro c first
  rw [stays] at first
  exact (h c first).1

/-- Spaces and tabs may stand in front. -/
theorem indents {gap : List Char} (blanks : Indents gap) (h : Ahead P x) : Ahead P (gap ++ x) := by
  have skipped : (skip grammar.blank .spaced (gap ++ x)).2 = (skip grammar.blank .spaced x).2 :=
    skip_append_gap blanks x
  rwa [Ahead, skipped]

theorem skipped (h : Ahead P x) : Ahead P (skip grammar.blank .spaced x).2 := by
  rwa [Ahead, skip_skip]

theorem behind_indent {c : Char} (blank : isIndent c = true) (h : Ahead P (c :: x)) :
    Ahead P x := by
  have skipped : (skip grammar.blank .spaced (c :: x)).2 = (skip grammar.blank .spaced x).2 := by
    simp [skip, grammar, blank]
  rwa [Ahead, skipped] at h

end Ahead

theorem ValueEnd.closes (h : ValueEnd x) {c : Char} (first : x.head? = some c) :
    closesValue c = true := by
  rcases h.head first with blank | closes
  · exact closesValue_of_isBlank (isBlank_of_isIndent blank)
  · exact closes

/-! ### Decimal numbers -/

/-- The characters between the first and the last digit of a decimal number. -/
def isNumeric (c : Char) : Bool := c.isDigit || c == '_'

theorem isNumeric_of_isDigit {c : Char} (h : c.isDigit = true) : isNumeric c = true := by
  simp [isNumeric, h]

theorem not_isNumeric_of_not_scalarChar {c : Char} (h : scalarChar c = false) :
    isNumeric c = false := by
  by_contra numeric
  simp only [isNumeric, Bool.not_eq_false, Bool.or_eq_true, beq_iff_eq] at numeric
  rcases numeric with digit | rfl
  · rw [scalarChar_of_isDigit digit] at h
    cases h
  · cases h

section Digits

variable (foreign : ∀ c, S c → isNumeric c = false)

include foreign

theorem numeric_digit : digit.Avoids S mode := by
  intro c found other
  have apart := foreign c other
  rw [isNumeric_of_isDigit found] at apart
  cases apart

theorem numeric_unsignedDec : unsignedDec.Avoids S .token := by
  have underscore : (lit "_").Avoids S .token := by
    intro c member other
    obtain rfl : c = '_' := by simpa using member
    cases foreign _ other
  have nonzero : nonzeroDigit.Avoids S .token := by
    intro c found
    have digits : digit.Avoids S .token := numeric_digit foreign
    exact digits c (Bool.and_eq_true_iff.mp found).1
  have zero : (lit "0").Avoids S .token := by
    intro c member other
    obtain rfl : c = '0' := by simpa using member
    cases foreign _ other
  exact ⟨zero, tight_token, nonzero, tight_token, rfl, tight_token, underscore,
    numeric_digit foreign⟩

end Digits

/-! ### Numbers and truth values -/

section Avoids

variable (foreign : ∀ c, S c → scalarChar c = false)

include foreign

theorem avoids_of_member {member : Char → Bool}
    (scalar : ∀ c, member c = true → scalarChar c = true) :
    (Expr.char member : Production).Avoids S mode := by
  intro c found stop
  have apart := foreign c stop
  rw [scalar c found] at apart
  cases apart

theorem avoids_word {text : List Char} (scalar : text.all scalarChar = true) :
    (Expr.word text : Production).Avoids S mode := by
  intro c member stop
  have apart := foreign c stop
  rw [List.all_eq_true.mp scalar c member] at apart
  cases apart

theorem avoids_oneOf {text : String} (scalar : text.toList.all scalarChar = true) :
    (oneOf text).Avoids S mode :=
  avoids_of_member foreign fun c found =>
    List.all_eq_true.mp scalar c (List.contains_iff_mem.mp found)

theorem avoids_digit : digit.Avoids S mode :=
  numeric_digit fun c other => not_isNumeric_of_not_scalarChar (foreign c other)

theorem avoids_hexDigit : hexDigit.Avoids S mode := by
  refine avoids_of_member foreign fun c found => scalarChar_of_isAlphanum ?_
  simp only [Bool.or_eq_true, Bool.and_eq_true, decide_eq_true_eq] at found
  rcases found with (digit | ⟨above, below⟩) | ⟨above, below⟩
  · simp [Char.isAlphanum, digit]
  · have lower : c.isLower = true := Bool.and_eq_true_iff.mpr
      ⟨decide_eq_true above, decide_eq_true (Char.le_trans below (by decide : 'f' ≤ 'z'))⟩
    have letter : c.isAlpha = true := Bool.or_eq_true_iff.mpr (Or.inr lower)
    simp [Char.isAlphanum, letter]
  · have upper : c.isUpper = true :=
      decide_eq_true ⟨above, Char.le_trans below (by decide : 'F' ≤ 'Z')⟩
    have letter : c.isAlpha = true := Bool.or_eq_true_iff.mpr (Or.inl upper)
    simp [Char.isAlphanum, letter]

theorem avoids_octDigit : octDigit.Avoids S mode := by
  refine avoids_of_member foreign fun c found => scalarChar_of_isDigit ?_
  simp only [Bool.and_eq_true, decide_eq_true_eq] at found
  exact Bool.and_eq_true_iff.mpr
    ⟨decide_eq_true found.1, decide_eq_true (Char.le_trans found.2 (by decide : '7' ≤ '9'))⟩

theorem avoids_lit {text : String} (scalar : text.toList.all scalarChar = true) (mode : Mode) :
    (lit text).Avoids S mode :=
  avoids_word foreign scalar

omit foreign in
/-- Parts without blanks between them. -/
theorem avoids_then {a b : Production} (left : a.Avoids S .token) (right : b.Avoids S .token) :
    (Expr.seq a b).Avoids S .token :=
  ⟨tight_token, left, right⟩

theorem avoids_underscored {one : Production} (consumes : one.consumes = true)
    (part : one.Avoids S .token) :
    (Expr.star (.seq (.opt (lit "_")) one)).Avoids S .token :=
  ⟨tight_token, by simp [Expr.consumes, consumes],
    avoids_then (avoids_lit foreign (by decide) .token) part⟩

theorem avoids_digitRun {one : Production} (consumes : one.consumes = true)
    (part : one.Avoids S .token) : (digitRun one).Avoids S .token :=
  avoids_then part (avoids_underscored foreign consumes part)

theorem avoids_sign (mode : Mode) : sign.Avoids S mode :=
  have signs : (oneOf "+-").Avoids S mode := avoids_oneOf foreign (by decide)
  signs

theorem avoids_unsignedDec : unsignedDec.Avoids S .token :=
  numeric_unsignedDec fun c other => not_isNumeric_of_not_scalarChar (foreign c other)

theorem avoids_integer : integer.Avoids S mode :=
  have hex := avoids_digitRun foreign rfl (avoids_hexDigit foreign)
  have oct := avoids_digitRun foreign rfl (avoids_octDigit foreign)
  have bin : (digitRun binDigit).Avoids S .token :=
    avoids_digitRun foreign rfl (avoids_oneOf foreign (by decide))
  ⟨avoids_then (avoids_word foreign (by decide)) hex,
    avoids_then (avoids_word foreign (by decide)) oct,
    avoids_then (avoids_word foreign (by decide)) bin,
    avoids_then (avoids_sign foreign .token) (avoids_unsignedDec foreign)⟩

theorem avoids_exponent : exponent.Avoids S .token :=
  avoids_then (avoids_oneOf foreign (by decide)) (avoids_then (avoids_sign foreign .token)
    (avoids_digitRun foreign rfl (avoids_digit foreign)))

theorem avoids_fraction : fraction.Avoids S .token :=
  avoids_then (avoids_word foreign (by decide)) (avoids_digitRun foreign rfl (avoids_digit foreign))

theorem avoids_floatingPoint : floatingPoint.Avoids S mode :=
  avoids_then (avoids_sign foreign .token)
    ⟨⟨avoids_word foreign (by decide), avoids_word foreign (by decide)⟩,
      avoids_then (avoids_unsignedDec foreign) ⟨avoids_exponent foreign,
        avoids_then (avoids_fraction foreign) (avoids_exponent foreign)⟩⟩

theorem avoids_boolean : boolean.Avoids S mode :=
  ⟨avoids_word foreign (by decide), avoids_word foreign (by decide)⟩

/-! ### Dates and times -/

theorem avoids_twoDigits : (Expr.times 2 digit).Avoids S .token :=
  avoids_then (avoids_digit foreign) (avoids_digit foreign)

theorem avoids_fullDate : fullDate.Avoids S .token :=
  have one := avoids_digit foreign
  have two := avoids_twoDigits foreign
  have dash : (lit "-").Avoids S .token := avoids_word foreign (by decide)
  avoids_then (avoids_then one (avoids_then one two))
    (avoids_then dash (avoids_then two (avoids_then dash two)))

theorem avoids_partialTime : partialTime.Avoids S .token :=
  have one := avoids_digit foreign
  have two := avoids_twoDigits foreign
  have colon : (lit ":").Avoids S .token := avoids_word foreign (by decide)
  have dot : (lit ".").Avoids S .token := avoids_word foreign (by decide)
  have digits : (Expr.star digit).Avoids S .token := ⟨tight_token, rfl, one⟩
  avoids_then two (avoids_then colon (avoids_then two (avoids_then colon (avoids_then two
    (avoids_then dot (avoids_then one digits))))))

theorem avoids_timeOffset : timeOffset.Avoids S .token :=
  have two := avoids_twoDigits foreign
  ⟨avoids_oneOf foreign (by decide), avoids_then (avoids_oneOf foreign (by decide))
    (avoids_then two (avoids_then (avoids_word foreign (by decide)) two))⟩

end Avoids

/-- Numbers, truth values and the parts of dates do not start where a value ends. -/
theorem eq_none_of_valueEnd {e : Production}
    (avoids : e.Avoids (fun c => scalarChar c = false) mode) (consumes : e.consumes = true)
    (behind : ValueEnd y) (pos : Nat) : matcher depth e mode pos y = none :=
  Expr.eq_none_of_avoids (productive depth) avoids
    consumes (fun _ first => not_scalarChar_of_closesValue (behind.closes first)) pos

/-- Text that does not go on with the value in front of it: its first character closes values, and
behind a blank that may join a date and a time there is no time. -/
structure Unjoined (x : List Char) : Prop where
  closes : ∀ c, x.head? = some c → closesValue c = true
  untimed : ∀ later, x = ' ' :: later → ∀ depth pos,
    matcher depth partialTime .token pos later = none

theorem ValueEnd.unjoined (h : ValueEnd x) : Unjoined x where
  closes _ first := h.closes first
  untimed := by
    rintro later rfl depth pos
    exact eq_none_of_valueEnd (avoids_partialTime fun _ => id) rfl (h.behind_indent rfl) pos

theorem Unjoined.nil : Unjoined [] := ValueEnd.unjoined Ahead.nil

/-- Numbers, truth values and the parts of dates are not touched by what stands behind a value. -/
theorem appends_of_unjoined {e : Production}
    (avoids : e.Avoids (fun c => scalarChar c = false) mode) (behind : Unjoined y) :
    (matcher depth e).Appends mode y :=
  Expr.appends_of_avoids (productive depth)
    (fun c first => not_scalarChar_of_closesValue (behind.closes c first)) avoids

/-- Behind a value, the blank that may join a date and a time has no time behind it. -/
theorem appends_timeDelim {e : Production}
    (avoids : e.Avoids (fun c => scalarChar c = false) .token) (behind : Unjoined y)
    (untimed : ∀ pos later, matcher depth partialTime .token pos later = none →
      matcher depth e .token pos later = none) :
    (matcher depth (.seq timeDelim e)).Appends .token y := by
  refine Expr.appends_char_seq tight_token (appends_of_unjoined avoids behind) fun pos => ?_
  rw [Option.eq_none_iff_forall_ne_some]
  intro m parsed
  obtain ⟨first, second, delim, rest, _⟩ := Expr.parseWith_seq.mp parsed
  obtain ⟨c, later, rfl, joins, rfl⟩ := Expr.parseWith_char.mp delim
  have other := not_scalarChar_of_closesValue (behind.closes c (List.head?_cons))
  obtain rfl : c = ' ' := by
    have known : c = 'T' ∨ c = 't' ∨ c = ' ' := by simpa using joins
    rcases known with rfl | rfl | rfl
    · cases other
    · cases other
    · rfl
  have nothing := fun pos => untimed pos later (behind.untimed later rfl depth pos)
  simp only [skip_of_ne_spaced tight_token, nothing] at rest
  cases rest

theorem appends_dateTime (behind : Unjoined y) : (matcher depth dateTime).Appends mode y := by
  have foreign : ∀ c, scalarChar c = false → scalarChar c = false := fun _ => id
  have date : (matcher depth fullDate).Appends .token y :=
    appends_of_unjoined (avoids_fullDate foreign) behind
  have time := avoids_partialTime foreign
  have offset : (matcher depth (.seq timeDelim (.seq partialTime timeOffset))).Appends .token y :=
    appends_timeDelim ⟨tight_token, time, avoids_timeOffset foreign⟩ behind
      fun _ _ => Expr.seq_eq_none_of_left
  have plain : (matcher depth (.seq timeDelim partialTime)).Appends .token y :=
    appends_timeDelim time behind fun _ _ => id
  exact Expr.appends_rule (Expr.appends_alt
    (Expr.appends_rule (Expr.appends_seq tight_token date offset))
    (Expr.appends_alt (Expr.appends_rule (Expr.appends_seq tight_token date plain))
      (Expr.appends_alt (Expr.appends_rule date)
        (Expr.appends_rule (appends_of_unjoined time behind)))))

end Verbatim.Toml
