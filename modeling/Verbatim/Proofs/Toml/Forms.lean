import Verbatim.Proofs.Toml.Line

/-!
# The forms of values

A value is written in one of sixteen forms, which the grammar tries one after another. A choice
takes the first form that matches any front part of a text, so it has to be shown that no form
matches a front part of a text that a later form matches as a whole (`earlier_eq_none`). The forms
are told apart by the mark of a text, the first character behind a sign that belongs to no decimal
number: a match of any form but the decimal integer fixes the mark (`family_of_match`). Forms that
share a mark are told apart by their quotes, or because one needs more text where the other one
ends. What is taken as a value is therefore what one form takes (`exists_form`), and what a form
takes as a whole is a value of this form (`value_takes_of_form`).
-/

namespace Verbatim.Toml

open Peg Grammar Text

variable {depth : Nat} {mode : Mode} {pos : Nat} {s t w x : List Char} {m : Match Rule}
  {ts : List (Peg.Tree Rule)} {f g : Rule}

/-! ### Groups of forms -/

/-- Forms that stand together in the choice of a value, perhaps inside a rule of their own. -/
structure FormGroup where
  rule? : Option Rule
  forms : List Rule

namespace FormGroup

/-- The choice among the forms of a group. -/
def choice (group : FormGroup) : Production := .first (group.forms.map Grammar.production)

def production (group : FormGroup) : Production :=
  match group.rule? with
  | none => group.choice
  | some r => .rule r .compound group.choice

/-- The mode in which the forms of a group are tried. -/
def inside (group : FormGroup) : Mode :=
  match group.rule? with
  | none => .spaced
  | some _ => .adjacent

/-- The node of a group, with the node of one of its forms in it. -/
def node (group : FormGroup) (n : Peg.Tree Rule) : Peg.Tree Rule :=
  match group.rule? with
  | none => n
  | some r => .node r n.start n.text [n]

end FormGroup

/-- The groups in the order of the choice. -/
def valueGroups : List FormGroup :=
  [⟨some .string, [.mlBasicString, .basicString, .mlLiteralString, .literalString]⟩,
   ⟨some .dateTime, [.offsetDateTime, .localDateTime, .localDate, .localTime]⟩,
   ⟨none, [.floatingPoint]⟩,
   ⟨some .integer, [.hexInt, .octInt, .binInt, .decInt]⟩,
   ⟨none, [.boolean]⟩, ⟨none, [.array]⟩, ⟨none, [.inlineTable]⟩]

/-- The forms of values, in the order in which they are tried. -/
def valueForms : List Rule := valueGroups.flatMap (·.forms)

theorem value_eq_first :
    value = .rule .value .plain (.first (valueGroups.map FormGroup.production)) := rfl

/-! ### Marks -/

def isSign (c : Char) : Bool := c == '+' || c == '-'

/-- The first character behind a sign that belongs to no decimal number. -/
def mark (s : List Char) : Option Char := ((s.dropWhile isSign).dropWhile isNumeric).head?

/-- The family of forms that a mark announces, by one of its members. Without a mark there is
nothing but a decimal number. -/
def familyOfMark? : Option Char → Option Rule
  | none => some .decInt
  | some '"' => some .basicString
  | some '\'' => some .literalString
  | some '-' => some .localDate
  | some ':' => some .localTime
  | some '.' | some 'e' | some 'E' | some 'i' | some 'n' => some .floatingPoint
  | some 'x' => some .hexInt
  | some 'o' => some .octInt
  | some 'b' => some .binInt
  | some 't' | some 'f' => some .boolean
  | some '[' => some .array
  | some '\x7b' => some .inlineTable
  | _ => none

/-- The family of a form. -/
def family : Rule → Rule
  | .mlBasicString => .basicString
  | .mlLiteralString => .literalString
  | .offsetDateTime | .localDateTime => .localDate
  | f => f

theorem not_isSign_of_isNumeric {c : Char} (h : isNumeric c = true) : isSign c = false := by
  by_contra sign
  rw [Bool.not_eq_false, isSign, Bool.or_eq_true, beq_iff_eq, beq_iff_eq] at sign
  rcases sign with rfl | rfl <;> cases h

/-- Signs in front do not matter. -/
theorem mark_append {signs : List Char} (h : ∀ c ∈ signs, isSign c = true) (s : List Char) :
    mark (signs ++ s) = mark s := by
  rw [mark, mark, List.dropWhile_append_of_pos h]

/-- The mark of a text that starts with digits, or with the mark itself. -/
theorem mark_of_numeric {c : Char} (numeric : ∀ d ∈ w, isNumeric d = true)
    (front : ∀ d, (w ++ c :: x).head? = some d → isSign d = false) (other : isNumeric c = false) :
    mark (w ++ c :: x) = some c := by
  have unsigned : (w ++ c :: x).dropWhile isSign = w ++ c :: x := by
    cases start : w ++ c :: x with
    | nil => rfl
    | cons d rest => exact List.dropWhile_cons_of_neg (by simp [front d (by rw [start]; rfl)])
  rw [mark, unsigned, List.dropWhile_append_of_pos numeric,
    List.dropWhile_cons_of_neg (by simp [other])]
  rfl

/-- A decimal number has no mark. -/
theorem mark_eq_none (numeric : ∀ c ∈ s, isNumeric c = true) : mark s = none := by
  have nothing : (s.dropWhile isSign).dropWhile isNumeric = [] :=
    List.dropWhile_eq_nil_iff.mpr fun c member =>
      numeric c ((List.dropWhile_sublist isSign).subset member)
  rw [mark, nothing]
  rfl

/-- The first character is the mark if it is neither a sign nor part of a decimal number. -/
theorem mark_of_startsIn {P : Char → Prop} {e : Production} (starts : e.StartsIn P)
    (apart : ∀ c, P c → isSign c = false ∧ isNumeric c = false)
    (h : matcher depth e mode pos s = some m) : ∃ c, P c ∧ mark s = some c := by
  obtain ⟨c, first, member⟩ := Expr.text_startsIn starts h
  obtain ⟨rest, split⟩ := List.head?_eq_some_iff.mp first
  refine ⟨c, member, ?_⟩
  rw [← (matcher_covers h).split, split]
  refine mark_of_numeric (w := []) (by simp) (fun d same => ?_) (apart c member).2
  obtain rfl : c = d := Option.some.inj same
  exact (apart c member).1

/-- Digits and something that starts with another character. -/
theorem mark_of_seq {P : Char → Prop} {a b : Production}
    (digits : a.Avoids (isNumeric · = false) .token) (consumes : a.consumes = true)
    (starts : b.StartsIn P) (apart : ∀ c, P c → isNumeric c = false)
    (h : matcher depth (.seq a b) .token pos s = some m) : ∃ c, P c ∧ mark s = some c := by
  obtain ⟨first, second, found, behind, _⟩ := Expr.parseWith_seq.mp h
  have numeric := Expr.text_of_avoids (productive depth) digits found
  simp only [Bool.not_eq_false] at numeric
  have consumed : first.text ≠ [] :=
    Expr.text_ne_nil_of_consumes (productive depth).progress consumes found
  obtain ⟨c, head, member⟩ := (Expr.text_startsIn starts behind).append (t := second.rest)
  rw [(matcher_covers behind).split] at head
  obtain ⟨rest, split⟩ := List.head?_eq_some_iff.mp head
  refine ⟨c, member, ?_⟩
  rw [← (matcher_covers found).split, show first.rest = c :: rest from split]
  refine mark_of_numeric numeric (fun d same => ?_) (apart c member)
  obtain ⟨e, text, cut⟩ := List.exists_cons_of_ne_nil consumed
  rw [cut] at same numeric
  obtain rfl : e = d := Option.some.inj same
  exact not_isSign_of_isNumeric (numeric e (List.mem_cons_self ..))

/-- A sign in front does not matter. -/
theorem mark_behind_sign {e : Production} (h : matcher depth (.seq sign e) .token pos s = some m) :
    ∃ pos' s' m', matcher depth e .token pos' s' = some m' ∧ m'.rest = m.rest ∧
      mark s = mark s' := by
  obtain ⟨first, second, found, behind, rfl⟩ := Expr.parseWith_seq.mp h
  have signs : sign.Avoids (isSign · = false) .token := by
    intro c member other
    have known : c = '+' ∨ c = '-' := by simpa using member
    rcases known with rfl | rfl <;> cases other
  have front := Expr.text_of_avoids (productive depth) signs found
  simp only [Bool.not_eq_false] at front
  refine ⟨_, _, second, behind, rfl, ?_⟩
  rw [← (matcher_covers found).split]
  exact mark_append front first.rest

/-! ### Marks of forms -/

/-- A decimal number matches nothing where another character stands. -/
theorem decInt_eq_none (other : ∀ c, s.head? = some c → isSign c = false ∧ isNumeric c = false) :
    matcher depth decInt mode pos s = none := by
  have signs : sign.Avoids (fun c => isSign c = false ∧ isNumeric c = false) .token := by
    intro c member other
    have known : c = '+' ∨ c = '-' := by simpa using member
    rcases known with rfl | rfl <;> cases other.1
  have avoids : decInt.Avoids (fun c => isSign c = false ∧ isNumeric c = false) mode :=
    ⟨tight_token, signs, numeric_unsignedDec fun _ => And.right⟩
  exact Expr.eq_none_of_avoids (productive depth) avoids rfl other pos

theorem fullDate_mark (h : matcher depth fullDate .token pos s = some m) : mark s = some '-' := by
  have digit : digit.Avoids (isNumeric · = false) .token := numeric_digit fun _ => id
  have digits : (Expr.times 4 Grammar.digit).Avoids (isNumeric · = false) .token :=
    ⟨tight_token, digit, tight_token, digit, tight_token, digit, digit⟩
  have dash : (Expr.all [lit "-", .times 2 Grammar.digit, lit "-", .times 2 Grammar.digit]).StartsIn
      (· = '-') := ⟨'-', rfl, rfl⟩
  obtain ⟨c, rfl, marked⟩ := mark_of_seq digits rfl dash (by rintro c rfl; rfl) h
  exact marked

theorem partialTime_mark (h : matcher depth partialTime .token pos s = some m) :
    mark s = some ':' := by
  have digit : digit.Avoids (isNumeric · = false) .token := numeric_digit fun _ => id
  have digits : (Expr.times 2 Grammar.digit).Avoids (isNumeric · = false) .token :=
    ⟨tight_token, digit, digit⟩
  have colon : (Expr.all [lit ":", .times 2 Grammar.digit, lit ":", .times 2 Grammar.digit,
      .opt (.all [lit ".", .plus Grammar.digit])]).StartsIn (· = ':') := ⟨':', rfl, rfl⟩
  obtain ⟨c, rfl, marked⟩ := mark_of_seq digits rfl colon (by rintro c rfl; rfl) h
  exact marked

theorem floatingPoint_mark (h : matcher depth floatingPoint mode pos s = some m) :
    familyOfMark? (mark s) = some .floatingPoint := by
  obtain ⟨_, inside, _⟩ := Expr.parseWith_rule.mp h
  obtain ⟨pos', s', m', unsigned, _, same⟩ := mark_behind_sign inside
  rw [same]
  obtain special | ⟨_, finite⟩ := Expr.parseWith_alt.mp unsigned
  · have starts : (Expr.first [lit "inf", lit "nan"]).StartsIn fun c => c = 'i' ∨ c = 'n' :=
      ⟨⟨'i', rfl, Or.inl rfl⟩, ⟨'n', rfl, Or.inr rfl⟩⟩
    obtain ⟨c, rfl | rfl, marked⟩ :=
      mark_of_startsIn starts (by rintro c (rfl | rfl) <;> decide) special
    all_goals rw [marked]; rfl
  · have starts : (Expr.first [exponent, .all [fraction, .opt exponent]]).StartsIn
        fun c => c = 'e' ∨ c = 'E' ∨ c = '.' := by
      refine ⟨fun c member => ?_, '.', rfl, Or.inr (Or.inr rfl)⟩
      have known : c = 'e' ∨ c = 'E' := by simpa using member
      exact known.imp_right Or.inl
    obtain ⟨c, known, marked⟩ := mark_of_seq (numeric_unsignedDec fun _ => id) rfl starts
      (by rintro c (rfl | rfl | rfl) <;> decide) finite
    rw [marked]
    rcases known with rfl | rfl | rfl <;> rfl

/-- A text that starts with a character of no decimal number. -/
theorem mark_of_first {c : Char} {e : Production} (starts : e.StartsIn (· = c))
    (apart : isSign c = false ∧ isNumeric c = false) (h : matcher depth e mode pos s = some m) :
    mark s = some c := by
  obtain ⟨d, rfl, marked⟩ := mark_of_startsIn starts (by rintro d rfl; exact apart) h
  exact marked

theorem boolean_mark (h : matcher depth boolean mode pos s = some m) :
    familyOfMark? (mark s) = some .boolean := by
  have starts : boolean.StartsIn fun c => c = 't' ∨ c = 'f' :=
    ⟨⟨'t', rfl, Or.inl rfl⟩, ⟨'f', rfl, Or.inr rfl⟩⟩
  obtain ⟨c, rfl | rfl, marked⟩ := mark_of_startsIn starts (by rintro c (rfl | rfl) <;> decide) h
  all_goals rw [marked]; rfl

/-- A number in another base has the letter of the base for its mark. -/
theorem based_mark {r : Rule} {letter : Char} {digits : Production}
    (h : matcher depth (.rule r .token (.seq (.word ['0', letter]) digits)) mode pos s = some m)
    (other : isNumeric letter = false) : mark s = some letter := by
  obtain ⟨_, inside, _⟩ := Expr.parseWith_rule.mp h
  obtain ⟨_, _, front, _⟩ := Expr.parseWith_seq.mp inside
  obtain ⟨rest, rfl, _⟩ := Expr.parseWith_word.mp front
  refine mark_of_numeric (w := ['0']) (by simp [isNumeric]) (fun d first => ?_) other
  obtain rfl : '0' = d := Option.some.inj first
  rfl

/-- Forms that start with a date. -/
theorem dated_mark {r : Rule} {e : Production}
    (h : matcher depth (.rule r .token (.seq fullDate e)) mode pos s = some m) :
    mark s = some '-' := by
  obtain ⟨_, inside, _⟩ := Expr.parseWith_rule.mp h
  obtain ⟨_, _, front, _⟩ := Expr.parseWith_seq.mp inside
  exact fullDate_mark front

/-- A whole decimal integer has no mark. -/
theorem decInt_mark (h : (matcher depth decInt).Takes mode pos t [] ts) : mark t = none := by
  obtain ⟨_, inside, _⟩ := Expr.takes_rule.mp h
  obtain ⟨pos', s', m', unsigned, rest, same⟩ := mark_behind_sign inside
  have numeric := Expr.text_of_avoids (productive depth) (numeric_unsignedDec fun _ => id) unsigned
  have split := (matcher_covers unsigned).split
  rw [rest, List.append_nil] at split
  rw [List.append_nil] at same
  rw [same, ← split]
  exact mark_eq_none fun c member => by simpa using numeric c member

/-- A match of any form but the decimal integer fixes the mark. -/
theorem family_of_match (form : f ∈ valueForms) (marked : f ≠ .decInt)
    (h : matcher depth (production f) mode pos s = some m) :
    familyOfMark? (mark s) = some (family f) := by
  have basic : mlBasicString.StartsIn (· = '"') ∧ basicString.StartsIn (· = '"') :=
    ⟨⟨'"', rfl, rfl⟩, ⟨'"', rfl, rfl⟩⟩
  have literal : mlLiteralString.StartsIn (· = '\'') ∧ literalString.StartsIn (· = '\'') :=
    ⟨⟨'\'', rfl, rfl⟩, ⟨'\'', rfl, rfl⟩⟩
  have bracket : array.StartsIn (· = '[') ∧ inlineTable.StartsIn (· = '\x7b') :=
    ⟨⟨'[', rfl, rfl⟩, ⟨'\x7b', rfl, rfl⟩⟩
  simp only [valueForms, valueGroups, List.flatMap_cons, List.flatMap_nil, List.append_nil,
    List.cons_append, List.nil_append, List.mem_cons, List.not_mem_nil, or_false] at form
  rcases form with rfl | rfl | rfl | rfl | rfl | rfl | rfl | rfl | rfl | rfl | rfl | rfl | rfl |
    rfl | rfl | rfl
  case inr.inr.inr.inr.inr.inr.inr.inr.inr.inr.inr.inr.inl => exact absurd rfl marked
  · rw [mark_of_first basic.1 (by decide) h]; rfl
  · rw [mark_of_first basic.2 (by decide) h]; rfl
  · rw [mark_of_first literal.1 (by decide) h]; rfl
  · rw [mark_of_first literal.2 (by decide) h]; rfl
  · rw [dated_mark h]; rfl
  · rw [dated_mark h]; rfl
  · obtain ⟨_, date, _⟩ := Expr.parseWith_rule.mp h
    rw [fullDate_mark date]; rfl
  · obtain ⟨_, time, _⟩ := Expr.parseWith_rule.mp h
    rw [partialTime_mark time]; rfl
  · exact floatingPoint_mark h
  · rw [based_mark h (by decide)]; rfl
  · rw [based_mark h (by decide)]; rfl
  · rw [based_mark h (by decide)]; rfl
  · exact boolean_mark h
  · rw [mark_of_first bracket.1 (by decide) h]; rfl
  · rw [mark_of_first bracket.2 (by decide) h]; rfl

/-! ### Forms of one family -/

/-- Where a part takes a whole text, nothing can follow it. -/
theorem seq_eq_none_of_whole {a b : Production} (found : matcher depth a .token pos s = some m)
    (whole : m.rest = []) (consumes : b.consumes = true) :
    matcher depth (.seq a b) .token pos s = none := by
  refine Option.eq_none_iff_forall_ne_some.mpr fun m' matched => ?_
  obtain ⟨first, second, found', behind, _⟩ := Expr.parseWith_seq.mp matched
  obtain rfl := Option.some.inj (found.symm.trans found')
  rw [skip_of_ne_spaced tight_token, whole,
    Expr.parseWith_nil_of_consumes (productive depth) consumes] at behind
  cases behind

theorem seq_eq_none_of_right {a b c : Production}
    (found : matcher depth (.seq a b) .token pos s = some m) (whole : m.rest = [])
    (nothing : ∀ pos s m, matcher depth b .token pos s = some m → m.rest = [] →
      matcher depth c .token pos s = none) :
    matcher depth (.seq a c) .token pos s = none := by
  obtain ⟨first, second, front, behind, rfl⟩ := Expr.parseWith_seq.mp found
  refine Option.eq_none_iff_forall_ne_some.mpr fun m' matched => ?_
  obtain ⟨first', second', front', behind', _⟩ := Expr.parseWith_seq.mp matched
  obtain rfl := Option.some.inj (front.symm.trans front')
  exact Option.some_ne_none _ (behind'.symm.trans (nothing _ _ _ behind whole))

theorem offsetDateTime_eq_none (h : (matcher depth localDateTime).Takes mode pos t [] ts) :
    matcher depth offsetDateTime mode pos (t ++ []) = none := by
  obtain ⟨_, inside, _⟩ := Expr.takes_rule.mp h
  refine Expr.rule_eq_none (seq_eq_none_of_right inside rfl fun pos s m behind whole => ?_)
  refine seq_eq_none_of_right behind whole fun pos s m time whole => ?_
  exact seq_eq_none_of_whole time whole rfl

/-- A date alone is no date with a time. -/
theorem dated_eq_none {r : Rule} {e : Production}
    (h : (matcher depth localDate).Takes mode pos t [] ts) (consumes : e.consumes = true) :
    matcher depth (.rule r .token (.seq fullDate e)) mode pos (t ++ []) = none := by
  obtain ⟨_, date, _⟩ := Expr.takes_rule.mp h
  exact Expr.rule_eq_none (seq_eq_none_of_whole date rfl consumes)

/-- Of two forms of one family, the first does not match a front part of what the second matches as
a whole. -/
theorem relative_eq_none (earlier : [f, g].Sublist valueForms) (related : family f = family g)
    (h : (matcher depth (production g)).Takes .spaced pos t [] ts) :
    matcher depth (production f) .spaced pos t = none := by
  have known : ∀ f ∈ valueForms, ∀ g ∈ valueForms, [f, g].Sublist valueForms →
      family f = family g → (f, g) ∈ [(Rule.mlBasicString, Rule.basicString),
        (.mlLiteralString, .literalString), (.offsetDateTime, .localDateTime),
        (.offsetDateTime, .localDate), (.localDateTime, .localDate)] := by
    decide +kernel
  have pair := known f (earlier.subset (by simp)) g (earlier.subset (by simp)) earlier related
  rw [← List.append_nil t]
  simp only [List.mem_cons, Prod.mk.injEq, List.not_mem_nil, or_false] at pair
  rcases pair with ⟨rfl, rfl⟩ | ⟨rfl, rfl⟩ | ⟨rfl, rfl⟩ | ⟨rfl, rfl⟩ | ⟨rfl, rfl⟩
  · exact mlBasicString_eq_none h (by simp) pos
  · exact mlLiteralString_eq_none h (by simp) pos
  · exact offsetDateTime_eq_none h
  · exact dated_eq_none h rfl
  · exact dated_eq_none h rfl

/-! ### The choice of a form -/

/-- Behind the decimal integer, no form starts like a number. -/
theorem decInt_eq_none_of_later (later : [.decInt, g].Sublist valueForms)
    (h : matcher depth (production g) mode pos s = some m) :
    matcher depth decInt mode pos s = none := by
  have known : ∀ g ∈ valueForms, [.decInt, g].Sublist valueForms →
      g = .boolean ∨ g = .array ∨ g = .inlineTable := by decide +kernel
  let P := fun c => c ∈ ['t', 'f', '[', '\x7b']
  have apart : ∀ c ∈ ['t', 'f', '[', '\x7b'], isSign c = false ∧ isNumeric c = false := by
    intro c member
    simp only [List.mem_cons, List.not_mem_nil, or_false] at member
    rcases member with rfl | rfl | rfl | rfl <;> decide
  have starts : boolean.StartsIn P ∧ array.StartsIn P ∧ inlineTable.StartsIn P :=
    ⟨⟨⟨'t', rfl, by decide⟩, ⟨'f', rfl, by decide⟩⟩, ⟨'[', rfl, by decide⟩,
      ⟨'\x7b', rfl, by decide⟩⟩
  obtain ⟨c, first, member⟩ : StartsIn P m.text := by
    rcases known g (later.subset (by simp)) later with rfl | rfl | rfl
    · exact Expr.text_startsIn starts.1 h
    · exact Expr.text_startsIn starts.2.1 h
    · exact Expr.text_startsIn starts.2.2 h
  refine decInt_eq_none fun d head => ?_
  rw [← (matcher_covers h).split] at head
  obtain rfl : c = d := by simpa [first] using head
  exact apart c member

/-- No form matches a front part of a text that a later form matches as a whole. -/
theorem earlier_eq_none (earlier : [f, g].Sublist valueForms)
    (h : (matcher depth (production g)).Takes .spaced pos t [] ts) :
    matcher depth (production f) .spaced pos t = none := by
  have form : f ∈ valueForms := earlier.subset (by simp)
  have form' : g ∈ valueForms := earlier.subset (by simp)
  have whole := h
  rw [Matcher.Takes, List.append_nil] at whole
  by_cases decimal : f = .decInt
  · subst decimal
    exact decInt_eq_none_of_later earlier whole
  · refine Option.eq_none_iff_forall_ne_some.mpr fun m matched => ?_
    have told := family_of_match form decimal matched
    have related : family f = family g := by
      by_cases decimal' : g = .decInt
      · subst decimal'
        rw [decInt_mark h] at told
        exact (Option.some.inj told).symm
      · exact Option.some.inj (told.symm.trans (family_of_match form' decimal' whole))
    rw [relative_eq_none earlier related h] at matched
    cases matched

/-- The production of a form is a rule, and a token if its group has a rule of its own. -/
theorem form_rule {group : FormGroup} (member : group ∈ valueGroups) (form : f ∈ group.forms) :
    ∃ kind body, production f = .rule f kind body ∧ kind.makesNode .spaced = true ∧
      (group.rule? ≠ none → kind = .token) := by
  simp only [valueGroups, List.mem_cons, List.not_mem_nil, or_false] at member
  rcases member with rfl | rfl | rfl | rfl | rfl | rfl | rfl
  all_goals
    simp only [List.mem_cons, List.not_mem_nil, or_false] at form
    rcases form with rfl | rfl | rfl | rfl
    all_goals exact ⟨_, _, rfl, rfl, by simp⟩

/-- A form takes the same texts in its group and alone. -/
theorem form_inside {group : FormGroup} (member : group ∈ valueGroups) (form : f ∈ group.forms)
    (depth : Nat) :
    matcher depth (production f) group.inside = matcher depth (production f) .spaced := by
  obtain ⟨kind, body, rule, _, token⟩ := form_rule member form
  rw [rule, FormGroup.inside]
  cases wrapped : group.rule? with
  | none => rfl
  | some r =>
    obtain rfl := token (by simp [wrapped])
    rfl

theorem form_node {group : FormGroup} (member : group ∈ valueGroups) (form : f ∈ group.forms)
    (h : (matcher depth (production f)).Takes .spaced pos t x ts) :
    ∃ n, ts = [n] ∧ n.rule = f ∧ n.start = pos ∧ n.text = t := by
  obtain ⟨kind, body, rule, makes, _⟩ := form_rule member form
  rw [rule] at h
  obtain ⟨n, node⟩ := one_node h makes
  exact ⟨n, node.trees, node.rule, node.start, node.text⟩

/-- What a group takes is taken by one of its forms. -/
theorem exists_form_of_group {group : FormGroup} (member : group ∈ valueGroups)
    (h : (matcher depth group.production).Takes .spaced pos t x ts) :
    ∃ f ∈ group.forms, ∃ n, (matcher depth (production f)).Takes .spaced pos t x [n] ∧
      ts = [group.node n] := by
  have chosen : ∀ us, (matcher depth group.choice).Takes group.inside pos t x us →
      ∃ f ∈ group.forms, (matcher depth (production f)).Takes .spaced pos t x us := by
    intro us found
    obtain ⟨before, e, after, split, _, taken⟩ := Expr.parseWith_first.mp found
    obtain ⟨f, form, rfl⟩ : ∃ f ∈ group.forms, production f = e :=
      List.mem_map.mp (split ▸ by simp)
    refine ⟨f, form, ?_⟩
    rw [Matcher.Takes, ← form_inside member form]
    exact taken
  rw [FormGroup.production] at h
  cases wrapped : group.rule? with
  | none =>
    rw [wrapped] at h
    obtain ⟨f, form, taken⟩ := chosen ts (by rwa [FormGroup.inside, wrapped])
    obtain ⟨n, rfl, _⟩ := form_node member form taken
    exact ⟨f, form, n, taken, by rw [FormGroup.node, wrapped]⟩
  | some r =>
    rw [wrapped] at h
    obtain ⟨us, found, rfl⟩ := Expr.takes_rule.mp h
    obtain ⟨f, form, taken⟩ := chosen us (by rwa [FormGroup.inside, wrapped])
    obtain ⟨n, rfl, _, start, text⟩ := form_node member form taken
    exact ⟨f, form, n, taken, by rw [FormGroup.node, wrapped, start, text]; rfl⟩

/-- A group takes what one of its forms takes, if no earlier form matches there. -/
theorem group_takes_of_form {group : FormGroup} (member : group ∈ valueGroups)
    {before after : List Rule} {n : Peg.Tree Rule} (split : group.forms = before ++ f :: after)
    (earlier : ∀ f' ∈ before, matcher depth (production f') .spaced pos (t ++ x) = none)
    (h : (matcher depth (production f)).Takes .spaced pos t x [n]) :
    (matcher depth group.production).Takes .spaced pos t x [group.node n] := by
  have form : f ∈ group.forms := by simp [split]
  have chosen : (matcher depth group.choice).Takes group.inside pos t x [n] := by
    refine Expr.parseWith_first.mpr ⟨before.map production, production f, after.map production,
      by rw [split]; simp, ?_, ?_⟩
    · simp only [List.forall_mem_map]
      intro f' front
      rw [← earlier f' front, ← form_inside member (by simp [split, front])]
    · have taken := h
      rwa [Matcher.Takes, ← form_inside member form] at taken
  rw [FormGroup.production]
  cases wrapped : group.rule? with
  | none =>
    rw [FormGroup.inside, wrapped] at chosen
    rwa [FormGroup.node, wrapped]
  | some r =>
    obtain ⟨n', same, _, start, text⟩ := form_node member form h
    obtain rfl : n = n' := by simpa using same
    rw [FormGroup.inside, wrapped] at chosen
    exact Expr.takes_rule.mpr ⟨_, chosen, by rw [FormGroup.node, wrapped, start, text]; rfl⟩

theorem group_eq_none {group : FormGroup} (member : group ∈ valueGroups)
    (nothing : ∀ f ∈ group.forms, matcher depth (production f) .spaced pos t = none) :
    matcher depth group.production .spaced pos t = none := by
  refine Option.eq_none_iff_forall_ne_some.mpr fun m found => ?_
  obtain ⟨f, form, n, taken, _⟩ :=
    exists_form_of_group member ((Expr.parseWith_covers (covers depth) _ _).takes found)
  rw [Matcher.Takes, (matcher_covers found).split, nothing f form] at taken
  cases taken

/-- What is taken as a value is taken by one of its forms. -/
theorem exists_form (h : (matcher depth value).Takes .spaced pos t x ts) :
    ∃ group ∈ valueGroups, ∃ f ∈ group.forms, ∃ n,
      (matcher depth (production f)).Takes .spaced pos t x [n] ∧
      ts = [.node .value pos t [group.node n]] := by
  rw [value_eq_first] at h
  obtain ⟨us, found, rfl⟩ := Expr.takes_rule.mp h
  obtain ⟨before, e, after, split, _, taken⟩ := Expr.parseWith_first.mp found
  obtain ⟨group, member, rfl⟩ : ∃ group ∈ valueGroups, group.production = e :=
    List.mem_map.mp (split ▸ by simp)
  obtain ⟨f, form, n, formTaken, rfl⟩ := exists_form_of_group member taken
  exact ⟨group, member, f, form, n, formTaken, rfl⟩

/-- What a form takes as a whole is a value of this form. -/
theorem value_takes_of_form {group : FormGroup} (member : group ∈ valueGroups)
    (form : f ∈ group.forms) {n : Peg.Tree Rule}
    (h : (matcher depth (production f)).Takes .spaced pos t [] [n]) :
    (matcher depth value).Takes .spaced pos t [] [.node .value pos t [group.node n]] := by
  obtain ⟨groups, groups', allGroups⟩ := List.append_of_mem member
  obtain ⟨before, after, split⟩ := List.append_of_mem form
  have all : valueForms = groups.flatMap (·.forms) ++
      (before ++ f :: after ++ groups'.flatMap (·.forms)) := by
    rw [valueForms, allGroups, List.flatMap_append, List.flatMap_cons, split]
  have earlier : ∀ f' ∈ groups.flatMap (·.forms) ++ before,
      matcher depth (production f') .spaced pos t = none := by
    intro f' front
    refine earlier_eq_none ?_ h
    have ordered : [f', f].Sublist ((groups.flatMap (·.forms) ++ before) ++
        (f :: after ++ groups'.flatMap (·.forms))) :=
      (List.singleton_sublist.mpr front).append (List.singleton_sublist.mpr (by simp))
    rw [all]
    simpa using ordered
  rw [value_eq_first]
  refine Expr.takes_rule.mpr ⟨_, Expr.parseWith_first.mpr ⟨groups.map FormGroup.production,
    group.production, groups'.map FormGroup.production, by rw [allGroups]; simp, ?_, ?_⟩, rfl⟩
  · simp only [List.forall_mem_map, List.append_nil]
    intro group' front
    refine group_eq_none (by simp [allGroups, front]) fun f' inGroup => earlier f' ?_
    exact List.mem_append_left _ (List.mem_flatMap.mpr ⟨group', front, inGroup⟩)
  · refine group_takes_of_form member split (fun f' front => ?_) h
    rw [List.append_nil]
    exact earlier f' (List.mem_append_right _ front)

end Verbatim.Toml
