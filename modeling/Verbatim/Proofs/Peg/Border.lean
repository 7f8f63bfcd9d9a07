import Verbatim.Proofs.Peg.Spread

/-!
# The first and the last character of a match

Three questions about the matches of an expression are answered by its shape alone: whether each of
them consumes something (`Expr.consumes`), and of which class its first and its last character are
(`Expr.StartsIn`, `Expr.EndsIn`). The answers may err on the side of "no": a lookahead is not asked.
-/

namespace Verbatim

namespace Text

/-- The text has a first character, and it is of a class. -/
def StartsIn (P : Char → Prop) (s : List Char) : Prop := ∃ c, s.head? = some c ∧ P c

/-- The text has a last character, and it is of a class. -/
def EndsIn (P : Char → Prop) (s : List Char) : Prop := ∃ c, s.getLast? = some c ∧ P c

variable {P : Char → Prop} {s t : List Char}

theorem StartsIn.append (h : StartsIn P s) : StartsIn P (s ++ t) := by
  obtain ⟨c, first, member⟩ := h
  exact ⟨c, by simp [first], member⟩

theorem EndsIn.append (h : EndsIn P t) : EndsIn P (s ++ t) := by
  obtain ⟨c, last, member⟩ := h
  exact ⟨c, by simp [last], member⟩

theorem EndsIn.of_append (h : EndsIn P (s ++ t)) (some_text : t ≠ []) : EndsIn P t := by
  obtain ⟨c, last, member⟩ := h
  refine ⟨c, ?_, member⟩
  cases ends : t.getLast? with
  | none => exact absurd (List.getLast?_eq_none_iff.mp ends) some_text
  | some d => simpa [List.getLast?_append, ends] using last

theorem EndsIn.ne_nil (h : EndsIn P s) : s ≠ [] := by
  rintro rfl
  obtain ⟨c, last, _⟩ := h
  cases last

end Text

namespace Peg

variable {ρ : Type} {blank : Char → Bool} {inner : Matcher ρ} {mode : Mode} {pos : Nat}
  {s : List Char} {m : Match ρ} {P : Char → Prop}

/-! ### Matches that consume something -/

/-- Wherever it matches, a matcher splits the text and consumes some of it. -/
structure Matcher.Productive (a : Matcher ρ) : Prop where
  covers : ∀ mode, a.CoversIn mode
  progress : ∀ mode pos s m, a mode pos s = some m → m.text ≠ []

namespace Expr

/-- Whether every match consumes something. -/
def consumes : Expr ρ → Bool
  | char _ => true
  | word text => !text.isEmpty
  | seq a b => a.consumes || b.consumes
  | alt a b => a.consumes && b.consumes
  | opt _ | star _ | absent _ => false
  | rule _ _ body => body.consumes
  | nested => true

theorem text_ne_nil_of_consumes
    (recursive : ∀ mode pos s m, inner mode pos s = some m → m.text ≠ []) {e : Expr ρ}
    (h : e.consumes = true) (parsed : e.parseWith blank inner mode pos s = some m) :
    m.text ≠ [] := by
  induction e generalizing mode pos s m with
  | char member =>
    obtain ⟨c, rest, _, _, rfl⟩ := parseWith_char.mp parsed
    simp
  | word text =>
    obtain ⟨rest, _, rfl⟩ := parseWith_word.mp parsed
    simpa [consumes] using h
  | seq a b left right =>
    obtain ⟨first, second, matched, followed, rfl⟩ := parseWith_seq.mp parsed
    rw [consumes, Bool.or_eq_true] at h
    rcases h with h | h
    · simp [left h matched]
    · simp [right h followed]
  | alt a b left right =>
    rw [consumes, Bool.and_eq_true] at h
    obtain found | ⟨_, found⟩ := parseWith_alt.mp parsed
    · exact left h.1 found
    · exact right h.2 found
  | opt a _ => cases h
  | star a _ => cases h
  | absent a _ => cases h
  | rule name kind body inside =>
    obtain ⟨found, matched, rfl⟩ := parseWith_rule.mp parsed
    have some_text := inside h matched
    split <;> exact some_text
  | nested => exact recursive _ _ _ _ parsed

/-- An expression that consumes something leaves less text than it was given. -/
theorem consumesIn_of_consumes (productive : inner.Productive) {e : Expr ρ}
    (h : e.consumes = true) (mode : Mode) :
    Matcher.ConsumesIn (e.parseWith blank inner) mode := by
  intro pos s m parsed
  have split := (parseWith_covers productive.covers e mode pos s m parsed).split
  have some_text := List.length_pos_iff.mpr (text_ne_nil_of_consumes productive.progress h parsed)
  have lengths := congrArg List.length split
  rw [List.length_append] at lengths
  omega

end Expr

/-- The recursive expression of a grammar consumes something, however deeply it is entered. -/
theorem Grammar.nestedMatcher_productive {g : Grammar ρ} (consumes : g.nested.consumes = true)
    (depth : Nat) : (g.nestedMatcher depth).Productive := by
  refine ⟨g.nestedMatcher_covers depth, fun mode pos s m h => ?_⟩
  induction depth generalizing mode pos s m with
  | zero => cases h
  | succ depth ih => exact Expr.text_ne_nil_of_consumes ih consumes h

namespace Expr

/-! ### The first character -/

/-- Every match starts with a character of a class, as far as the first part of each sequence
tells. -/
def StartsIn (P : Char → Prop) : Expr ρ → Prop
  | char member => ∀ c, member c = true → P c
  | word text => Text.StartsIn P text
  | seq a _ => a.StartsIn P
  | alt a b => a.StartsIn P ∧ b.StartsIn P
  | opt _ | star _ | absent _ | nested => False
  | rule _ _ body => body.StartsIn P

/-- Characters of one class are characters of a wider one. -/
theorem StartsIn.mono {Q : Char → Prop} {e : Expr ρ} (h : e.StartsIn P) (wider : ∀ c, P c → Q c) :
    e.StartsIn Q := by
  induction e with
  | char member => exact fun c found => wider c (h c found)
  | word text =>
    obtain ⟨c, first, member⟩ := h
    exact ⟨c, first, wider c member⟩
  | seq a b left _ => exact left h
  | alt a b left right => exact ⟨left h.1, right h.2⟩
  | rule name kind body inside => exact inside h
  | opt | star | absent | nested => cases h

theorem text_startsIn {e : Expr ρ} (h : e.StartsIn P)
    (parsed : e.parseWith blank inner mode pos s = some m) : Text.StartsIn P m.text := by
  induction e generalizing mode pos s m with
  | char member =>
    obtain ⟨c, rest, _, found, rfl⟩ := parseWith_char.mp parsed
    exact ⟨c, rfl, h c found⟩
  | word text =>
    obtain ⟨rest, _, rfl⟩ := parseWith_word.mp parsed
    exact h
  | seq a b left _ =>
    obtain ⟨first, second, matched, _, rfl⟩ := parseWith_seq.mp parsed
    have front := left h matched
    exact front.append.append
  | alt a b left right =>
    obtain found | ⟨_, found⟩ := parseWith_alt.mp parsed
    · exact left h.1 found
    · exact right h.2 found
  | opt a _ => cases h
  | star a _ => cases h
  | absent a _ => cases h
  | rule name kind body inside =>
    obtain ⟨found, matched, rfl⟩ := parseWith_rule.mp parsed
    have front := inside h matched
    split <;> exact front
  | nested => cases h

/-- Nothing matches where another character stands. -/
theorem eq_none_of_startsIn (recursive : ∀ mode, inner.CoversIn mode) {e : Expr ρ}
    (h : e.StartsIn P) (apart : ∀ c, s.head? = some c → ¬ P c) :
    e.parseWith blank inner mode pos s = none := by
  rw [Option.eq_none_iff_forall_ne_some]
  intro m parsed
  obtain ⟨c, first, member⟩ := text_startsIn h parsed
  refine apart c ?_ member
  rw [← (parseWith_covers recursive e mode pos s m parsed).split]
  simp [first]

/-! ### The last character -/

/-- Every match ends in a character of a class. With `orEmpty` it may also be empty. Where blanks
are skipped, a sequence ends as its second part does only if that part is never empty: the blanks
before an empty part belong to the match. -/
def EndsIn (P : Char → Prop) : Expr ρ → Mode → (orEmpty : Bool) → Prop
  | char member, _, _ => ∀ c, member c = true → P c
  | word text, _, orEmpty => Text.EndsIn P text ∨ orEmpty = true ∧ text = []
  | seq a b, mode, orEmpty =>
    b.EndsIn P mode false ∨ mode ≠ .spaced ∧ a.EndsIn P mode orEmpty ∧ b.EndsIn P mode true
  | alt a b, mode, orEmpty => a.EndsIn P mode orEmpty ∧ b.EndsIn P mode orEmpty
  | opt a, mode, orEmpty => orEmpty = true ∧ a.EndsIn P mode true
  | star a, mode, orEmpty => orEmpty = true ∧ a.EndsIn P mode false
  | absent _, _, orEmpty => orEmpty = true
  | rule _ kind body, mode, orEmpty => body.EndsIn P (kind.inside mode) orEmpty
  | nested, _, _ => True

/-- The last character of a repetition is that of its last turn. -/
theorem repeatMatch_endsIn (blank : Char → Bool) {a : Matcher ρ} {mode : Mode}
    (part : ∀ pos s m, a mode pos s = some m → Text.EndsIn P m.text) (bound pos : Nat)
    (s : List Char) :
    Text.EndsIn P (repeatMatch blank a mode bound pos s).text ∨
      (repeatMatch blank a mode bound pos s).text = [] := by
  induction bound generalizing pos s with
  | zero => exact Or.inr rfl
  | succ bound ih =>
    simp only [repeatMatch]
    split
    · exact Or.inr rfl
    next here found =>
      rcases ih (pos + Text.byteLength (skip blank mode s).1 + Text.byteLength here.text) here.rest
        with more | none_more
      · exact Or.inl more.append
      · have last := part _ _ _ found
        left
        simpa [none_more] using last.append

theorem starMatch_endsIn {a : Matcher ρ} {mode : Mode}
    (part : ∀ pos s m, a mode pos s = some m → Text.EndsIn P m.text) (pos : Nat) (s : List Char) :
    Text.EndsIn P (starMatch blank a mode pos s).text ∨
      (starMatch blank a mode pos s).text = [] := by
  simp only [starMatch]
  split
  · exact Or.inr rfl
  next here found =>
    left
    rcases repeatMatch_endsIn blank part s.length (pos + Text.byteLength here.text) here.rest with
      more | none_more
    · exact more.append
    · have last := part _ _ _ found
      simpa [none_more] using last

theorem text_endsIn (recursive : ∀ mode pos s m, inner mode pos s = some m →
      Text.EndsIn P m.text) {e : Expr ρ} {orEmpty : Bool} (h : e.EndsIn P mode orEmpty)
    (parsed : e.parseWith blank inner mode pos s = some m) :
    Text.EndsIn P m.text ∨ orEmpty = true ∧ m.text = [] := by
  induction e generalizing mode pos s m orEmpty with
  | char member =>
    obtain ⟨c, rest, _, found, rfl⟩ := parseWith_char.mp parsed
    exact Or.inl ⟨c, rfl, h c found⟩
  | word text =>
    obtain ⟨rest, _, rfl⟩ := parseWith_word.mp parsed
    exact h
  | seq a b left right =>
    obtain ⟨first, second, matched, followed, rfl⟩ := parseWith_seq.mp parsed
    rcases h with last | ⟨tight, front, last⟩
    · rcases right last followed with ends | ⟨impossible, _⟩
      · exact Or.inl ends.append
      · cases impossible
    · rcases right last followed with ends | ⟨_, empty⟩
      · exact Or.inl ends.append
      · simp only [skip_fst_eq_nil tight, empty, List.append_nil]
        exact left front matched
  | alt a b left right =>
    obtain found | ⟨_, found⟩ := parseWith_alt.mp parsed
    · exact left h.1 found
    · exact right h.2 found
  | opt a part =>
    obtain ⟨rfl, last⟩ := h
    obtain found | ⟨_, rfl⟩ := parseWith_opt.mp parsed
    · exact part last found
    · exact Or.inr ⟨rfl, rfl⟩
  | star a part =>
    obtain ⟨rfl, last⟩ := h
    rw [parseWith_star] at parsed
    subst parsed
    have turn : ∀ pos s m, a.parseWith blank inner mode pos s = some m →
        Text.EndsIn P m.text := by
      intro pos s m found
      rcases part last found with ends | ⟨impossible, _⟩
      · exact ends
      · cases impossible
    exact (starMatch_endsIn turn pos s).imp_right fun empty => ⟨rfl, empty⟩
  | absent a _ =>
    obtain ⟨_, rfl⟩ := parseWith_absent.mp parsed
    exact Or.inr ⟨h, rfl⟩
  | rule name kind body inside =>
    obtain ⟨found, matched, rfl⟩ := parseWith_rule.mp parsed
    have last := inside h matched
    split <;> exact last
  | nested => exact Or.inl (recursive _ _ _ _ parsed)

end Expr

end Peg

end Verbatim
