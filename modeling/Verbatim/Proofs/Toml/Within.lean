import Verbatim.Proofs.Peg.Within
import Verbatim.Proofs.Toml.Line

/-!
# Failures within pairs and headers

Whatever stands behind a pair or a header, no failure is reported behind its end while it is matched
(`inside_lineContent`). Scalars and the parts of keys only fail at their own start. The
other failures are those of a key, a value or a pair that is tried where a bracket closes, and these
lie in front of the bracket.
-/

namespace Verbatim.Toml

open Peg Grammar Text

variable {depth : Nat} {mode : Mode} {pos limit : Nat} {s w x : List Char}
  {ts : List (Peg.Tree Rule)}

/-- The failures of a production where values are nested at most to a depth. -/
abbrev tracker (depth : Nat) (e : Production) : Tracker Rule :=
  e.attemptsWith grammar.blank (grammar.nestedMatcher depth) (grammar.nestedTracker depth)

/-- All failures of a production lie within what it takes, if the text behind is of a kind. -/
abbrev Inside (depth : Nat) (e : Production) (mode : Mode) (P : List Char → Prop) : Prop :=
  (tracker depth e).Inside grammar.blank (matcher depth e) mode P

/-- The recursive expression is a value, nested one level less. -/
theorem tracker_nested (depth : Nat) : tracker (depth + 1) .nested = tracker depth value := by
  show grammar.nestedTracker (depth + 1) = _
  rw [Peg.Grammar.nestedTracker]
  rfl

/-- Any text behind. -/
abbrev Anything : List Char → Prop := fun _ => True

/-! ### Keys -/

/-- Behind a key, the search for one more part reports nothing. -/
theorem attempts_dottedPart (behind : KeyEnd x) (pos : Nat) (known : Attempts Rule) :
    tracker depth dottedPart .adjacent pos x known = known := by
  obtain ⟨blanks, found⟩ : ∃ blanks, matcher depth keyBlanks .adjacent pos x = some blanks :=
    ⟨_, rfl⟩
  have noDot : ∀ pos', matcher depth (lit ".") .adjacent pos' blanks.rest = none := by
    intro pos'
    rw [Option.eq_none_iff_forall_ne_some]
    intro m dot
    obtain ⟨rest, split, _⟩ := Expr.parseWith_word.mp dot
    have cut := (matcher_covers found).split
    rw [split] at cut
    exact KeyEnd.not_dot (keyBlanks_match found) (cut ▸ behind)
  calc tracker depth dottedPart .adjacent pos x known
    _ = _ := Expr.attempts_seq found known
    _ = _ := Expr.attempts_seq_eq (noDot _) _
    _ = tracker depth keyBlanks .adjacent pos x known := rfl
    _ = known := Expr.attempts_of_quiet rfl pos x known

theorem inside_dottedKey : Inside depth dottedKey .spaced KeyEnd := by
  have part : Inside depth dottedPart .adjacent Anything :=
    Expr.inside_seq_any (covers depth) (Expr.inside_of_shallow rfl)
      (Expr.inside_seq_any (covers depth) (Expr.inside_of_shallow rfl)
        (Expr.inside_seq_any (covers depth) (Expr.inside_of_shallow rfl)
          (Expr.inside_of_shallow rfl)))
  have more : Inside depth (.star dottedPart) .adjacent KeyEnd :=
    Expr.inside_star (productive depth) rfl part fun pos x known behind =>
      attempts_dottedPart behind pos known
  exact Expr.inside_rule (Expr.inside_seq_any (covers depth) (Expr.inside_of_shallow rfl)
    (Expr.inside_seq_any (covers depth) part more))

theorem inside_key : Inside depth key .spaced KeyEnd := by
  refine Expr.inside_rule (Expr.inside_alt inside_dottedKey (Expr.inside_of_shallow rfl) ?_)
  intro pos w x ts behind _ taken
  refine Expr.within_rule ?_ (Nat.le_add_right ..)
  have first : (matcher depth simpleKey).Takes .adjacent pos w ([] ++ x) ts := taken
  refine Expr.within_seq first rfl (Expr.within_of_shallow rfl _ (Nat.le_add_right ..)) ?_
  have silent : ∀ pos',
      (tracker depth dottedPart).Within .adjacent pos' x (pos + byteLength w) := by
    intro pos' known
    rw [attempts_dottedPart behind]
    exact .refl _ known
  exact Expr.within_seq_of_none (behind.dottedPart_eq_none depth _) (silent _)

/-- Where no key starts, nothing behind that place is tried. -/
theorem within_key (front : ∀ c, s.head? = some c → ¬ (bareChar c = true ∨ c = '"' ∨ c = '\''))
    (near : pos ≤ limit) : (tracker depth key).Within .spaced pos s limit := by
  have nothing : matcher depth simpleKey .adjacent pos s = none :=
    Expr.eq_none_of_startsIn (covers depth) key_startsIn.2 front
  have dotted : (tracker depth dottedKey).Within .spaced pos s limit :=
    Expr.within_rule (Expr.within_seq_of_none nothing (Expr.within_of_shallow rfl s near)) near
  exact Expr.within_rule
    (Expr.within_alt dotted fun _ => Expr.within_of_shallow rfl s near) near

theorem within_keyValue
    (front : ∀ c, s.head? = some c → ¬ (bareChar c = true ∨ c = '"' ∨ c = '\''))
    (near : pos ≤ limit) : (tracker depth keyValue).Within .spaced pos s limit :=
  have nothing : matcher depth key .spaced pos s = none :=
    Expr.eq_none_of_startsIn (covers depth) key_startsIn front
  Expr.within_rule (Expr.within_seq_of_none nothing (within_key front near)) near

theorem not_key_of_closes {c : Char} (h : isIndent c = true ∨ c = '\x7d' ∨ c = '[') :
    ¬ (bareChar c = true ∨ c = '"' ∨ c = '\'') := by
  rcases h with blank | rfl | rfl
  · rintro (bare | rfl | rfl)
    · rw [not_bareChar_of_isIndent blank] at bare
      cases bare
    · cases blank
    · cases blank
  · decide
  · decide

/-! ### Where no value starts -/

theorem lit_eq_none {text : String} (absent : ¬ text.toList <+: s) :
    matcher depth (lit text) mode pos s = none := by
  rw [← List.isPrefixOf_iff_prefix, Bool.not_eq_true] at absent
  simp [lit, Expr.parseWith, absent]

/-- A text in brackets is not entered without its first bracket. -/
theorem within_bracket {name : Rule} {first : String} {e : Production}
    (nothing : ¬ first.toList <+: s) (near : pos ≤ limit) :
    (tracker depth (.rule name .plain (.seq (lit first) e))).Within mode pos s limit := by
  exact Expr.within_rule
    (Expr.within_seq_of_none (lit_eq_none nothing) (Expr.within_of_quiet rfl pos s limit)) near

theorem not_prefix_of_head? {c : Char} (apart : s.head? ≠ some c) : ¬ [c] <+: s := by
  rintro ⟨rest, rfl⟩
  exact apart rfl

/-- Behind spaces and tabs a closing bracket stands. -/
theorem ahead_bracket {gap : List Char} {c : Char} (indents : Indents gap)
    (visible : isIndent c = false) : Ahead (· = c) (gap ++ c :: x) :=
  Ahead.indents indents (Ahead.of_head? fun d first => by
    obtain rfl : c = d := Option.some.inj first
    exact ⟨rfl, visible⟩)

/-- Where a value is closed, nothing behind that place is tried. -/
theorem within_nested (front : ∀ c, s.head? = some c → closesValue c = true)
    (near : pos ≤ limit) : (tracker depth .nested).Within .spaced pos s limit := by
  cases depth with
  | zero => exact .refl limit
  | succ depth =>
    have scalar : ∀ {e : Production}, e.shallow .spaced = true →
        (tracker depth e).Within .spaced pos s limit := fun h => Expr.within_of_shallow h s near
    have array : (tracker depth array).Within .spaced pos s limit :=
      within_bracket (not_prefix_of_head? fun first => nomatch front '[' first) near
    have table : (tracker depth inlineTable).Within .spaced pos s limit :=
      within_bracket (not_prefix_of_head? fun first => nomatch front '\x7b' first) near
    have value : (tracker depth value).Within .spaced pos s limit :=
      Expr.within_rule (Expr.within_alt (scalar rfl) fun _ => Expr.within_alt (scalar rfl) fun _ =>
        Expr.within_alt (scalar rfl) fun _ => Expr.within_alt (scalar rfl) fun _ =>
          Expr.within_alt (scalar rfl) fun _ => Expr.within_alt array fun _ => table) near
    rw [tracker_nested]
    exact value

/-! ### Values -/

section Nested

variable (recursive : Inside depth .nested .spaced Anything)

include recursive

theorem inside_nextValue : Inside depth nextValue .spaced Anything :=
  Expr.inside_seq_any (covers depth) (Expr.inside_of_shallow rfl)
    (Expr.inside_seq_any (covers depth) (Expr.inside_of_shallow rfl)
      (Expr.inside_seq_any (covers depth) recursive (Expr.inside_of_shallow rfl)))

omit recursive in
/-- Behind the last value of an array one more is tried, at the latest where the array is closed. -/
theorem within_nextValue (taken : (matcher depth lastComma).Takes .spaced pos w x ts)
    (closed : Ahead (· = ']') x)
    (room : pos + byteLength w + byteLength (skip grammar.blank .spaced x).1 ≤ limit) :
    (tracker depth nextValue).Within .spaced pos (w ++ x) limit := by
  rcases Expr.takes_opt.mp taken with matched | ⟨_, rfl, _⟩
  · obtain ⟨sign, gap, u, _, _, rfl, _, cut, sign_taken, trivia⟩ :=
      (Expr.takes_seq (covers depth)).mp matched
    have split := skip_append grammar.blank .spaced x
    have closes : ∀ c, (skip grammar.blank .spaced x).2.head? = some c → closesValue c = true := by
      intro c first
      rw [closed c first]
      rfl
    simp only [byteLength_append] at room
    have last : (tracker depth (.seq .nested arrayTrivia)).Within .spaced
        (pos + byteLength sign + byteLength gap + byteLength u +
          byteLength (skip grammar.blank .spaced x).1) (skip grammar.blank .spaced x).2 limit :=
      Expr.within_seq_of_none (nested_eq_none closes) (within_nested closes (by omega))
    have second : (tracker depth (.seq arrayTrivia (.seq .nested arrayTrivia))).Within .spaced
        (pos + byteLength sign + byteLength gap) (u ++ x) limit := by
      rw [← split] at trivia ⊢
      exact Expr.within_seq trivia (by rw [split]) (Expr.within_of_quiet rfl _ _ _) last
    have whole : sign ++ (gap ++ u) ++ x = sign ++ (gap ++ (u ++ x)) := by simp
    rw [whole]
    exact Expr.within_seq sign_taken cut (Expr.within_of_quiet rfl _ _ _) second
  · have apart : x.head? ≠ some ',' := by
      intro first
      rcases closed.head first with blank | same
      · cases blank
      · cases same
    exact Expr.within_seq_of_none (lit_eq_none (not_prefix_of_head? apart))
      (Expr.within_of_quiet rfl _ _ _)

/-- The values of an array are tried at the latest where the array is closed. -/
theorem within_arrayValues (taken : (matcher depth arrayValues).Takes .spaced pos w x ts)
    (front : skip grammar.blank .spaced (w ++ x) = ([], w ++ x)) (closed : Ahead (· = ']') x)
    (room : pos + byteLength w + byteLength (skip grammar.blank .spaced x).1 ≤ limit) :
    (tracker depth arrayValues).Within .spaced pos (w ++ x) limit := by
  obtain ⟨v, g₁, rest, _, _, rfl, _, cut₁, first, others⟩ :=
    (Expr.takes_seq (covers depth)).mp taken
  obtain ⟨a, g₂, rest, _, _, rfl, _, cut₂, trivia, others⟩ :=
    (Expr.takes_seq (covers depth)).mp others
  obtain ⟨turns, g₃, c, _, _, rfl, _, cut₃, more, last⟩ := (Expr.takes_seq (covers depth)).mp others
  have whole : v ++ (g₁ ++ (a ++ (g₂ ++ (turns ++ (g₃ ++ c))))) ++ x =
      v ++ (g₁ ++ (a ++ (g₂ ++ (turns ++ (g₃ ++ (c ++ x)))))) := by simp
  simp only [List.append_assoc] at cut₁ cut₂ first trivia
  simp only [byteLength_append] at room
  rw [whole] at front ⊢
  refine Expr.within_seq first cut₁ ((recursive trivial front first).mono (by omega)) ?_
  refine Expr.within_seq trivia cut₂ (Expr.within_of_quiet rfl _ _ _) ?_
  refine Expr.within_seq more cut₃ ?_ (Expr.within_of_quiet rfl _ _ _)
  refine Expr.within_star (productive depth) rfl (inside_nextValue recursive) (front_of_skip cut₂)
    more ?_ (by omega)
  simp only [cut₃]
  exact within_nextValue last closed (by omega)

/-- What stands in front of a closing bracket, up to it. -/
theorem inside_array : Inside depth array .spaced Anything := by
  have closing : Inside depth (.seq (.opt arrayValues) (lit "]")) .spaced Anything := by
    intro pos w x ts _ front taken
    obtain ⟨u, gap, b, _, _, rfl, _, cut, values, bracket⟩ :=
      (Expr.takes_seq (covers depth)).mp taken
    obtain ⟨rfl, _⟩ := Expr.takes_word.mp bracket
    have closed : Ahead (· = ']') (gap ++ ("]".toList ++ x)) :=
      ahead_bracket (indents_of_skip cut) rfl
    have whole : u ++ (gap ++ "]".toList) ++ x = u ++ (gap ++ ("]".toList ++ x)) := by simp
    rw [whole] at front ⊢
    simp only [byteLength_append]
    refine Expr.within_seq values cut ?_ (Expr.within_of_quiet rfl _ _ _)
    rcases Expr.takes_opt.mp values with found | ⟨_, rfl, _⟩
    · refine within_arrayValues recursive found front closed ?_
      simp only [cut]
      omega
    · have closes : ∀ c, (gap ++ ("]".toList ++ x)).head? = some c → closesValue c = true :=
        fun c first => ValueEnd.closes (closed.mono fun _ same => same ▸ rfl) first
      exact Expr.within_seq_of_none (nested_eq_none closes) (within_nested closes (by omega))
  exact Expr.inside_rule (Expr.inside_seq_any (covers depth) (Expr.inside_of_shallow rfl)
    (Expr.inside_seq_any (covers depth) (Expr.inside_of_shallow rfl) closing))

theorem inside_keyValue : Inside depth keyValue .spaced Anything :=
  Expr.inside_rule (Expr.inside_seq (covers depth) inside_key
    (Expr.inside_seq_any (covers depth) (Expr.inside_of_shallow rfl) recursive)
    fun _ cut taken => keyEnd_of_equals (indents_of_skip cut) taken _)

theorem inside_pairs :
    Inside depth (.seq keyValue (.star nextPair)) .spaced (Ahead (· = '\x7d')) := by
  have next : Inside depth nextPair .spaced Anything :=
    Expr.inside_seq_any (covers depth) (Expr.inside_of_shallow rfl) (inside_keyValue recursive)
  refine Expr.inside_seq_any (covers depth) (inside_keyValue recursive)
    (Expr.inside_star (productive depth) rfl next fun pos x known closed => ?_)
  have noComma : matcher depth (lit ",") .spaced pos (skip grammar.blank .spaced x).2 = none :=
    lit_eq_none (not_prefix_of_head? fun first => nomatch closed ',' first)
  exact (Expr.attempts_seq_eq noComma known).trans (Expr.attempts_of_quiet rfl _ _ _)

theorem inside_inlineTable : Inside depth inlineTable .spaced Anything := by
  have closing : Inside depth (.seq (.opt (.seq keyValue (.star nextPair))) (lit "\x7d"))
      .spaced Anything := by
    refine Expr.inside_seq (covers depth) (Expr.inside_opt (inside_pairs recursive) ?_)
      (Expr.inside_of_shallow rfl) fun _ cut bracket => ?_
    · intro pos x closed
      have front : ∀ c, x.head? = some c → ¬ (bareChar c = true ∨ c = '"' ∨ c = '\'') :=
        fun c first => not_key_of_closes ((closed.head first).imp_right .inl)
      have nothing : matcher depth keyValue .spaced pos x = none :=
        Expr.eq_none_of_startsIn (covers depth) keyValue_startsIn front
      exact Expr.within_seq_of_none nothing (within_keyValue front le_rfl)
    · obtain ⟨rfl, _⟩ := Expr.takes_word.mp bracket
      exact ahead_bracket (indents_of_skip cut) rfl
  exact Expr.inside_rule (Expr.inside_seq_any (covers depth) (Expr.inside_of_shallow rfl) closing)

omit recursive in
/-- A scalar is told from the other values at its start. -/
theorem inside_scalar_alt {e e' : Production} (scalar : e.shallow .spaced = true)
    (others : Inside depth e' .spaced Anything) : Inside depth (.alt e e') .spaced Anything :=
  Expr.inside_alt (Expr.inside_of_shallow scalar) others fun _ _ _ =>
    Expr.within_of_shallow scalar _ (Nat.le_add_right ..)

theorem inside_value : Inside depth value .spaced Anything := by
  have brackets : Inside depth (.alt array inlineTable) .spaced Anything := by
    refine Expr.inside_alt (inside_array recursive) (inside_inlineTable recursive) ?_
    intro pos w x ts _ _ table
    have brace : inlineTable.StartsIn (· = '\x7b') := ⟨'\x7b', rfl, rfl⟩
    obtain ⟨c, first, rfl⟩ := (Expr.text_startsIn brace table).append (t := x)
    exact within_bracket (not_prefix_of_head? fun same => nomatch first.symm.trans same)
      (Nat.le_add_right ..)
  exact Expr.inside_rule (inside_scalar_alt rfl (inside_scalar_alt rfl (inside_scalar_alt rfl
    (inside_scalar_alt rfl (inside_scalar_alt rfl brackets)))))

end Nested

theorem inside_nested (depth : Nat) : Inside depth .nested .spaced Anything := by
  induction depth with
  | zero =>
    intro pos w x ts _ _ taken
    cases taken
  | succ depth ih =>
    unfold Inside
    rw [tracker_nested]
    exact inside_value ih

/-! ### Headers and lines -/

theorem inside_header (front rest : String) :
    Inside depth (.seq (lit front) (.seq key (.word (']' :: rest.toList)))) .spaced Anything :=
  Expr.inside_seq_any (covers depth) (Expr.inside_of_shallow rfl)
    (Expr.inside_seq (covers depth) inside_key (Expr.inside_of_shallow rfl) fun _ cut bracket => by
      obtain ⟨rfl, _⟩ := Expr.takes_word.mp bracket
      exact KeyEnd.of_cons (indents_of_skip cut) _ (Or.inr rfl))

theorem inside_table : Inside depth table .spaced Anything :=
  Expr.inside_rule (Expr.inside_alt (Expr.inside_rule (inside_header "[[" "]"))
    (Expr.inside_rule (inside_header "[" "")) fun _ _ header =>
      within_bracket (not_double_bracket header _) (Nat.le_add_right ..))

/-- Whatever stands behind a pair or a header, no failure is reported behind its end. -/
theorem inside_lineContent : Inside depth lineContent .spaced Anything := by
  refine Expr.inside_alt (inside_keyValue (inside_nested depth)) inside_table ?_
  intro pos w x ts _ _ header
  have bracket : table.StartsIn (· = '[') := ⟨⟨'[', rfl, rfl⟩, ⟨'[', rfl, rfl⟩⟩
  obtain ⟨c, first, rfl⟩ := (Expr.text_startsIn bracket header).append (t := x)
  refine within_keyValue (fun d same => ?_) (Nat.le_add_right ..)
  obtain rfl := Option.some.inj (first.symm.trans same)
  exact not_key_of_closes (.inr (.inr rfl))

end Verbatim.Toml
