import Verbatim.Document.Build
import Verbatim.Proofs.Text.Escapes
import Verbatim.Proofs.Toml.Strings

/-!
# What stands between quotes

A string is its delimiter, its content and its delimiter again, and the content holds no delimiter
but behind a backslash that protects it (`writes_of_form`). In the strings of one line the same is
true of line breaks. A text that no turn of the repetition starts with does not stand where a turn
starts (`not_prefix_of_turns`), and turns start where no escape is cut.
-/

namespace Verbatim

namespace StringStyle

/-- Whether a backslash protects the character behind it. -/
def escapes : StringStyle → Bool
  | basic | multiLineBasic => true
  | literal | multiLineLiteral => false

/-- Whether a string in the style stands on one line. -/
def onOneLine : StringStyle → Bool
  | basic | literal => true
  | multiLineBasic | multiLineLiteral => false

/-- A string in a style, with what stands between its delimiters. -/
structure Writes (style : StringStyle) (w content : List Char) : Prop where
  delimited : w = style.delimiter ++ (content ++ style.delimiter)
  /-- No backslash at the end of the content protects the delimiter behind it. -/
  whole : style.escapes = true → Text.Whole content
  /-- The content does not end the string. -/
  delimiter : ¬ Text.Occurs style.escapes style.delimiter content
  /-- On one line, no line break stands in the content but behind a backslash that protects it. -/
  breaks : style.onOneLine = true → ∀ c, Text.isLineEnd c = true →
    ¬ Text.Occurs style.escapes [c] content

/-- A literal string of one line has no line break in it. -/
theorem Writes.oneLine {w content : List Char} (h : literal.Writes w content) :
    Text.OneLine w := by
  have inside : Text.OneLine content := by
    intro c member
    by_contra ends
    exact h.breaks rfl c (by simpa using ends) (Text.occurs_of_mem member)
  have quote : Text.OneLine literal.delimiter := by
    intro c member
    obtain rfl := List.mem_singleton.mp member
    rfl
  rw [h.delimited]
  exact quote.append (inside.append quote)

/-- In a basic string of one line, each line break is escaped. -/
theorem Writes.breaksEscaped {w content : List Char} (h : basic.Writes w content) :
    Text.BreaksEscaped content := by
  intro front c back split ends
  rcases (h.whole rfl).in_front split with whole | escaped
  · exact absurd ⟨front, back, split, fun _ => whole⟩ (h.breaks rfl c ends)
  · exact escaped

/-- A text in quotes that stands on one line, or in double quotes with its line breaks escaped. -/
def HoldsLine (w : List Char) : Prop :=
  Text.OneLine w ∨ ∃ content, w = basic.delimiter ++ (content ++ basic.delimiter) ∧
    Text.BreaksEscaped content

theorem Writes.holdsLine {style : StringStyle} {w content : List Char}
    (h : style.Writes w content) (line : style.onOneLine = true) : HoldsLine w := by
  cases style with
  | basic => exact Or.inr ⟨content, h.delimited, h.breaksEscaped⟩
  | literal => exact Or.inl h.oneLine
  | multiLineBasic => cases line
  | multiLineLiteral => cases line

end StringStyle

namespace Toml

open Peg Grammar Text

variable {depth : Nat} {mode : Mode} {pos : Nat} {s t w x y : List Char} {m : Match Rule}
  {ts : List (Peg.Tree Rule)} {escapes : Bool} {close : List Char} {unit tail stop : Production}
  {style : StringStyle} {f : Rule}

/-! ### One turn -/

/-- A character, or a backslash with the character that it protects. -/
def IsTurn (escapes : Bool) (u : List Char) : Prop :=
  (∃ c, u = [c] ∧ (escapes = true → c ≠ '\\')) ∨ escapes = true ∧ ∃ c, u = ['\\', c]

/-- Each turn in front of other text is a character or an escape. -/
structure Turns (escapes : Bool) (unit : Production) : Prop where
  consumes : unit.consumes = true
  isTurn : ∀ {depth pos w y ts}, (matcher depth unit).Takes .token pos w y ts → y ≠ [] →
    IsTurn escapes w

theorem takes_unescaped (h : (matcher depth (unescaped stop)).Takes .token pos w y ts) :
    ∃ c, w = [c] := by
  obtain ⟨front, rest, _, _, rfl, _, nothing, taken⟩ :=
    Expr.takes_seq_tight (covers depth) tight_token h
  obtain ⟨_, empty⟩ := Expr.parseWith_absent.mp nothing
  obtain ⟨c, behind, _, _, same⟩ := Expr.parseWith_char.mp taken
  obtain rfl : front = [] := congrArg Match.text empty
  obtain rfl : rest = [c] := congrArg Match.text same
  exact ⟨c, rfl⟩

theorem turns_unescaped (stop : Production) : Turns false (unescaped stop) where
  consumes := rfl
  isTurn taken _ := by
    obtain ⟨c, rfl⟩ := takes_unescaped taken
    exact Or.inl ⟨c, rfl, nofun⟩

/-- In front of other text a backslash is always taken with the character behind it. -/
theorem turns_escaped (stop : Production) : Turns true (.alt escaped (unescaped stop)) where
  consumes := rfl
  isTurn := by
    intro depth pos w y ts h more
    rcases Expr.takes_alt.mp h with taken | ⟨nothing, taken⟩
    · obtain ⟨front, rest, _, _, rfl, _, backslash, any⟩ :=
        Expr.takes_seq_tight (covers depth) tight_token taken
      obtain ⟨rfl, _⟩ := Expr.takes_word.mp backslash
      obtain ⟨c, behind, _, _, same⟩ := Expr.parseWith_char.mp any
      obtain rfl : rest = [c] := congrArg Match.text same
      exact Or.inr ⟨rfl, c, rfl⟩
    · obtain ⟨c, rfl⟩ := takes_unescaped taken
      refine Or.inl ⟨c, rfl, fun _ backslash => ?_⟩
      subst backslash
      obtain ⟨d, y, rfl⟩ := List.exists_cons_of_ne_nil more
      have found : matcher depth escaped .token pos ('\\' :: d :: y) = some ⟨['\\', d], [], y⟩ := by
        simp [escaped, Expr.all, lit, Expr.any, Expr.parseWith, thenMatch, skip]
      exact Option.some_ne_none _ (found.symm.trans nothing)

/-- A character at which a string stops is no turn of it. -/
theorem escaped_refuses {c : Char} (plain : c ≠ '\\')
    (stops : ∀ s, (matcher depth stop .token pos (c :: s)).isSome = true) (s : List Char) :
    matcher depth (.alt escaped (unescaped stop)) .token pos (c :: s) = none := by
  have differs : ¬ '\\' = c := fun same => plain same.symm
  have nothing : matcher depth (unescaped stop) .token pos (c :: s) = none := by
    rw [← outcome_eq_none, outcome_unescaped, stops]
    rfl
  simpa [escaped, Expr.all, lit, Expr.parseWith, thenMatch, differs] using nothing

theorem unescaped_refuses {c : Char}
    (stops : ∀ s, (matcher depth stop .token pos (c :: s)).isSome = true) (s : List Char) :
    matcher depth (unescaped stop) .token pos (c :: s) = none := by
  rw [← outcome_eq_none, outcome_unescaped, stops]
  rfl

/-! ### All turns -/

/-- What holds of no turns, and of a turn in front of others, holds of all turns of a repetition
without blanks. -/
theorem star_induction {P : List Char → Prop} (consumes : unit.consumes = true)
    (h : (matcher depth (.star unit)).Takes .token pos w x ts) (nil : P [])
    (turn : ∀ pos u v ts, (matcher depth unit).Takes .token pos u (v ++ x) ts → P v → P (u ++ v)) :
    P w := by
  have turns := star_repeats consumes (skip_of_ne_spaced tight_token _) h
  have inside : ∀ {pos s m}, Repeats grammar.blank (matcher depth unit) .token pos s m →
      m.rest = x → P m.text := by
    intro pos s m repeats ended
    induction repeats with
    | stop _ => exact nil
    | @turn pos s here more found later ih =>
      have split := Repeats.split (Expr.parseWith_covers (covers depth) unit .token) later
      have taken := (Expr.parseWith_covers (covers depth) unit .token).takes found
      rw [← split, ended] at taken
      have all := turn _ _ _ _ taken (ih ended)
      simpa [skip] using all
  exact inside turns rfl

/-- The turns in front of other text cut no escape. -/
theorem whole_of_turns (turns : Turns true unit)
    (h : (matcher depth (.star unit)).Takes .token pos w x ts) (some_rest : x ≠ []) : Whole w := by
  refine star_induction (P := Whole) turns.consumes h .nil fun pos u v ts taken more => ?_
  obtain ⟨c, rfl, plain⟩ | ⟨_, c, rfl⟩ := turns.isTurn taken (by simp [some_rest])
  · exact .char (plain rfl) more
  · exact .escape c more

/-- A text that no turn starts with does not start inside the turns, unless it is protected. -/
theorem not_prefix_of_turns (turns : Turns escapes unit)
    (refuses : ∀ pos z, matcher depth unit .token pos (t ++ z) = none)
    (h : (matcher depth (.star unit)).Takes .token pos w x ts) (some_rest : x ≠ [])
    {front back : List Char} (split : w = front ++ back) (some_back : back ≠ [])
    (whole : escapes = true → Whole front) : ¬ t <+: back ++ x := by
  revert front back
  refine star_induction (P := fun w => ∀ {front back}, w = front ++ back → back ≠ [] →
    (escapes = true → Whole front) → ¬ t <+: back ++ x) turns.consumes h ?_ ?_
  · intro front back split some_back _
    exact absurd (List.append_eq_nil_iff.mp split.symm).2 some_back
  · intro pos u v ts taken ih front back split some_back whole
    cases front with
    | nil =>
      rintro ⟨z, starts⟩
      obtain rfl : u ++ v = back := split
      rw [List.append_assoc] at starts
      exact Option.some_ne_none _ (taken.symm.trans (starts ▸ refuses pos z))
    | cons c front =>
      -- the turn is the first character of the front part, or its first two
      obtain ⟨d, rfl, plain⟩ | ⟨escaping, d, rfl⟩ := turns.isTurn taken (by simp [some_rest])
      · obtain ⟨rfl, behind⟩ := List.cons.inj split
        refine ih behind some_back fun escaping => ?_
        cases whole escaping with
        | char _ more => exact more
        | escape e more => exact absurd rfl (plain escaping)
      · obtain ⟨rfl, behind⟩ := List.cons.inj split
        cases whole escaping with
        | char plain _ => exact absurd rfl plain
        | @escape e front more =>
          exact ih (List.cons.inj behind).2 some_back fun _ => more

/-- What ends a string of one line, its quotes or a line break, does not stand in its content. -/
theorem not_occurs_of_char {c : Char} (turns : Turns escapes unit)
    (refuses : ∀ pos z, matcher depth unit .token pos (c :: z) = none)
    (h : (matcher depth (.star unit)).Takes .token pos w x ts) (some_rest : x ≠ []) :
    ¬ Occurs escapes [c] w := by
  rintro ⟨front, back, split, whole⟩
  exact not_prefix_of_turns (t := [c]) turns refuses h some_rest split (List.cons_ne_nil _ _) whole
    (List.prefix_append [c] (back ++ x))

/-- The quotes in front of the closing ones belong to the content, and make no delimiter with what
stands in front of them. -/
theorem not_occurs_of_quotes {close extra : List Char} (turns : Turns escapes unit)
    (refuses : ∀ pos z, matcher depth unit .token pos (close ++ z) = none)
    (h : (matcher depth (.star unit)).Takes .token pos w (close ++ extra ++ x) ts)
    (short : extra.length < close.length) (swap : close ++ extra = extra ++ close) :
    ¬ Occurs escapes close (w ++ extra) := by
  rintro ⟨front, back, split, whole⟩
  have some_rest : close ++ extra ++ x ≠ [] := by
    intro empty
    simp only [List.append_eq_nil_iff] at empty
    simp [empty] at short
  rcases List.append_eq_append_iff.mp split with ⟨a, _, few⟩ | ⟨b, rfl, behind⟩
  · have long := congrArg List.length few
    simp only [List.length_append] at long
    omega
  · have some_back : b ≠ [] := by
      rintro rfl
      have long := congrArg List.length behind
      simp only [List.length_append, List.length_nil] at long
      omega
    refine not_prefix_of_turns turns refuses h some_rest rfl some_back whole
      ⟨back ++ (close ++ x), ?_⟩
    rw [swap, List.append_assoc, ← List.append_assoc b, ← behind, List.append_assoc]

/-! ### Strings of each style -/

/-- A string between two quotes. -/
theorem writes_quoted {quote : Char} (turns : Turns style.escapes unit)
    (delimiter : style.delimiter = [quote])
    (refuses : ∀ c, c = quote ∨ isLineEnd c = true → ∀ depth pos z,
      matcher depth unit .token pos (c :: z) = none)
    (h : (matcher depth (.seq (.word [quote]) (.seq (.star unit) (.word [quote])))).Takes .token
      pos w x ts) : ∃ content, style.Writes w content := by
  obtain ⟨body, last, _, _, _, _, rfl, inside, closing⟩ := takes_delimited h
  obtain ⟨rfl, _⟩ := Expr.takes_word.mp closing
  have absent : ∀ c, c = quote ∨ isLineEnd c = true → ¬ Occurs style.escapes [c] body :=
    fun c ends => not_occurs_of_char turns (refuses c ends depth) inside (by simp)
  refine ⟨body, by rw [delimiter], fun escaping => ?_, delimiter ▸ absent quote (Or.inl rfl),
    fun _ c ends => absent c (Or.inr ends)⟩
  exact whole_of_turns (escaping ▸ turns) inside (by simp)

/-- A string between three quotes on either side, with up to two more in front of the closing
ones. -/
theorem writes_mlQuoted {quote : Char} (turns : Turns style.escapes unit)
    (delimiter : style.delimiter = [quote, quote, quote]) (lines : style.onOneLine = false)
    (plain : quote ≠ '\\')
    (isUnit : IsUnit [quote, quote, quote] unit)
    (h : (matcher depth (.seq (.word [quote, quote, quote]) (.seq (.star unit)
      (closingQuotes quote)))).Takes .token pos w x ts) : ∃ content, style.Writes w content := by
  obtain ⟨body, last, _, _, _, _, rfl, inside, closing⟩ := takes_delimited h
  obtain ⟨n, few, rfl⟩ := takes_closingQuotes closing
  have swap : [quote, quote, quote] ++ List.replicate n quote =
      List.replicate n quote ++ [quote, quote, quote] := by
    have three : [quote, quote, quote] = List.replicate 3 quote := rfl
    rw [three, List.replicate_append_replicate, List.replicate_append_replicate, Nat.add_comm]
  have quotes : Whole (List.replicate n quote) := by
    clear few swap inside closing h
    induction n with
    | zero => exact .nil
    | succ n ih => exact .char plain ih
  refine ⟨body ++ List.replicate n quote, ?_, fun escaping => ?_, ?_, ?_⟩
  · rw [delimiter, swap, List.append_assoc body]
  · exact (whole_of_turns (escaping ▸ turns) inside (by simp)).append quotes
  · rw [delimiter]
    refine not_occurs_of_quotes turns (isUnit.closing depth) inside ?_ swap
    simp only [List.length_replicate, List.length_cons, List.length_nil]
    omega
  · rw [lines]
    rintro ⟨⟩

/-- A string of each form is written in the style of the form. -/
theorem writes_of_form (styled : Build.stringStyle? f = some style)
    (h : (matcher depth (production f)).Takes mode pos w x ts) :
    ∃ content, style.Writes w content := by
  cases f <;> cases styled
  case basicString =>
    obtain ⟨_, inside, _⟩ := Expr.takes_rule.mp h
    refine writes_quoted (turns_escaped _) rfl (fun c ends depth pos z => ?_) inside
    refine escaped_refuses ?_ (fun s => (isSome_stop depth pos c s).trans ?_) z
    · rintro rfl
      revert ends
      decide
    · rcases ends with rfl | ends <;> simp [*]
  case mlBasicString =>
    obtain ⟨_, inside, _⟩ := Expr.takes_rule.mp h
    exact writes_mlQuoted (turns_escaped _) rfl rfl (by decide) isUnit_mlBasic inside
  case literalString =>
    obtain ⟨_, inside, _⟩ := Expr.takes_rule.mp h
    refine writes_quoted (turns_unescaped _) rfl (fun c ends depth pos z => ?_) inside
    refine unescaped_refuses (fun s => (isSome_literalStop depth pos c s).trans ?_) z
    rcases ends with rfl | ends <;> simp [*]
  case mlLiteralString =>
    obtain ⟨_, inside, _⟩ := Expr.takes_rule.mp h
    exact writes_mlQuoted (turns_unescaped _) rfl rfl (by decide) isUnit_mlLiteral inside

/-- A key in quotes is a string of one line. -/
theorem writes_of_quotedKey (h : (matcher depth quotedKey).Takes mode pos w x ts) :
    ∃ style content, style.onOneLine = true ∧ StringStyle.Writes style w content := by
  obtain ⟨_, inside, _⟩ := Expr.takes_rule.mp h
  rcases Expr.takes_alt.mp inside with taken | ⟨_, taken⟩
  · obtain ⟨content, writes⟩ := writes_of_form (f := .basicString) rfl taken
    exact ⟨.basic, content, rfl, writes⟩
  · obtain ⟨content, writes⟩ := writes_of_form (f := .literalString) rfl taken
    exact ⟨.literal, content, rfl, writes⟩

end Toml

end Verbatim
