import Verbatim.Proofs.Toml.Scalar

/-!
# Strings in front of other text

A string ends at its closing quotes, whatever stands behind them, unless that is one more quote
(`keeps_string`). Each of the four forms is an opening text, characters and escapes up to the
closing quotes (`IsUnit`), and the closing quotes. Which form a string has is told by its first
quotes alone.
-/

namespace Verbatim.Toml

open Peg Grammar Text

variable {depth : Nat} {mode : Mode} {pos : Nat} {s w x y : List Char} {m : Match Rule}
  {ts : List (Peg.Tree Rule)} {close : List Char} {unit tail stop : Production}

/-! ### Characters and escapes -/

/-- A character or an escape in a string that ends at its closing quotes: there it does not match,
and in front of them it does not matter what stands behind. -/
structure IsUnit (close : List Char) (unit : Production) : Prop where
  consumes : unit.consumes = true
  closing : ∀ depth pos x, matcher depth unit .token pos (close ++ x) = none
  settled : ∀ depth pos pos' c q x y,
    outcome (matcher depth unit .token pos (c :: (q ++ (close ++ x)))) =
      outcome (matcher depth unit .token pos' (c :: (q ++ (close ++ y))))

/-- Any character, where something else does not stand. -/
abbrev unescaped (stop : Production) : Production := .seq (.absent stop) .any

theorem outcome_unescaped (c : Char) (s : List Char) :
    outcome (matcher depth (unescaped stop) .token pos (c :: s)) =
      if (matcher depth stop .token pos (c :: s)).isSome then none else some ([c], []) := by
  rw [matcher, Expr.parseWith_absent_seq rfl]
  split
  · rfl
  · simp [outcome, Expr.any, Expr.parseWith]

/-- A backslash protects the character behind it, if there is one. -/
theorem outcome_escaped (c d : Char) (s : List Char) :
    outcome (matcher depth (.alt escaped (unescaped stop)) .token pos (c :: d :: s)) =
      if c = '\\' then some ([c, d], [])
      else if (matcher depth stop .token pos (c :: d :: s)).isSome then none
      else some ([c], []) := by
  rw [← outcome_unescaped]
  by_cases backslash : c = '\\'
  · subst backslash
    simp [outcome, escaped, Expr.all, lit, Expr.any, Expr.parseWith, thenMatch, skip]
  · have differs : ¬ '\\' = c := fun same => backslash same.symm
    simp [outcome, escaped, Expr.all, lit, Expr.any, Expr.parseWith, thenMatch, backslash, differs]

/-- The end of a string is told by its first characters. -/
structure IsStop (close : List Char) (stop : Production) : Prop where
  some_text : close ≠ []
  closing : ∀ depth pos x, (matcher depth stop .token pos (close ++ x)).isSome = true
  settled : ∀ depth pos pos' c q x y,
    (matcher depth stop .token pos (c :: (q ++ (close ++ x)))).isSome =
      (matcher depth stop .token pos' (c :: (q ++ (close ++ y)))).isSome

theorem IsStop.unescaped (h : IsStop close stop) : IsUnit close (unescaped stop) := by
  obtain ⟨d, rest, rfl⟩ := List.exists_cons_of_ne_nil h.some_text
  constructor
  case consumes => rfl
  case closing =>
    intro depth pos x
    rw [← outcome_eq_none, List.cons_append, outcome_unescaped, ← List.cons_append, h.closing]
    rfl
  case settled =>
    intro depth pos pos' c q x y
    rw [outcome_unescaped, outcome_unescaped, h.settled depth pos pos' c q x y]

theorem IsStop.escaped (h : IsStop close stop) (quote : close.head? ≠ some '\\') :
    IsUnit close (.alt escaped (Toml.unescaped stop)) := by
  obtain ⟨d, rest, rfl⟩ := List.exists_cons_of_ne_nil h.some_text
  have differs : ¬ '\\' = d := fun same => quote (by rw [same]; rfl)
  constructor
  case consumes => rfl
  case closing =>
    intro depth pos x
    have nothing := h.unescaped.closing depth pos x
    simpa [Grammar.escaped, Expr.all, lit, Expr.parseWith, thenMatch, differs] using nothing
  case settled =>
    intro depth pos pos' c q x y
    -- at least the closing quotes stand behind the first character
    obtain ⟨e, ahead⟩ : ∃ e, ∀ z, ∃ r, q ++ (d :: rest ++ z) = e :: r := by
      cases q with
      | nil => exact ⟨d, fun z => ⟨rest ++ z, rfl⟩⟩
      | cons e q => exact ⟨e, fun z => ⟨_, rfl⟩⟩
    obtain ⟨r, here⟩ := ahead x
    obtain ⟨r', there⟩ := ahead y
    have same := h.settled depth pos pos' c q x y
    rw [here, there] at same ⊢
    rw [outcome_escaped, outcome_escaped, same]

/-- Where one character tells the end of a string. -/
theorem isStop_of_char {quote : Char} {member : Char → Bool} (quotes : member quote = true)
    (first : ∀ depth pos c s, (matcher depth stop .token pos (c :: s)).isSome = member c) :
    IsStop [quote] stop := by
  constructor
  case some_text => exact List.cons_ne_nil _ _
  case closing =>
    intro depth pos x
    exact (first depth pos quote x).trans quotes
  case settled =>
    intro depth pos pos' c q x y
    rw [first, first]

/-- Where a fixed text is the end of a string. -/
theorem isStop_word (some_text : close ≠ []) : IsStop close (.word close) := by
  have told : ∀ depth pos s, (matcher depth (.word close) .token pos s).isSome =
      close.isPrefixOf s := by
    intro depth pos s
    cases h : close.isPrefixOf s <;> simp [Expr.parseWith, h]
  constructor
  case some_text => exact some_text
  case closing =>
    intro depth pos x
    rw [told, List.isPrefixOf_iff_prefix]
    exact List.prefix_append close x
  case settled =>
    intro depth pos pos' c q x y
    -- the fixed text is shorter than what stands up to the end of the string
    have short : ∀ z, close.isPrefixOf (c :: (q ++ (close ++ z))) =
        close.isPrefixOf (c :: (q ++ close)) := by
      intro z
      have longer : close.length ≤ (c :: (q ++ close)).length := by
        simp only [List.length_cons, List.length_append]
        omega
      have cut : c :: (q ++ (close ++ z)) = c :: (q ++ close) ++ z := by simp
      rw [Bool.eq_iff_iff, List.isPrefixOf_iff_prefix, List.isPrefixOf_iff_prefix, cut,
        List.prefix_iff_eq_take, List.prefix_iff_eq_take, List.take_append_of_le_length longer]
    rw [told, told, short, short]

/-- The characters that end a string of one line, and a backslash. -/
theorem isSome_stop (depth pos : Nat) (c : Char) (s : List Char) :
    (matcher depth (.alt (lit "\"") (.alt (lit "\\") newline)) .token pos (c :: s)).isSome =
      (c == '"' || c == '\\' || isLineEnd c) := by
  rw [← isSome_newline_cons depth .token pos c s]
  by_cases quote : c = '"'
  · simp [quote, lit, Expr.parseWith]
  by_cases backslash : c = '\\'
  · simp [backslash, lit, Expr.parseWith]
  · simp [quote, backslash, Ne.symm quote, Ne.symm backslash, lit, Expr.parseWith]

theorem isSome_literalStop (depth pos : Nat) (c : Char) (s : List Char) :
    (matcher depth (.alt (lit "'") newline) .token pos (c :: s)).isSome =
      (c == '\'' || isLineEnd c) := by
  rw [← isSome_newline_cons depth .token pos c s]
  by_cases quote : c = '\''
  · simp [quote, lit, Expr.parseWith]
  · simp [quote, Ne.symm quote, lit, Expr.parseWith]

/-! ### Whole strings -/

/-- A string keeps what its closing quotes keep. -/
theorem keeps_delimited {front : List Char} {R : List Char → List Char → Prop}
    (isUnit : IsUnit close unit) (closing : (matcher depth tail).Keeps .token R)
    (quotes : ∀ ⦃pos u x ts⦄, (matcher depth tail).Takes .token pos u x ts →
      ∃ v, u = close ++ v) :
    (matcher depth (.seq (.word front) (.seq (.star unit) tail))).Keeps .token R := by
  have body : (matcher depth (.star unit)).Keeps .token (Shared close) :=
    Expr.keeps_star_until (productive depth) isUnit.consumes tight_token
      (isUnit.closing depth) (isUnit.settled depth)
  have inside : (matcher depth (.seq (.star unit) tail)).Keeps .token R := by
    refine Expr.keeps_seq (covers depth) body closing ?_
    intro gap u x y pos ts _ _ matched _
    obtain ⟨v, rfl⟩ := quotes matched
    exact ⟨⟨gap, v ++ x, v ++ y, by simp, by simp⟩, fun _ spaced => absurd spaced tight_token⟩
  refine Expr.keeps_seq (S := fun _ _ => True) (covers depth) Expr.keeps_word inside ?_
  intro gap u x y pos ts _ _ _ _
  exact ⟨trivial, fun _ spaced => absurd spaced tight_token⟩

/-- The parts of a string: the opening text, the turns up to the closing one, and what closes it. -/
theorem takes_delimited {front : List Char}
    (h : (matcher depth (.seq (.word front) (.seq (.star unit) tail))).Takes .token pos w x ts) :
    ∃ body u pos₁ pos₂ ts₁ ts₂, w = front ++ (body ++ u) ∧
      (matcher depth (.star unit)).Takes .token pos₁ body (u ++ x) ts₁ ∧
      (matcher depth tail).Takes .token pos₂ u x ts₂ := by
  obtain ⟨opening, inside, _, _, rfl, _, first, rest⟩ :=
    Expr.takes_seq_tight (covers depth) tight_token h
  obtain ⟨body, last, _, _, rfl, _, turns, closing⟩ :=
    Expr.takes_seq_tight (covers depth) tight_token rest
  obtain ⟨rfl, _⟩ := Expr.takes_word.mp first
  exact ⟨body, last, _, _, _, _, rfl, turns, closing⟩

/-- The quotes of a string of one line, where no third quote follows the first two. -/
theorem takes_quoted {quote : Char} (isUnit : IsUnit [quote] unit)
    (h : (matcher depth (.seq (.word [quote]) (.seq (.star unit) (.word [quote])))).Takes .token
      pos w x ts) : ∃ body, w = quote :: (body ++ [quote]) ∧ body.head? ≠ some quote := by
  obtain ⟨body, last, pos', _, _, _, rfl, turns, closing⟩ := takes_delimited h
  obtain ⟨rfl, _⟩ := Expr.takes_word.mp closing
  refine ⟨body, rfl, ?_⟩
  rcases (Expr.takes_star (productive depth) isUnit.consumes).mp turns with
    ⟨_, rfl, _⟩ | ⟨t, u, _, _, rfl, _, unitMatch, _⟩
  · simp
  · have consumed : t ≠ [] := Expr.text_ne_nil_of_consumes (productive depth).progress
      isUnit.consumes unitMatch
    obtain ⟨c, t, rfl⟩ := List.exists_cons_of_ne_nil consumed
    intro same
    obtain rfl : c = quote := Option.some.inj same
    have nothing := isUnit.closing depth pos' (t ++ (u ++ ([c] ++ x)))
    exact Option.some_ne_none _ (unitMatch.symm.trans nothing)

/-- A string of three quotes does not start where fewer stand. -/
theorem eq_none_of_not_prefix {rule : Rule} {kind : RuleKind} {front : List Char}
    (apart : ¬ front <+: s) :
    matcher depth (.rule rule kind (.seq (.word front) tail)) mode pos s = none := by
  rw [← List.isPrefixOf_iff_prefix, Bool.not_eq_true] at apart
  simp [Expr.parseWith, thenMatch, apart]

theorem not_three_quotes {quote : Char} {body : List Char} (first : body.head? ≠ some quote)
    (behind : y.head? ≠ some quote) :
    ¬ [quote, quote, quote] <+: quote :: (body ++ [quote]) ++ y := by
  intro starts
  cases body with
  | nil =>
    cases y with
    | nil => simpa using starts.length_le
    | cons c y => exact behind (by simpa [eq_comm] using starts)
  | cons c body =>
    have second : quote = c := by
      simp only [List.cons_append, List.cons_prefix_cons] at starts
      exact starts.2.1
    exact first (by simp [second])

theorem isUnit_basic : IsUnit ['"'] (.alt escaped
    (unescaped (.alt (lit "\"") (.alt (lit "\\") newline)))) :=
  (isStop_of_char (by decide) isSome_stop).escaped (by decide)

theorem isUnit_literal : IsUnit ['\''] (unescaped (.alt (lit "'") newline)) :=
  (isStop_of_char (by decide) isSome_literalStop).unescaped

theorem isUnit_mlBasic : IsUnit ['"', '"', '"'] (.alt escaped (unescaped (lit "\"\"\""))) :=
  (isStop_word (List.cons_ne_nil _ _)).escaped (by decide)

theorem isUnit_mlLiteral : IsUnit ['\'', '\'', '\''] (unescaped (lit "'''")) :=
  (isStop_word (List.cons_ne_nil _ _)).unescaped

theorem keeps_basicString {R : List Char → List Char → Prop} :
    (matcher depth basicString).Keeps mode R :=
  Expr.keeps_rule (keeps_delimited isUnit_basic Expr.keeps_word fun _ _ _ _ matched =>
    ⟨[], (Expr.takes_word.mp matched).1⟩)

theorem keeps_literalString {R : List Char → List Char → Prop} :
    (matcher depth literalString).Keeps mode R :=
  Expr.keeps_rule (keeps_delimited isUnit_literal Expr.keeps_word fun _ _ _ _ matched =>
    ⟨[], (Expr.takes_word.mp matched).1⟩)

/-- Closing quotes of which there are three may have up to two more in front of them. -/
abbrev closingQuotes (quote : Char) : Production :=
  .seq (.word [quote, quote, quote]) (.seq (.opt (.word [quote])) (.opt (.word [quote])))

theorem keeps_closingQuotes (quote : Char) : (matcher depth (closingQuotes quote)).Keeps .token
    (Both fun x => x.head? ≠ some quote) := by
  have avoids : (closingQuotes quote).Avoids (· ≠ quote) .token := by simp [Expr.Avoids]
  have appends : ∀ x : List Char, x.head? ≠ some quote →
      (matcher depth (closingQuotes quote)).Appends .token x := by
    intro x behind
    refine Expr.appends_of_avoids (productive depth)
      (fun c first => ?_) avoids
    rintro rfl
    exact behind first
  exact Matcher.keeps_of_appends fun x y related => ⟨appends x related.1, appends y related.2⟩

/-- The closing quotes are three, four or five. -/
theorem takes_closingQuotes {quote : Char}
    (h : (matcher depth (closingQuotes quote)).Takes .token pos w x ts) :
    ∃ n ≤ 2, w = [quote, quote, quote] ++ List.replicate n quote := by
  obtain ⟨three, more, _, _, rfl, _, first, others⟩ :=
    Expr.takes_seq_tight (covers depth) tight_token h
  obtain ⟨one, two, _, _, rfl, _, left, right⟩ :=
    Expr.takes_seq_tight (covers depth) tight_token others
  obtain ⟨rfl, _⟩ := Expr.takes_word.mp first
  have optional : ∀ {u y ts pos}, (matcher depth (.opt (.word [quote]))).Takes .token pos u y ts →
      ∃ n ≤ 1, u = List.replicate n quote := by
    intro u y ts pos taken
    rcases Expr.takes_opt.mp taken with found | ⟨_, rfl, _⟩
    · exact ⟨1, le_rfl, (Expr.takes_word.mp found).1⟩
    · exact ⟨0, Nat.zero_le 1, rfl⟩
  obtain ⟨n, few, rfl⟩ := optional left
  obtain ⟨n', few', rfl⟩ := optional right
  refine ⟨n + n', by omega, ?_⟩
  rw [List.replicate_append_replicate]

theorem keeps_mlBasicString :
    (matcher depth mlBasicString).Keeps mode (Both fun x => x.head? ≠ some '"') :=
  Expr.keeps_rule (keeps_delimited isUnit_mlBasic (keeps_closingQuotes '"')
    fun _ _ _ _ matched => let ⟨_, _, quotes⟩ := takes_closingQuotes matched
    ⟨_, quotes⟩)

theorem keeps_mlLiteralString :
    (matcher depth mlLiteralString).Keeps mode (Both fun x => x.head? ≠ some '\'') :=
  Expr.keeps_rule (keeps_delimited isUnit_mlLiteral (keeps_closingQuotes '\'')
    fun _ _ _ _ matched => let ⟨_, _, quotes⟩ := takes_closingQuotes matched
    ⟨_, quotes⟩)

/-- The quotes of a basic string are no three quotes. -/
theorem mlBasicString_eq_none (h : (matcher depth basicString).Takes mode pos w x ts)
    (behind : y.head? ≠ some '"') (pos' : Nat) :
    matcher depth mlBasicString mode pos' (w ++ y) = none := by
  obtain ⟨_, inside, _⟩ := Expr.takes_rule.mp h
  obtain ⟨body, rfl, first⟩ := takes_quoted isUnit_basic inside
  exact eq_none_of_not_prefix (not_three_quotes first behind)

theorem mlLiteralString_eq_none (h : (matcher depth literalString).Takes mode pos w x ts)
    (behind : y.head? ≠ some '\'') (pos' : Nat) :
    matcher depth mlLiteralString mode pos' (w ++ y) = none := by
  obtain ⟨_, inside, _⟩ := Expr.takes_rule.mp h
  obtain ⟨body, rfl, first⟩ := takes_quoted isUnit_literal inside
  exact eq_none_of_not_prefix (not_three_quotes first behind)

/-- Text that does not start with a quote. -/
def NoQuote (x : List Char) : Prop := x.head? ≠ some '"' ∧ x.head? ≠ some '\''

theorem NoQuote.of_unjoined (h : Unjoined x) : NoQuote x := by
  constructor
  · intro first
    cases h.closes _ first
  · intro first
    cases h.closes _ first

theorem startsIn_quote (c : Char) (text : List Char) : StartsIn (· = c) (c :: text) :=
  ⟨c, rfl, rfl⟩

/-- A choice between parts that start with different characters. -/
theorem fails_of_startsIn {P : Char → Prop} {a b : Production} (left : a.StartsIn P)
    (right : b.StartsIn (¬ P ·)) (matched : (matcher depth b).Takes mode pos w x ts) (pos' : Nat)
    (y : List Char) : matcher depth a mode pos' (w ++ y) = none := by
  obtain ⟨c, first, apart⟩ := (Expr.text_startsIn right matched).append (t := y)
  refine Expr.eq_none_of_startsIn (covers depth) left fun d same => ?_
  rw [first] at same
  exact Option.some.inj same ▸ apart

/-- Which form a string has is told by its first quotes, and none goes beyond its closing quotes. -/
theorem keeps_string : (matcher depth string).Keeps mode (Both NoQuote) := by
  have single : (Expr.alt mlLiteralString literalString).StartsIn (¬ · = '"') :=
    ⟨⟨'\'', rfl, by decide⟩, ⟨'\'', rfl, by decide⟩⟩
  refine Expr.keeps_rule (Expr.keeps_alt ?mlBasic (Expr.keeps_alt keeps_basicString
    (Expr.keeps_alt ?mlLiteral keeps_literalString ?three) ?double) ?threeDouble)
  case mlBasic => exact keeps_mlBasicString.mono fun _ _ related => ⟨related.1.1, related.2.1⟩
  case mlLiteral => exact keeps_mlLiteralString.mono fun _ _ related => ⟨related.1.2, related.2.2⟩
  case three =>
    intro pos w x y ts related _ matched
    exact mlLiteralString_eq_none matched related.2.2 pos
  case double =>
    intro pos w x y ts _ _ matched
    have double : basicString.StartsIn (· = '"') := startsIn_quote _ _
    exact fails_of_startsIn double single matched pos y
  case threeDouble =>
    intro pos w x y ts related _ matched
    have double : mlBasicString.StartsIn (· = '"') := startsIn_quote _ _
    rcases Expr.takes_alt.mp matched with basic | ⟨_, others⟩
    · exact mlBasicString_eq_none basic related.2.1 pos
    · exact fails_of_startsIn double single others pos y

end Verbatim.Toml
