import Verbatim.Proofs.Toml.Strings

/-!
# Keys in front of other text

Behind a key stands the equals sign of a pair or the bracket that closes a header, perhaps with
spaces and tabs in front (`KeyEnd`). A key stays what it is whichever of them it is
(`keeps_key`). The parts of a dotted key have a dot behind them instead, and the blanks in front of
the dot are taken only if the dot follows.
-/

namespace Verbatim.Toml

open Peg Grammar Text

variable {depth : Nat} {mode : Mode} {pos : Nat} {s w x y : List Char} {m : Match Rule}
  {ts : List (Peg.Tree Rule)}

/-! ### Parts of keys -/

/-- A character of a key without quotes. -/
def bareChar (c : Char) : Bool := c.isAlphanum || c == '_' || c == '-'

/-- Text that cannot go on with a key without quotes. -/
def NotBare (x : List Char) : Prop := ∀ c, x.head? = some c → bareChar c = false

theorem not_bareChar_of_isIndent {c : Char} (h : isIndent c = true) : bareChar c = false := by
  have known : c = ' ' ∨ c = '\t' := by simpa [isIndent] using h
  rcases known with rfl | rfl <;> decide

/-- Text that starts with a dot, an equals sign or a bracket, or is blank up to there. -/
theorem NotBare.of_ahead (h : Ahead (bareChar · = false) x) : NotBare x := by
  intro c first
  rcases h.head first with blank | apart
  · exact not_bareChar_of_isIndent blank
  · exact apart

theorem keeps_unquotedKey : (matcher depth unquotedKey).Keeps mode (Both NotBare) := by
  have avoids : unquotedKey.Avoids (bareChar · = false) mode := by
    have apart : ∀ c, bareChar c = true → ¬ bareChar c = false := by simp
    exact ⟨tight_token, apart, tight_token, rfl, apart⟩
  have appends : ∀ x, NotBare x → (matcher depth unquotedKey).Appends mode x := fun x behind =>
    Expr.appends_of_avoids (productive depth) behind avoids
  exact Matcher.keeps_of_appends fun x y related => ⟨appends x related.1, appends y related.2⟩

theorem keeps_quotedKey {R : List Char → List Char → Prop} :
    (matcher depth quotedKey).Keeps mode R := by
  refine Expr.keeps_rule (Expr.keeps_alt keeps_basicString keeps_literalString ?_)
  intro pos w x y ts _ _ matched
  have double : basicString.StartsIn (· = '"') := startsIn_quote _ _
  have single : literalString.StartsIn (¬ · = '"') := ⟨'\'', rfl, by decide⟩
  exact fails_of_startsIn double single matched pos y

theorem quotedKey_startsIn : quotedKey.StartsIn (bareChar · = false) :=
  ⟨⟨'"', rfl, by decide⟩, ⟨'\'', rfl, by decide⟩⟩

theorem keeps_simpleKey : (matcher depth simpleKey).Keeps mode (Both NotBare) := by
  refine Expr.keeps_rule (Expr.keeps_alt keeps_quotedKey keeps_unquotedKey ?_)
  intro pos w x y ts _ _ matched
  have bare : unquotedKey.StartsIn (¬ bareChar · = false) := by
    intro c found
    have member : bareChar c = true := found
    simp [member]
  exact fails_of_startsIn quotedKey_startsIn bare matched pos y

/-- Both forms of a part make a node and skip no blanks, wherever the part stands. -/
theorem simpleKey_adjacent (depth pos : Nat) (s : List Char) :
    matcher depth simpleKey .adjacent pos s = matcher depth simpleKey .spaced pos s := rfl

/-! ### Dotted keys -/

/-- One more part of a dotted key, with the dot and the blanks in front of it. -/
abbrev dottedPart : Production := .seq keyBlanks (.seq (lit ".") (.seq keyBlanks simpleKey))

theorem keeps_keyBlanks :
    (matcher depth keyBlanks).Keeps .adjacent fun x y => x.head? = y.head? := by
  refine Expr.keeps_star (productive depth) rfl
    Expr.keeps_char ?_ ?_ ?_
  · intro t x y same
    cases t with
    | nil => exact same
    | cons c t => rfl
  · intro x y same
    simpa only [skip_of_ne_spaced tight_adjacent] using same
  · intro pos pos' x y same nothing
    rw [oneOf, Expr.parseWith_char_eq_none] at nothing ⊢
    rwa [← same]

/-- Blanks keep what stands behind the part that follows them. -/
theorem keeps_keyBlanks_seq {e : Production} {R : List Char → List Char → Prop}
    (consumes : e.consumes = true) (part : (matcher depth e).Keeps .adjacent R) :
    (matcher depth (.seq keyBlanks e)).Keeps .adjacent R := by
  refine Expr.keeps_seq (covers depth) keeps_keyBlanks part ?_
  intro gap u x y pos ts _ _ matched _
  have consumed : u ≠ [] :=
    Expr.text_ne_nil_of_consumes (productive depth).progress consumes matched
  obtain ⟨c, u, rfl⟩ := List.exists_cons_of_ne_nil consumed
  refine ⟨?_, fun _ spaced => absurd spaced tight_adjacent⟩
  cases gap <;> rfl

theorem keeps_dottedPart : (matcher depth dottedPart).Keeps .adjacent (Both NotBare) := by
  have part : (matcher depth (.seq keyBlanks simpleKey)).Keeps .adjacent (Both NotBare) :=
    keeps_keyBlanks_seq rfl keeps_simpleKey
  refine keeps_keyBlanks_seq rfl (Expr.keeps_seq (S := fun _ _ => True)
    (covers depth) Expr.keeps_word part ?_)
  intro gap u x y pos ts _ _ _ _
  exact ⟨trivial, fun _ spaced => absurd spaced tight_adjacent⟩

/-- The blanks around a dot are spaces and tabs. -/
theorem keyBlanks_match (h : matcher depth keyBlanks .adjacent pos s = some m) :
    Indents m.text := by
  have repeats := star_repeats (e := oneOf " \t") rfl (skip_of_ne_spaced tight_adjacent s) h
  have single := repeats.of_single fun pos s m front found => Expr.parseWith_char.mp found
  intro c member
  rcases single.2 c member with inside | ⟨impossible, _⟩
  · simpa [isIndent] using inside
  · cases impossible

/-- In front of one more part a dot stands behind blanks. -/
theorem ahead_dottedPart (h : matcher depth dottedPart .adjacent pos s = some m) :
    ∃ blanks rest, s = blanks ++ '.' :: rest ∧ Indents blanks := by
  obtain ⟨first, second, blanks, behind, _⟩ := Expr.parseWith_seq.mp h
  obtain ⟨dot, _, dotMatch, _, _⟩ := Expr.parseWith_seq.mp behind
  obtain ⟨rest, split, _⟩ := Expr.parseWith_word.mp dotMatch
  simp only [skip_of_ne_spaced tight_adjacent] at split
  refine ⟨first.text, rest, ?_, keyBlanks_match blanks⟩
  rw [← (matcher_covers blanks).split, split]
  rfl

theorem notBare_of_dottedPart (h : matcher depth dottedPart .adjacent pos s = some m) :
    NotBare s := by
  obtain ⟨blanks, rest, rfl, indents⟩ := ahead_dottedPart h
  refine NotBare.of_ahead (Ahead.indents indents (Ahead.of_head? ?_))
  intro c first
  obtain rfl : '.' = c := Option.some.inj first
  decide

/-- What stands behind a key: an equals sign or a closing bracket, or nothing at all. -/
abbrev KeyEnd (x : List Char) : Prop := Ahead (fun c => c = '=' ∨ c = ']') x

theorem KeyEnd.notBare (h : KeyEnd x) : NotBare x := by
  refine NotBare.of_ahead (h.mono ?_)
  rintro c (rfl | rfl) <;> decide

/-- No dot stands behind a key and the blanks behind it. -/
theorem KeyEnd.not_dot {blanks rest : List Char} (indents : Indents blanks) :
    ¬ KeyEnd (blanks ++ '.' :: rest) := by
  intro h
  have dot : (skip grammar.blank .spaced (blanks ++ '.' :: rest)).2.head? = some '.' := by
    rw [skip_indents indents fun c first => ?_]
    · rfl
    · obtain rfl : '.' = c := Option.some.inj first
      decide
  have closed := h '.' dot
  revert closed
  decide

/-- There is no further part behind a key. -/
theorem KeyEnd.dottedPart_eq_none (h : KeyEnd x) (depth pos : Nat) :
    matcher depth dottedPart .adjacent pos x = none := by
  rw [Option.eq_none_iff_forall_ne_some]
  intro m found
  obtain ⟨blanks, rest, rfl, indents⟩ := ahead_dottedPart found
  exact KeyEnd.not_dot indents h

theorem keeps_dottedParts : (matcher depth (.star dottedPart)).Keeps .adjacent (Both KeyEnd) := by
  have between : (matcher depth (.star dottedPart)).Keeps .adjacent _ :=
    Expr.keeps_star_between (R := fun _ _ => True) (Q := NotBare)
      (productive depth) rfl
      (keeps_dottedPart.mono fun _ _ related => related.2) (fun _ _ _ _ => trivial)
      fun pos s goesOn => by
        rw [skip_of_ne_spaced tight_adjacent] at goesOn
        obtain ⟨m, found⟩ := Option.ne_none_iff_exists'.mp goesOn
        exact notBare_of_dottedPart found
  refine between.mono fun x y related =>
    ⟨trivial, related.1.notBare, related.2.notBare, fun pos => ?_⟩
  rw [skip_of_ne_spaced tight_adjacent]
  exact ⟨related.2.dottedPart_eq_none depth pos, related.2.dottedPart_eq_none depth pos⟩

theorem keeps_dottedKey : (matcher depth dottedKey).Keeps mode (Both KeyEnd) := by
  have parts : (matcher depth (.seq dottedPart (.star dottedPart))).Keeps .adjacent
      (Both KeyEnd) := by
    refine Expr.keeps_seq (covers depth) keeps_dottedPart keeps_dottedParts ?_
    intro gap u x y pos ts related skipped matched matched'
    obtain rfl : gap = [] := (congrArg Prod.fst skipped).symm
    have behind : ∀ {z}, KeyEnd z → (matcher depth (.star dottedPart)).Takes .adjacent pos u z ts →
        NotBare (u ++ z) := by
      intro z closed found
      rcases (Expr.takes_star (productive depth) rfl).mp found with
        ⟨_, rfl, _⟩ | ⟨t, v, _, _, rfl, _, first, _⟩
      · exact closed.notBare
      · rw [List.append_assoc]
        exact notBare_of_dottedPart first
    exact ⟨⟨behind related.1 matched, behind related.2 matched'⟩,
      fun _ spaced => absurd spaced tight_adjacent⟩
  refine Expr.keeps_rule (Expr.keeps_seq (covers depth) keeps_simpleKey parts ?_)
  intro gap u x y pos ts _ skipped matched matched'
  obtain rfl : gap = [] := (congrArg Prod.fst skipped).symm
  have behind : ∀ {z}, (matcher depth (.seq dottedPart (.star dottedPart))).Takes .adjacent pos u z
      ts → NotBare (u ++ z) := by
    intro z found
    obtain ⟨first, _, part, _, _⟩ := Expr.parseWith_seq.mp found
    exact notBare_of_dottedPart part
  exact ⟨⟨behind matched, behind matched'⟩, fun _ spaced => absurd spaced tight_adjacent⟩

/-! ### Keys -/

/-- A key stays what it is whatever stands behind the equals sign or the bracket. -/
theorem keeps_key : (matcher depth key).Keeps .spaced (Both KeyEnd) := by
  have simple : (matcher depth simpleKey).Keeps .spaced (Both KeyEnd) :=
    keeps_simpleKey.mono fun _ _ related => ⟨related.1.notBare, related.2.notBare⟩
  refine Expr.keeps_rule (Expr.keeps_alt keeps_dottedKey simple ?_)
  intro pos w x y ts related _ matched
  rw [Option.eq_none_iff_forall_ne_some]
  intro m dotted
  obtain ⟨found, inside, _⟩ := Expr.parseWith_rule.mp dotted
  obtain ⟨first, second, part, behind, _⟩ := Expr.parseWith_seq.mp inside
  have alone := simple related matched
  have same : first = ⟨w, ts, y⟩ := by
    have both := (simpleKey_adjacent depth pos (w ++ y)).symm.trans part
    exact Option.some.inj (both.symm.trans alone)
  subst same
  obtain ⟨third, _, more, _, _⟩ := Expr.parseWith_seq.mp behind
  have nothing := related.2.dottedPart_eq_none depth (pos + byteLength w + byteLength [])
  exact Option.some_ne_none _ (more.symm.trans nothing)

theorem key_startsIn : key.StartsIn fun c => bareChar c = true ∨ c = '"' ∨ c = '\'' := by
  have bare : unquotedKey.StartsIn fun c => bareChar c = true ∨ c = '"' ∨ c = '\'' :=
    fun c found => Or.inl found
  have simple : simpleKey.StartsIn fun c => bareChar c = true ∨ c = '"' ∨ c = '\'' :=
    ⟨⟨⟨'"', rfl, by decide⟩, ⟨'\'', rfl, by decide⟩⟩, bare⟩
  exact ⟨simple, simple⟩

end Verbatim.Toml
