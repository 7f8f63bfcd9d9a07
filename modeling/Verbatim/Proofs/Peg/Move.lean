import Verbatim.Proofs.Peg.Border

/-!
# Matching the same text elsewhere

A match does not depend on the place where its text stands, nor on how deeply the recursive
expression may be entered, as long as that is no less than the text is long. Both are one statement
(`Expr.parseWith_move`): two matchers of the recursive expression that agree on short texts, up to
the places of the nodes, give matches of any expression that agree in the same way. The recursive
expression is entered only behind some text (`Expr.Guarded`), so agreement carries over from shorter
texts to longer ones (`Grammar.nestedMatcher_move`).
-/

namespace Verbatim.Peg

variable {ρ : Type} {blank : Char → Bool} {inner inner' : Matcher ρ} {mode : Mode} {pos k n : Nat}
  {s : List Char} {m : Match ρ}

/-! ### Moved trees -/

mutual

/-- The tree as it is when its text stands some bytes further on. -/
def Tree.move (k : Nat) : Tree ρ → Tree ρ
  | .node rule start text children => .node rule (start + k) text (moveAll k children)

/-- The trees as they are when their text stands some bytes further on. -/
def Tree.moveAll (k : Nat) : List (Tree ρ) → List (Tree ρ)
  | [] => []
  | t :: ts => t.move k :: moveAll k ts

end

namespace Tree

@[simp] theorem rule_move (k : Nat) (t : Tree ρ) : (t.move k).rule = t.rule := by
  cases t
  rfl

@[simp] theorem start_move (k : Nat) (t : Tree ρ) : (t.move k).start = t.start + k := by
  cases t
  rfl

@[simp] theorem text_move (k : Nat) (t : Tree ρ) : (t.move k).text = t.text := by
  cases t
  rfl

@[simp] theorem children_move (k : Nat) (t : Tree ρ) :
    (t.move k).children = moveAll k t.children := by
  cases t
  rfl

@[simp] theorem moveAll_nil (k : Nat) : moveAll k ([] : List (Tree ρ)) = [] := rfl

@[simp] theorem moveAll_cons (k : Nat) (t : Tree ρ) (ts : List (Tree ρ)) :
    moveAll k (t :: ts) = t.move k :: moveAll k ts := rfl

@[simp] theorem moveAll_append (k : Nat) (ts us : List (Tree ρ)) :
    moveAll k (ts ++ us) = moveAll k ts ++ moveAll k us := by
  induction ts with
  | nil => rfl
  | cons t ts ih => simp [ih]

mutual

/-- A tree that is not moved is the same. -/
theorem move_zero : (t : Tree ρ) → t.move 0 = t
  | .node rule start text children => by rw [move, moveAll_zero children, Nat.add_zero]

theorem moveAll_zero : (ts : List (Tree ρ)) → moveAll 0 ts = ts
  | [] => rfl
  | t :: ts => by rw [moveAll, move_zero t, moveAll_zero ts]

end

end Tree

/-- The match of the same text some bytes further on. -/
def Match.move (k : Nat) (m : Match ρ) : Match ρ := ⟨m.text, Tree.moveAll k m.trees, m.rest⟩

@[simp] theorem Match.text_move (k : Nat) (m : Match ρ) : (m.move k).text = m.text := rfl

@[simp] theorem Match.trees_move (k : Nat) (m : Match ρ) :
    (m.move k).trees = Tree.moveAll k m.trees := rfl

@[simp] theorem Match.rest_move (k : Nat) (m : Match ρ) : (m.move k).rest = m.rest := rfl

/-- Two matchers agree on texts of a class, up to the place of the text. -/
def AgreeOn (a a' : Matcher ρ) (k : Nat) (mode : Mode) (short : List Char → Prop) : Prop :=
  ∀ pos s, short s → a' mode (pos + k) s = (a mode pos s).map (·.move k)

theorem Match.Covers.rest_length_le (h : m.Covers pos s) : m.rest.length ≤ s.length := by
  have lengths := congrArg List.length h.split
  rw [List.length_append] at lengths
  omega

/-! ### Agreement of parts and of wholes -/

/-- A sequence, where what the first part leaves is a text of the class for the second part. -/
theorem thenMatch_move {a a' b b' : Matcher ρ} {short short' : List Char → Prop}
    (first : AgreeOn a a' k mode short) (second : AgreeOn b b' k mode short')
    (behind : ∀ pos s m, short s → a mode pos s = some m → short' (skip blank mode m.rest).2) :
    AgreeOn (thenMatch blank a b) (thenMatch blank a' b') k mode short := by
  intro pos s here
  simp only [thenMatch]
  rw [first pos s here]
  cases found : a mode pos s with
  | none => rfl
  | some m =>
    have place : pos + k + Text.byteLength m.text + Text.byteLength (skip blank mode m.rest).1 =
        pos + Text.byteLength m.text + Text.byteLength (skip blank mode m.rest).1 + k := by omega
    simp only [Option.map_some, Match.text_move, Match.rest_move, Option.bind_eq_bind,
      Option.bind_some, place]
    rw [second _ _ (behind pos s m here found)]
    cases b mode (pos + Text.byteLength m.text + Text.byteLength (skip blank mode m.rest).1)
        (skip blank mode m.rest).2 <;>
      simp [Match.move]

theorem repeatMatch_move {a a' : Matcher ρ} (covers : a.CoversIn mode)
    (agree : AgreeOn a a' k mode (·.length ≤ n)) (bound pos : Nat) (s : List Char)
    (short : s.length ≤ n) :
    repeatMatch blank a' mode bound (pos + k) s =
      (repeatMatch blank a mode bound pos s).move k := by
  induction bound generalizing pos s with
  | zero => rfl
  | succ bound ih =>
    have gap := skip_length_le blank mode s
    have place : pos + k + Text.byteLength (skip blank mode s).1 =
        pos + Text.byteLength (skip blank mode s).1 + k := by omega
    simp only [repeatMatch, place]
    rw [agree _ _ (by omega)]
    cases found : a mode (pos + Text.byteLength (skip blank mode s).1) (skip blank mode s).2 with
    | none => rfl
    | some here =>
      have left := (covers _ _ _ found).rest_length_le
      have next : pos + Text.byteLength (skip blank mode s).1 + k + Text.byteLength here.text =
          pos + Text.byteLength (skip blank mode s).1 + Text.byteLength here.text + k := by omega
      simp only [Option.map_some, Match.text_move, Match.rest_move, Match.trees_move, next]
      rw [ih _ _ (by omega)]
      simp [Match.move]

theorem starMatch_move {a a' : Matcher ρ} (covers : a.CoversIn mode)
    (agree : AgreeOn a a' k mode (·.length ≤ n)) (pos : Nat) (s : List Char)
    (short : s.length ≤ n) :
    starMatch blank a' mode (pos + k) s = (starMatch blank a mode pos s).move k := by
  simp only [starMatch]
  rw [agree _ _ short]
  cases found : a mode pos s with
  | none => rfl
  | some here =>
    have left := (covers _ _ _ found).rest_length_le
    have next : pos + k + Text.byteLength here.text = pos + Text.byteLength here.text + k := by
      omega
    simp only [Option.map_some, Match.text_move, Match.rest_move, Match.trees_move, next]
    rw [repeatMatch_move covers agree _ _ _ (by omega)]
    simp [Match.move]

namespace Expr

/-- The recursive expression is entered only behind some text. -/
def Guarded : Expr ρ → Prop
  | char _ | word _ => True
  | seq a b => a.Guarded ∧ (a.consumes = true ∨ b.Guarded)
  | alt a b => a.Guarded ∧ b.Guarded
  | opt a | star a | absent a => a.Guarded
  | rule _ _ body => body.Guarded
  | nested => False

instance decidableGuarded : (e : Expr ρ) → Decidable e.Guarded
  | char _ | word _ => inferInstanceAs (Decidable True)
  | seq a b =>
    have := decidableGuarded a
    have := decidableGuarded b
    inferInstanceAs (Decidable (a.Guarded ∧ (a.consumes = true ∨ b.Guarded)))
  | alt a b =>
    have := decidableGuarded a
    have := decidableGuarded b
    inferInstanceAs (Decidable (a.Guarded ∧ b.Guarded))
  | opt a | star a | absent a => decidableGuarded a
  | rule _ _ body => decidableGuarded body
  | nested => inferInstanceAs (Decidable False)

/-- A text on which an expression enters the recursive one with less than `n` characters only. -/
def Within (n : Nat) (e : Expr ρ) (s : List Char) : Prop :=
  s.length < n ∨ e.Guarded ∧ s.length ≤ n

/-- What the first part of a sequence leaves is short enough for the second part: it is shorter if
the first part has consumed something, and else the second part is guarded itself. -/
theorem Within.behind {a b : Expr ρ} (productive : inner.Productive) (short : (seq a b).Within n s)
    (found : a.parseWith blank inner mode pos s = some m) :
    b.Within n (skip blank mode m.rest).2 := by
  have less := (parseWith_covers productive.covers a mode _ _ _ found).rest_length_le
  have gap := skip_length_le blank mode m.rest
  rcases short with short | ⟨⟨_, consumes | guarded⟩, short⟩
  · exact Or.inl (by omega)
  · have consumed := consumesIn_of_consumes productive consumes mode _ _ _ found
    exact Or.inl (by omega)
  · exact Or.inr ⟨guarded, by omega⟩

/-- Matches agree up to their place, if those of the recursive expression do so on all texts that it
may be given. -/
theorem parseWith_move (productive : inner.Productive)
    (agree : ∀ mode, AgreeOn inner inner' k mode (·.length < n)) (e : Expr ρ) (mode : Mode) :
    AgreeOn (e.parseWith blank inner) (e.parseWith blank inner') k mode (e.Within n) := by
  induction e generalizing mode with
  | char member =>
    intro pos s _
    cases s with
    | nil => rfl
    | cons c rest => cases h : member c <;> simp [parseWith, h, Match.move]
  | word text =>
    intro pos s _
    cases h : text.isPrefixOf s <;> simp [parseWith, h, Match.move]
  | seq a b left right =>
    have first : AgreeOn (a.parseWith blank inner) (a.parseWith blank inner') k mode
        ((seq a b).Within n) := fun pos s short =>
      left mode pos s (short.imp_right fun h => ⟨h.1.1, h.2⟩)
    exact thenMatch_move first (right mode) fun pos s m short found => short.behind productive found
  | alt a b left right =>
    intro pos s short
    simp only [parseWith]
    rw [left mode pos s (short.imp_right fun h => ⟨h.1.1, h.2⟩),
      right mode pos s (short.imp_right fun h => ⟨h.1.2, h.2⟩)]
    cases a.parseWith blank inner mode pos s <;> rfl
  | opt a part =>
    intro pos s short
    simp only [parseWith]
    rw [part mode pos s short]
    cases a.parseWith blank inner mode pos s <;> rfl
  | star a part =>
    intro pos s short
    have everywhere : AgreeOn (a.parseWith blank inner) (a.parseWith blank inner') k mode
        (·.length ≤ s.length) := fun pos' s' shorter => part mode pos' s' (by
      rcases short with short | ⟨guarded, short⟩
      · exact Or.inl (by omega)
      · exact Or.inr ⟨guarded, by omega⟩)
    simp only [parseWith, Option.map_some]
    rw [starMatch_move (parseWith_covers productive.covers a mode) everywhere pos s le_rfl]
  | absent a part =>
    intro pos s short
    simp only [parseWith]
    rw [part mode pos s short]
    cases a.parseWith blank inner mode pos s <;> rfl
  | rule name kind body inside =>
    intro pos s short
    simp only [parseWith]
    rw [inside (kind.inside mode) pos s short]
    cases body.parseWith blank inner (kind.inside mode) pos s with
    | none => rfl
    | some found => cases kind.makesNode mode <;> simp [Match.move, Tree.move]
  | nested =>
    intro pos s short
    rcases short with short | ⟨guarded, _⟩
    · exact agree mode pos s short
    · cases guarded

end Expr

/-! ### Depth -/

variable {g : Grammar ρ}

/-- An expression that consumes something matches no empty text. -/
theorem Expr.parseWith_nil_of_consumes (productive : inner.Productive) {e : Expr ρ}
    (consumes : e.consumes = true) (mode : Mode) (pos : Nat) :
    e.parseWith blank inner mode pos [] = none := by
  cases found : e.parseWith blank inner mode pos [] with
  | none => rfl
  | some m =>
    have less := consumesIn_of_consumes productive consumes mode _ _ _ found
    cases less

/-- At one depth a match is the same at every place. -/
theorem Grammar.nestedMatcher_place (consumes : g.nested.consumes = true) (depth n k : Nat)
    (mode : Mode) :
    AgreeOn (g.nestedMatcher depth) (g.nestedMatcher depth) k mode (·.length < n) := by
  induction depth generalizing mode with
  | zero =>
    intro pos s _
    rfl
  | succ depth ih =>
    intro pos s short
    exact Expr.parseWith_move (g.nestedMatcher_productive consumes depth) ih g.nested mode pos s
      (Or.inl short)

/-- Whether an expression matches does not depend on the place. -/
theorem Grammar.parseWith_eq_none_iff (consumes : g.nested.consumes = true) (e : Expr ρ)
    (depth : Nat) (mode : Mode) (pos pos' : Nat) (s : List Char) :
    e.parseWith g.blank (g.nestedMatcher depth) mode pos s = none ↔
      e.parseWith g.blank (g.nestedMatcher depth) mode pos' s = none := by
  have moved : ∀ pos, e.parseWith g.blank (g.nestedMatcher depth) mode pos s =
      (e.parseWith g.blank (g.nestedMatcher depth) mode 0 s).map (·.move pos) := by
    intro pos
    have agree : AgreeOn (e.parseWith g.blank (g.nestedMatcher depth))
        (e.parseWith g.blank (g.nestedMatcher depth)) pos mode (e.Within (s.length + 1)) :=
      Expr.parseWith_move (g.nestedMatcher_productive consumes depth)
        (fun mode => g.nestedMatcher_place consumes depth _ pos mode) e mode
    have here := agree 0 s (Or.inl (Nat.lt_succ_self _))
    rwa [Nat.zero_add] at here
  rw [moved pos, moved pos', Option.map_eq_none_iff, Option.map_eq_none_iff]

/-- From the length of the text on, it does not matter how deeply values may be nested. -/
theorem Grammar.nestedMatcher_move (guarded : g.nested.Guarded)
    (consumes : g.nested.consumes = true) (n k : Nat) {d d' : Nat} (enough : n ≤ d)
    (enough' : n ≤ d') (mode : Mode) :
    AgreeOn (g.nestedMatcher d) (g.nestedMatcher d') k mode (·.length ≤ n) := by
  have productive := g.nestedMatcher_productive consumes
  induction n generalizing d d' mode with
  | zero =>
    intro pos s short
    obtain rfl : s = [] := List.eq_nil_of_length_eq_zero (by omega)
    have none_at : ∀ depth pos, g.nestedMatcher depth mode pos [] = none := by
      intro depth pos
      cases depth with
      | zero => rfl
      | succ depth =>
        exact Expr.parseWith_nil_of_consumes (productive depth) consumes mode pos
    rw [none_at, none_at]
    rfl
  | succ n ih =>
    intro pos s short
    obtain ⟨d, rfl⟩ : ∃ e, d = e + 1 := ⟨d - 1, by omega⟩
    obtain ⟨d', rfl⟩ : ∃ e, d' = e + 1 := ⟨d' - 1, by omega⟩
    have below : ∀ mode, AgreeOn (g.nestedMatcher d) (g.nestedMatcher d') k mode
        (·.length < n + 1) := fun mode pos' s' shorter =>
      ih (by omega) (by omega) mode pos' s' (by omega)
    exact Expr.parseWith_move (productive d) below g.nested mode pos s
      (Or.inr ⟨guarded, short⟩)

/-- A match is the same at every place and at every depth that is no less than the length of the
text. -/
theorem Grammar.parseWith_move (guarded : g.nested.Guarded) (consumes : g.nested.consumes = true)
    (e : Expr ρ) {d d' : Nat} (enough : s.length ≤ d) (enough' : s.length ≤ d') (mode : Mode)
    (pos k : Nat) :
    e.parseWith g.blank (g.nestedMatcher d') mode (pos + k) s =
      (e.parseWith g.blank (g.nestedMatcher d) mode pos s).map (·.move k) := by
  refine Expr.parseWith_move (n := s.length + 1) (g.nestedMatcher_productive consumes d) ?_ e mode
    pos s (Or.inl (Nat.lt_succ_self _))
  intro mode pos' s' shorter
  exact g.nestedMatcher_move guarded consumes s.length k enough enough' mode pos' s'
    (Nat.lt_succ_iff.mp shorter)

end Verbatim.Peg
