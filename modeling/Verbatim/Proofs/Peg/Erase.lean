import Verbatim.Proofs.Peg.Match

/-!
# Expressions with more nodes

A rule around a part of an expression adds a node for the part and changes nothing else, as long as
the rule keeps the mode. So two expressions that differ in such rules match the same texts, and the
outermost nodes of the one are those of the other that are not left out (`Matcher.Erases`). The
relation carries over from the parts of an expression to the whole.
-/

namespace Verbatim.Peg

variable {ρ : Type} {keep : Tree ρ → Bool} {blank : Char → Bool} {inner a a' b b' : Matcher ρ}
  {mode : Mode}

/-- A match without the outermost nodes that are not kept. -/
def Match.erase (keep : Tree ρ → Bool) (m : Match ρ) : Match ρ :=
  { m with trees := m.trees.filter keep }

/-- The second matcher does what the first one does, and leaves nodes out. -/
def Matcher.Erases (keep : Tree ρ → Bool) (a b : Matcher ρ) (mode : Mode) : Prop :=
  ∀ pos s, b mode pos s = (a mode pos s).map (Match.erase keep)

/-- A matcher that makes no other nodes than those that are kept. -/
theorem Matcher.erases_self
    (kept : ∀ pos s m, a mode pos s = some m → ∀ t ∈ m.trees, keep t = true) :
    Matcher.Erases keep a a mode := by
  intro pos s
  cases found : a mode pos s with
  | none => rfl
  | some m => rw [Option.map_some, Match.erase, List.filter_eq_self.mpr (kept pos s m found)]

theorem thenMatch_erases (left : Matcher.Erases keep a a' mode)
    (right : Matcher.Erases keep b b' mode) :
    Matcher.Erases keep (thenMatch blank a b) (thenMatch blank a' b') mode := by
  intro pos s
  simp only [thenMatch, left pos s]
  cases a mode pos s with
  | none => rfl
  | some first =>
    simp only [Option.map_some, Option.bind_eq_bind, Option.bind_some, Match.erase,
      right _ (skip blank mode first.rest).2]
    cases b mode (pos + Text.byteLength first.text +
      Text.byteLength (skip blank mode first.rest).1) (skip blank mode first.rest).2 with
    | none => rfl
    | some second => simp [Match.erase]

theorem repeatMatch_erases (part : Matcher.Erases keep a a' mode) (bound pos : Nat)
    (s : List Char) :
    repeatMatch blank a' mode bound pos s = (repeatMatch blank a mode bound pos s).erase keep := by
  induction bound generalizing pos s with
  | zero => rfl
  | succ bound ih =>
    simp only [repeatMatch, part _ (skip blank mode s).2]
    cases a mode (pos + Text.byteLength (skip blank mode s).1) (skip blank mode s).2 with
    | none => rfl
    | some here => simp [ih, Match.erase]

theorem starMatch_erases (part : Matcher.Erases keep a a' mode) (pos : Nat) (s : List Char) :
    starMatch blank a' mode pos s = (starMatch blank a mode pos s).erase keep := by
  simp only [starMatch, part pos s]
  cases a mode pos s with
  | none => rfl
  | some here => simp [repeatMatch_erases part, Match.erase]

namespace Expr

variable {d d' e e' : Expr ρ}

/-- A rule that keeps the mode, around a part that makes no nodes. -/
theorem erases_rule {name : ρ}
    (left_out : ∀ pos text, keep (.node name pos text []) = false)
    (bare : ∀ pos s m, e.parseWith blank inner mode pos s = some m → m.trees = []) :
    Matcher.Erases keep ((rule name .plain e).parseWith blank inner) (e.parseWith blank inner)
      mode := by
  intro pos s
  simp only [parseWith, RuleKind.inside]
  cases found : e.parseWith blank inner mode pos s with
  | none => rfl
  | some m =>
    obtain ⟨text, trees, rest⟩ := m
    obtain rfl : trees = [] := bare pos s _ found
    simp only [Option.map_some]
    split <;> simp [Match.erase, left_out]

theorem erases_seq
    (left : Matcher.Erases keep (d.parseWith blank inner) (d'.parseWith blank inner) mode)
    (right : Matcher.Erases keep (e.parseWith blank inner) (e'.parseWith blank inner) mode) :
    Matcher.Erases keep ((seq d e).parseWith blank inner) ((seq d' e').parseWith blank inner)
      mode :=
  thenMatch_erases left right

theorem erases_alt
    (left : Matcher.Erases keep (d.parseWith blank inner) (d'.parseWith blank inner) mode)
    (right : Matcher.Erases keep (e.parseWith blank inner) (e'.parseWith blank inner) mode) :
    Matcher.Erases keep ((alt d e).parseWith blank inner) ((alt d' e').parseWith blank inner)
      mode := by
  intro pos s
  simp only [parseWith, left pos s, right pos s]
  cases d.parseWith blank inner mode pos s with
  | none => rfl
  | some m => rfl

theorem erases_opt
    (part : Matcher.Erases keep (e.parseWith blank inner) (e'.parseWith blank inner) mode) :
    Matcher.Erases keep ((opt e).parseWith blank inner) ((opt e').parseWith blank inner) mode := by
  intro pos s
  simp only [parseWith, part pos s]
  cases e.parseWith blank inner mode pos s with
  | none => rfl
  | some m => rfl

theorem erases_star
    (part : Matcher.Erases keep (e.parseWith blank inner) (e'.parseWith blank inner) mode) :
    Matcher.Erases keep ((star e).parseWith blank inner) ((star e').parseWith blank inner)
      mode := by
  intro pos s
  simp only [parseWith, starMatch_erases part, Option.map_some]

end Expr

end Verbatim.Peg
