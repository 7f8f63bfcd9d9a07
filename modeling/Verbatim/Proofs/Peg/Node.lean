import Verbatim.Proofs.Peg.Spread

/-!
# Where nodes come from

Every node of a parse tree, however deep, is what the body of its rule makes of the text that the
node covers, at the place where it stands (`Grammar.Makes`, `Expr.parseWith_makes`). What holds of
the nodes of one rule can so be read off the production of that rule, without an induction over the
tree.
-/

namespace Verbatim.Peg

variable {ρ : Type} {blank : Char → Bool} {inner : Matcher ρ} {mode : Mode} {pos : Nat}
  {s : List Char} {m : Match ρ} {g : Grammar ρ} {productions : ρ → Expr ρ}

/-- A node is a tree itself or lies anywhere inside it. -/
inductive Tree.Within : Tree ρ → Tree ρ → Prop where
  | self (t : Tree ρ) : Within t t
  | child {n c t : Tree ρ} (member : c ∈ t.children) (inside : Within n c) : Within n t

/-- The children of a node inside a tree are inside the tree. -/
theorem Tree.Within.of_parent {n parent t : Tree ρ} (h : parent.Within t)
    (member : n ∈ parent.children) : n.Within t := by
  induction h with
  | self => exact .child member (.self n)
  | child deeper _ ih => exact .child deeper ih

/-- A node stands in a text with the characters that it matched. -/
def Tree.StandsIn (t : Tree ρ) (s : List Char) : Prop :=
  ∃ before behind, s = before ++ t.text ++ behind ∧ t.start = Text.byteLength before

theorem Tree.StandsIn.slice {t : Tree ρ} (h : t.StandsIn s) :
    Text.slice? s t.start t.stop = some t.text := by
  obtain ⟨before, behind, split, start⟩ := h
  rw [Tree.stop, split, start]
  exact Text.slice?_append before t.text behind

theorem Tree.StandsIn.borders {t : Tree ρ} (h : t.StandsIn s) :
    Text.IsBoundary s t.start ∧ Text.IsBoundary s t.stop := by
  obtain ⟨before, behind, split, start⟩ := h
  constructor
  · exact ⟨before, t.text ++ behind, by rw [split, List.append_assoc], start.symm⟩
  · exact ⟨before ++ t.text, behind, split, by rw [Text.byteLength_append, Tree.stop, start]⟩

/-- What stands inside a node stands in the text as well, however deep it lies. -/
theorem Tree.StandsIn.within {n t : Tree ρ} (inside : n.Within t) (h : t.StandsIn s)
    (spread : ∀ u : Tree ρ, u.Within t → Spread u.start u.text u.children) : n.StandsIn s := by
  induction inside with
  | self => exact h
  | @child c t member _ ih =>
    apply ih
    · obtain ⟨before, behind, rfl, start⟩ := h
      obtain ⟨front, back, split, place⟩ := (spread t (.self t)).exists_split member
      refine ⟨before ++ front, back ++ behind, by simp [split], ?_⟩
      rw [place, start, Text.byteLength_append]
    · intro u deeper
      exact spread u (.child member deeper)

/-- Every rule in an expression is the one that a table of productions has under its name. -/
def Expr.Follows (productions : ρ → Expr ρ) : Expr ρ → Prop
  | char _ | word _ | nested => True
  | seq a b => a.Follows productions ∧ b.Follows productions
  | alt a b => a.Follows productions ∧ b.Follows productions
  | opt a | star a | absent a => a.Follows productions
  | rule name kind body => productions name = .rule name kind body ∧ body.Follows productions

/-- A node is what the body of its rule makes of the text that the node covers, with some text
behind it. -/
def Grammar.Makes (g : Grammar ρ) (productions : ρ → Expr ρ) (n : Tree ρ) : Prop :=
  ∃ kind body depth mode rest, productions n.rule = .rule n.rule kind body ∧
    kind.makesNode mode = true ∧
    body.parseWith g.blank (g.nestedMatcher depth) (kind.inside mode) n.start (n.text ++ rest) =
      some ⟨n.text, n.children, rest⟩

/-- All nodes of a match, at any depth, are made by their rules. -/
def Grammar.MakesAll (g : Grammar ρ) (productions : ρ → Expr ρ) (trees : List (Tree ρ)) : Prop :=
  ∀ t ∈ trees, ∀ n : Tree ρ, n.Within t → g.Makes productions n

namespace Grammar.MakesAll

theorem nil : g.MakesAll productions [] := by
  intro t member
  cases member

theorem append {ts us : List (Tree ρ)} (left : g.MakesAll productions ts)
    (right : g.MakesAll productions us) : g.MakesAll productions (ts ++ us) := by
  intro t member
  rcases List.mem_append.mp member with member | member
  · exact left t member
  · exact right t member

/-- A node over nodes that are made by their rules. -/
theorem node {t : Tree ρ} (made : g.Makes productions t)
    (inside : g.MakesAll productions t.children) : g.MakesAll productions [t] := by
  intro u member n within
  obtain rfl := List.mem_singleton.mp member
  cases within with
  | self => exact made
  | child below deeper => exact inside _ below n deeper

end Grammar.MakesAll

/-- What every match of a matcher is like: all its nodes are made by their rules. -/
def Matcher.MakesNodes (a : Matcher ρ) (g : Grammar ρ) (productions : ρ → Expr ρ) : Prop :=
  ∀ mode pos s m, a mode pos s = some m → g.MakesAll productions m.trees

theorem repeatMatch_makes {a : Matcher ρ} (part : a.MakesNodes g productions) (mode : Mode)
    (bound pos : Nat) (s : List Char) :
    g.MakesAll productions (repeatMatch blank a mode bound pos s).trees := by
  induction bound generalizing pos s with
  | zero => exact .nil
  | succ bound ih =>
    simp only [repeatMatch]
    split
    · exact .nil
    next here found => exact (part _ _ _ _ found).append (ih _ _)

theorem starMatch_makes {a : Matcher ρ} (part : a.MakesNodes g productions) (mode : Mode)
    (pos : Nat) (s : List Char) : g.MakesAll productions (starMatch blank a mode pos s).trees := by
  simp only [starMatch]
  split
  · exact .nil
  next here found => exact (part _ _ _ _ found).append (repeatMatch_makes part mode _ _ _)

theorem Expr.parseWith_makes {depth : Nat}
    (recursive : (g.nestedMatcher depth).MakesNodes g productions) {e : Expr ρ}
    (follows : e.Follows productions) :
    Matcher.MakesNodes (e.parseWith g.blank (g.nestedMatcher depth)) g productions := by
  induction e with
  | char member =>
    intro mode pos s m h
    obtain ⟨c, rest, _, _, rfl⟩ := parseWith_char.mp h
    exact .nil
  | word text =>
    intro mode pos s m h
    obtain ⟨rest, _, rfl⟩ := parseWith_word.mp h
    exact .nil
  | seq a b left right =>
    intro mode pos s m h
    obtain ⟨first, second, matched, followed, rfl⟩ := parseWith_seq.mp h
    exact (left follows.1 _ _ _ _ matched).append (right follows.2 _ _ _ _ followed)
  | alt a b left right =>
    intro mode pos s m h
    obtain found | ⟨_, found⟩ := parseWith_alt.mp h
    · exact left follows.1 _ _ _ _ found
    · exact right follows.2 _ _ _ _ found
  | opt a part =>
    intro mode pos s m h
    obtain found | ⟨_, rfl⟩ := parseWith_opt.mp h
    · exact part follows _ _ _ _ found
    · exact .nil
  | star a part =>
    intro mode pos s m h
    rw [parseWith_star] at h
    subst h
    exact starMatch_makes (part follows) mode pos s
  | absent a _ =>
    intro mode pos s m h
    obtain ⟨_, rfl⟩ := parseWith_absent.mp h
    exact .nil
  | rule name kind body inside =>
    intro mode pos s m h
    obtain ⟨found, matched, rfl⟩ := parseWith_rule.mp h
    have deeper := inside follows.2 _ _ _ _ matched
    split
    next makes =>
      have split := (parseWith_covers (g.nestedMatcher_covers depth) body _ _ _ _ matched).split
      refine .node ?_ deeper
      exact ⟨kind, body, depth, mode, found.rest, follows.1, makes, split ▸ matched⟩
    · exact deeper
  | nested => exact recursive

theorem Grammar.nestedMatcher_makes (follows : g.nested.Follows productions) (depth : Nat) :
    (g.nestedMatcher depth).MakesNodes g productions := by
  induction depth with
  | zero =>
    intro mode pos s m h
    cases h
  | succ depth ih => exact Expr.parseWith_makes ih follows

/-- The nodes inside a made node are spread over its text. -/
theorem Grammar.Makes.spread {n : Tree ρ} (made : g.Makes productions n) :
    Spread n.start n.text n.children := by
  obtain ⟨kind, body, depth, mode, rest, _, _, parsed⟩ := made
  exact (Expr.parseWith_covers (g.nestedMatcher_covers depth) body _ _ _ _ parsed).spread

end Verbatim.Peg
