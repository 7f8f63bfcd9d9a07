import Verbatim.Peg.Expr

/-!
# Matching a parsing expression

`Grammar.parse` matches an expression at the start of a text. It is total: an expression is matched
by recursion on its structure, a repetition is bounded by the length of the text, and each turn
through the recursive expression lowers a bound that starts at that length.
-/

namespace Verbatim.Peg

variable {ρ : Type}

/-- What matches at a place: given the mode, the place's byte offset and the text from there. -/
abbrev Matcher (ρ : Type) := Mode → Nat → List Char → Option (Match ρ)

/-- The blanks skipped before the next part, and the text after them. -/
def skip (blank : Char → Bool) (mode : Mode) (s : List Char) : List Char × List Char :=
  match mode with
  | .spaced => (s.takeWhile blank, s.dropWhile blank)
  | _ => ([], s)

/-- `a` and then `b`, with the blanks between them. -/
def thenMatch (blank : Char → Bool) (a b : Matcher ρ) : Matcher ρ := fun mode pos s => do
  let first ← a mode pos s
  let (gap, s') := skip blank mode first.rest
  let second ← b mode (pos + Text.byteLength first.text + Text.byteLength gap) s'
  return ⟨first.text ++ gap ++ second.text, first.trees ++ second.trees, second.rest⟩

/-- Matches `a` at most `bound` times more. Blanks before a repetition that fails are left alone. -/
def repeatMatch (blank : Char → Bool) (a : Matcher ρ) (mode : Mode) :
    Nat → Nat → List Char → Match ρ
  | 0, _, s => .empty s
  | bound + 1, pos, s =>
    let (gap, s') := skip blank mode s
    let pos' := pos + Text.byteLength gap
    match a mode pos' s' with
    | none => .empty s
    | some here =>
      let more := repeatMatch blank a mode bound (pos' + Text.byteLength here.text) here.rest
      ⟨gap ++ here.text ++ more.text, here.trees ++ more.trees, more.rest⟩

/-- Matches `a` as often as possible. Only the repetitions after the first may start with blanks. -/
def starMatch (blank : Char → Bool) (a : Matcher ρ) (mode : Mode) (pos : Nat) (s : List Char) :
    Match ρ :=
  match a mode pos s with
  | none => .empty s
  | some here =>
    let more := repeatMatch blank a mode s.length (pos + Text.byteLength here.text) here.rest
    ⟨here.text ++ more.text, here.trees ++ more.trees, more.rest⟩

/-- Whether a rule that stands in this mode makes a node. -/
def RuleKind.makesNode (kind : RuleKind) (mode : Mode) : Bool := kind != .landmark && mode != .token

/-- Matches an expression, with `inner` for the recursive one. -/
def Expr.parseWith (blank : Char → Bool) (inner : Matcher ρ) : Expr ρ → Matcher ρ
  | char member => fun _ _ s =>
    match s with
    | [] => none
    | c :: s => if member c then some ⟨[c], [], s⟩ else none
  | word text => fun _ _ s =>
    if text.isPrefixOf s then some ⟨text, [], s.drop text.length⟩ else none
  | seq a b => thenMatch blank (a.parseWith blank inner) (b.parseWith blank inner)
  | alt a b => fun mode pos s =>
    (a.parseWith blank inner mode pos s).or (b.parseWith blank inner mode pos s)
  | opt a => fun mode pos s => some ((a.parseWith blank inner mode pos s).getD (.empty s))
  | star a => fun mode pos s => some (starMatch blank (a.parseWith blank inner) mode pos s)
  | absent a => fun mode pos s =>
    if (a.parseWith blank inner mode pos s).isSome then none else some (.empty s)
  | rule name kind body => fun mode pos s =>
    (body.parseWith blank inner (kind.inside mode) pos s).map fun m =>
      if kind.makesNode mode then { m with trees := [.node name pos m.text m.trees] } else m
  | nested => inner

/-- Matches the recursive expression, entering it at most `depth` times on any path. -/
def Grammar.nestedMatcher (g : Grammar ρ) : Nat → Matcher ρ
  | 0 => fun _ _ _ => none
  | depth + 1 => g.nested.parseWith g.blank (g.nestedMatcher depth)

/-- Matches an expression at the start of `s`, which stands at byte offset `pos`. -/
def Grammar.parse (g : Grammar ρ) (e : Expr ρ) : Matcher ρ := fun mode pos s =>
  e.parseWith g.blank (g.nestedMatcher s.length) mode pos s

end Verbatim.Peg
