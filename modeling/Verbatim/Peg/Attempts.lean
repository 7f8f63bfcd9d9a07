import Verbatim.Peg.Parse

/-!
# The furthest failures of a match

An expression that does not match is reported by the furthest place at which a rule failed and the
rules that failed there. `Grammar.attempts` follows the same path as `Grammar.parse` and collects
them. A rule whose parts failed at its own start stands in for them, unless just one of them did:
the single part says more than the whole.
-/

namespace Verbatim.Peg

variable {ρ : Type}

/-- The furthest place where a rule failed, and the rules that failed there in order. -/
structure Attempts (ρ : Type) where
  /-- The byte offset of the place. -/
  offset : Nat
  /-- The rules that failed there. -/
  expected : List ρ
  deriving DecidableEq, Repr

namespace Attempts

/-- Before anything was tried. -/
def none : Attempts ρ := ⟨0, []⟩

/-- How many failures are known at a place. -/
def countAt (a : Attempts ρ) (pos : Nat) : Nat := if pos = a.offset then a.expected.length else 0

/-- Records that a rule failed at `pos`, where `before` failures were known when it was entered. -/
def report (a : Attempts ρ) (name : ρ) (pos before : Nat) : Attempts ρ :=
  if a.countAt pos = before + 1 then a
  else if a.offset < pos then ⟨pos, [name]⟩
  else if pos = a.offset then ⟨pos, a.expected.take before ++ [name]⟩
  else a

end Attempts

/-- What a match at a place adds to the attempts so far. -/
abbrev Tracker (ρ : Type) := Mode → Nat → List Char → Attempts ρ → Attempts ρ

/-- The attempts of at most `bound` further repetitions. -/
def repeatAttempts (blank : Char → Bool) (a : Matcher ρ) (track : Tracker ρ) (mode : Mode) :
    Nat → Nat → List Char → Attempts ρ → Attempts ρ
  | 0, _, _, known => known
  | bound + 1, pos, s, known =>
    let (gap, s') := skip blank mode s
    let pos' := pos + Text.byteLength gap
    let known' := track mode pos' s' known
    match a mode pos' s' with
    | .none => known'
    | some here =>
      repeatAttempts blank a track mode bound (pos' + Text.byteLength here.text) here.rest known'

/-- Collects the failures of an expression, with `inner` and `innerTrack` for the recursive one.
Nothing inside `absent` is reported, and nothing inside a token. -/
def Expr.attemptsWith (blank : Char → Bool) (inner : Matcher ρ) (innerTrack : Tracker ρ) :
    Expr ρ → Tracker ρ
  | char _ => fun _ _ _ known => known
  | word _ => fun _ _ _ known => known
  | seq a b => fun mode pos s known =>
    let known' := a.attemptsWith blank inner innerTrack mode pos s known
    match a.parseWith blank inner mode pos s with
    | .none => known'
    | some first =>
      let (gap, s') := skip blank mode first.rest
      b.attemptsWith blank inner innerTrack mode
        (pos + Text.byteLength first.text + Text.byteLength gap) s' known'
  | alt a b => fun mode pos s known =>
    let known' := a.attemptsWith blank inner innerTrack mode pos s known
    match a.parseWith blank inner mode pos s with
    | some _ => known'
    | .none => b.attemptsWith blank inner innerTrack mode pos s known'
  | opt a => a.attemptsWith blank inner innerTrack
  | star a => fun mode pos s known =>
    let known' := a.attemptsWith blank inner innerTrack mode pos s known
    match a.parseWith blank inner mode pos s with
    | .none => known'
    | some here =>
      repeatAttempts blank (a.parseWith blank inner) (a.attemptsWith blank inner innerTrack) mode
        s.length (pos + Text.byteLength here.text) here.rest known'
  | absent _ => fun _ _ _ known => known
  | rule name kind body => fun mode pos s known =>
    let known' := body.attemptsWith blank inner innerTrack (kind.inside mode) pos s known
    if mode = .token ∨ (body.parseWith blank inner (kind.inside mode) pos s).isSome then known'
    else known'.report name pos (known.countAt pos)
  | nested => innerTrack

/-- Collects the failures of the recursive expression, entering it at most `depth` times. -/
def Grammar.nestedTracker (g : Grammar ρ) : Nat → Tracker ρ
  | 0 => fun _ _ _ known => known
  | depth + 1 => g.nested.attemptsWith g.blank (g.nestedMatcher depth) (g.nestedTracker depth)

/-- The furthest failures met while matching an expression at the start of `s`. -/
def Grammar.attempts (g : Grammar ρ) (e : Expr ρ) : Tracker ρ := fun mode pos s known =>
  e.attemptsWith g.blank (g.nestedMatcher s.length) (g.nestedTracker s.length) mode pos s known

end Verbatim.Peg
