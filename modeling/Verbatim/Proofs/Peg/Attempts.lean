import Verbatim.Peg.Attempts
import Verbatim.Proofs.Peg.Spread

/-!
# Where failures are reported

The furthest place moves in one direction only, and only to places between two characters of the
text that is matched (`Expr.attemptsWith_advances`). A rule that fails outside a token moves it to
its own start at least (`le_attempts_rule`). Each expression gives its attempts on to its parts as
it gives its matches on, so a failure is found by following the parts that match.
-/

namespace Verbatim.Peg

open Text

variable {ρ : Type} {blank : Char → Bool} {inner : Matcher ρ} {innerTrack : Tracker ρ} {mode : Mode}
  {pos : Nat} {s : List Char} {m : Match ρ} {known found : Attempts ρ}

namespace Attempts

/-! ### One report -/

/-- A report leaves the furthest place where it is, or moves it to where the rule failed. -/
theorem report_offset (a : Attempts ρ) (name : ρ) (pos before : Nat) :
    (a.report name pos before).offset = max a.offset pos := by
  rcases Nat.lt_trichotomy a.offset pos with far | here | near
  · have apart : pos ≠ a.offset := by omega
    simp [report, countAt, apart, far, Nat.max_eq_right far.le]
  · subst here
    by_cases counted : a.expected.length = before + 1 <;> simp [report, countAt, counted]
  · have apart : pos ≠ a.offset := by omega
    have behind : ¬ a.offset < pos := by omega
    simp [report, countAt, apart, behind, Nat.max_eq_left near.le]

/-- What failed nearer than the furthest place is not reported. -/
theorem report_of_lt (a : Attempts ρ) (name : ρ) {pos before : Nat} (near : pos < a.offset) :
    a.report name pos before = a := by
  have elsewhere : pos ≠ a.offset := Nat.ne_of_lt near
  have behind : ¬ a.offset < pos := Nat.not_lt_of_lt near
  simp [report, countAt, elsewhere, behind]

/-- What fails behind the furthest place is alone there. -/
theorem report_behind (a : Attempts ρ) (name : ρ) (far : a.offset < pos) :
    a.report name pos (a.countAt pos) = ⟨pos, [name]⟩ := by
  have elsewhere : pos ≠ a.offset := Nat.ne_of_gt far
  simp [report, countAt, elsewhere, far]

/-- What fails at the furthest place by itself is one more that fails there. -/
theorem report_here (expected : List ρ) (name : ρ) (pos : Nat) :
    (Attempts.mk pos expected).report name pos ((Attempts.mk pos expected).countAt pos) =
      ⟨pos, expected ++ [name]⟩ := by
  simp [report, countAt]

/-! ### The way of the furthest place -/

/-- The furthest place does not move back, and only moves to a place in the text. -/
structure Advances (known found : Attempts ρ) (pos : Nat) (s : List Char) : Prop where
  le : known.offset ≤ found.offset
  place : found.offset = known.offset ∨ ∃ n, IsBoundary s n ∧ found.offset = pos + n

namespace Advances

theorem refl (known : Attempts ρ) (pos : Nat) (s : List Char) : Advances known known pos s :=
  ⟨le_rfl, .inl rfl⟩

theorem trans {later : Attempts ρ} (h : Advances known found pos s)
    (h' : Advances found later pos s) : Advances known later pos s := by
  refine ⟨h.le.trans h'.le, ?_⟩
  rcases h'.place with stays | moves
  · rw [stays]
    exact h.place
  · exact .inr moves

/-- Places in the back part of a text are places in the text. -/
theorem behind {front : List Char} (h : Advances known found (pos + byteLength front) s) :
    Advances known found pos (front ++ s) := by
  refine ⟨h.le, h.place.imp_right ?_⟩
  rintro ⟨_, ⟨u, v, rfl, rfl⟩, place⟩
  refine ⟨byteLength (front ++ u), ⟨front ++ u, v, (List.append_assoc ..).symm, rfl⟩, ?_⟩
  rw [place, byteLength_append, Nat.add_assoc]

theorem report (h : Advances known found pos s) (name : ρ) (before : Nat) :
    Advances known (found.report name pos before) pos s := by
  refine h.trans ⟨?_, ?_⟩
  · rw [report_offset]
    exact Nat.le_max_left ..
  · rw [report_offset]
    rcases Nat.le_total pos found.offset with near | far
    · exact .inl (Nat.max_eq_left near)
    · exact .inr ⟨0, ⟨[], s, rfl, rfl⟩, Nat.max_eq_right far⟩

end Advances

end Attempts

attribute [local simp] Expr.attemptsWith

/-- Whatever is matched, the furthest place advances in the text. -/
def Tracker.Advances (track : Tracker ρ) : Prop :=
  ∀ mode pos s known, Attempts.Advances known (track mode pos s known) pos s

/-- The blanks in front of a part, and the part. -/
theorem advances_behind_skip (blank : Char → Bool) (mode : Mode)
    (h : Attempts.Advances known found (pos + byteLength (skip blank mode s).1)
      (skip blank mode s).2) : Attempts.Advances known found pos s := by
  have whole := h.behind
  rwa [skip_append] at whole

/-- The text behind a match, with all that is left. -/
theorem Matcher.CoversIn.advances {a : Matcher ρ} (covers : a.CoversIn mode)
    (matched : a mode pos s = some m)
    (h : Attempts.Advances known found (pos + byteLength m.text) m.rest) :
    Attempts.Advances known found pos s := by
  have whole := h.behind
  rwa [(covers _ _ _ matched).split] at whole

theorem repeatAttempts_advances {a : Matcher ρ} {track : Tracker ρ} (covers : a.CoversIn mode)
    (advances : track.Advances) (bound pos : Nat) (s : List Char) (known : Attempts ρ) :
    Attempts.Advances known (repeatAttempts blank a track mode bound pos s known) pos s := by
  induction bound generalizing pos s known with
  | zero => exact .refl known pos s
  | succ bound ih =>
    simp only [repeatAttempts]
    apply advances_behind_skip blank mode
    split
    · exact advances _ _ _ _
    next here matched =>
      exact (advances _ _ _ _).trans (covers.advances matched (ih _ _ _))

/-- The furthest place advances while an expression is matched, if it does in the recursive one. -/
theorem Expr.attemptsWith_advances (covers : ∀ mode, inner.CoversIn mode)
    (recursive : innerTrack.Advances) (e : Expr ρ) :
    Tracker.Advances (e.attemptsWith blank inner innerTrack) := by
  have part : ∀ (e : Expr ρ) mode, Matcher.CoversIn (e.parseWith blank inner) mode :=
    parseWith_covers covers
  induction e with
  | char member => exact fun _ pos s known => .refl known pos s
  | word text => exact fun _ pos s known => .refl known pos s
  | absent a _ => exact fun _ pos s known => .refl known pos s
  | nested => exact recursive
  | opt a inside => exact inside
  | seq a b left right =>
    intro mode pos s known
    simp only [attemptsWith]
    split
    · exact left _ _ _ _
    next first matched =>
      refine (left mode pos s known).trans ((part a mode).advances matched ?_)
      exact advances_behind_skip blank mode (right mode _ _ _)
  | alt a b left right =>
    intro mode pos s known
    simp only [attemptsWith]
    split
    · exact left _ _ _ _
    · exact (left mode pos s known).trans (right mode pos s _)
  | star a inside =>
    intro mode pos s known
    simp only [attemptsWith]
    split
    · exact inside _ _ _ _
    next here matched =>
      exact (inside mode pos s known).trans ((part a mode).advances matched
        (repeatAttempts_advances (part a mode) inside _ _ _ _))
  | rule name kind body inside =>
    intro mode pos s known
    have before := inside (kind.inside mode) pos s known
    simp only [attemptsWith]
    split
    · exact before
    · exact before.report name _

theorem Grammar.nestedTracker_advances (g : Grammar ρ) (depth : Nat) :
    (g.nestedTracker depth).Advances := by
  induction depth with
  | zero => exact fun _ pos s known => .refl known pos s
  | succ depth ih => exact g.nested.attemptsWith_advances (g.nestedMatcher_covers depth) ih

/-! ### Expressions without reports -/

/-- No rule of an expression is reported in a mode. -/
def Expr.quiet : Expr ρ → Mode → Bool
  | char _, _ => true
  | word _, _ => true
  | seq a b, mode => a.quiet mode && b.quiet mode
  | alt a b, mode => a.quiet mode && b.quiet mode
  | opt a, mode => a.quiet mode
  | star a, mode => a.quiet mode
  | absent _, _ => true
  | rule _ kind body, mode => mode = .token && body.quiet (kind.inside mode)
  | nested, _ => false

theorem repeatAttempts_eq {a : Matcher ρ} {track : Tracker ρ}
    (same : ∀ pos s known, track mode pos s known = known) (bound pos : Nat) (s : List Char)
    (known : Attempts ρ) : repeatAttempts blank a track mode bound pos s known = known := by
  induction bound generalizing pos s with
  | zero => rfl
  | succ bound ih =>
    simp only [repeatAttempts, same]
    split
    · rfl
    · exact ih _ _

theorem Expr.attempts_of_quiet {e : Expr ρ} (h : e.quiet mode = true) (pos : Nat) (s : List Char)
    (known : Attempts ρ) : e.attemptsWith blank inner innerTrack mode pos s known = known := by
  induction e generalizing mode pos s known with
  | char member => rfl
  | word text => rfl
  | absent a _ => rfl
  | nested => cases h
  | opt a inside => exact inside h pos s known
  | seq a b left right =>
    obtain ⟨hl, hr⟩ := Bool.and_eq_true_iff.mp h
    simp only [attemptsWith, left hl]
    split
    · rfl
    · exact right hr _ _ _
  | alt a b left right =>
    obtain ⟨hl, hr⟩ := Bool.and_eq_true_iff.mp h
    simp only [attemptsWith, left hl]
    split
    · rfl
    · exact right hr _ _ _
  | star a inside =>
    simp only [attemptsWith, inside h]
    split
    · rfl
    · exact repeatAttempts_eq (inside h) _ _ _ _
  | rule name kind body inside =>
    obtain ⟨token, hb⟩ := Bool.and_eq_true_iff.mp h
    obtain rfl : mode = .token := by simpa using token
    simp [inside hb]

/-! ### Following the parts that match -/

namespace Expr

variable {a b : Expr ρ}

/-- Behind a part that matches, the attempts go on with the next part. -/
theorem attempts_seq {first : Match ρ} (matched : a.parseWith blank inner mode pos s = some first)
    (known : Attempts ρ) : (seq a b).attemptsWith blank inner innerTrack mode pos s known =
      b.attemptsWith blank inner innerTrack mode
        (pos + byteLength first.text + byteLength (skip blank mode first.rest).1)
        (skip blank mode first.rest).2
        (a.attemptsWith blank inner innerTrack mode pos s known) := by
  simp [matched]

/-- Behind a part that matches, only the next part can fail. -/
theorem seq_eq_none_iff {first : Match ρ}
    (matched : a.parseWith blank inner mode pos s = some first) :
    (seq a b).parseWith blank inner mode pos s = none ↔
      b.parseWith blank inner mode
        (pos + byteLength first.text + byteLength (skip blank mode first.rest).1)
        (skip blank mode first.rest).2 = none := by
  simp only [parseWith, thenMatch, matched, bind, Option.bind_some]
  cases b.parseWith blank inner mode
    (pos + byteLength first.text + byteLength (skip blank mode first.rest).1)
    (skip blank mode first.rest).2 <;> simp

theorem attempts_seq_eq (nothing : a.parseWith blank inner mode pos s = none)
    (known : Attempts ρ) : (seq a b).attemptsWith blank inner innerTrack mode pos s known =
      a.attemptsWith blank inner innerTrack mode pos s known := by
  simp [nothing]

theorem rule_eq_none_iff {name : ρ} {kind : RuleKind} {body : Expr ρ} :
    (rule name kind body).parseWith blank inner mode pos s = none ↔
      body.parseWith blank inner (kind.inside mode) pos s = none := by
  simp [parseWith]

/-- A rule takes nothing back of what its body has reached. -/
theorem body_le_attempts_rule (name : ρ) (kind : RuleKind) (body : Expr ρ) (mode : Mode) (pos : Nat)
    (s : List Char) (known : Attempts ρ) :
    (body.attemptsWith blank inner innerTrack (kind.inside mode) pos s known).offset ≤
      ((rule name kind body).attemptsWith blank inner innerTrack mode pos s known).offset := by
  simp only [attemptsWith]
  split
  · exact le_rfl
  · rw [Attempts.report_offset]
    exact Nat.le_max_left ..

/-- A rule that fails outside a token is reported. -/
theorem attempts_rule_of_none {name : ρ} {kind : RuleKind} {body : Expr ρ} (outside : mode ≠ .token)
    (fails : body.parseWith blank inner (kind.inside mode) pos s = none) (known : Attempts ρ) :
    (rule name kind body).attemptsWith blank inner innerTrack mode pos s known =
      (body.attemptsWith blank inner innerTrack (kind.inside mode) pos s known).report name pos
        (known.countAt pos) := by
  simp [outside, fails]

/-- Only a rule itself is reported if nothing inside it is. -/
theorem attempts_rule_of_quiet {name : ρ} {kind : RuleKind} {body : Expr ρ}
    (outside : mode ≠ .token) (inside : body.quiet (kind.inside mode) = true)
    (fails : (rule name kind body).parseWith blank inner mode pos s = none) (known : Attempts ρ) :
    (rule name kind body).attemptsWith blank inner innerTrack mode pos s known =
      known.report name pos (known.countAt pos) := by
  rw [attempts_rule_of_none outside (rule_eq_none_iff.mp fails), attempts_of_quiet inside]

/-- A rule that matches is not reported. -/
theorem attempts_rule_of_some {name : ρ} {kind : RuleKind} {body : Expr ρ}
    (matched : body.parseWith blank inner (kind.inside mode) pos s = some m) (known : Attempts ρ) :
    (rule name kind body).attemptsWith blank inner innerTrack mode pos s known =
      body.attemptsWith blank inner innerTrack (kind.inside mode) pos s known := by
  simp [matched]

/-- Where the first part of a choice fails, the second is tried. -/
theorem attempts_alt_of_none (nothing : a.parseWith blank inner mode pos s = none)
    (known : Attempts ρ) : (alt a b).attemptsWith blank inner innerTrack mode pos s known =
      b.attemptsWith blank inner innerTrack mode pos s
        (a.attemptsWith blank inner innerTrack mode pos s known) := by
  simp [nothing]

/-- A repetition without a turn is no more than an attempt of one. -/
theorem attempts_star_of_none (nothing : a.parseWith blank inner mode pos s = none)
    (known : Attempts ρ) : (star a).attemptsWith blank inner innerTrack mode pos s known =
      a.attemptsWith blank inner innerTrack mode pos s known := by
  simp [nothing]

/-- A rule that fails outside a token is reported at its start, if nothing further is known. -/
theorem le_attempts_rule {name : ρ} {kind : RuleKind} {body : Expr ρ} (outside : mode ≠ .token)
    (fails : (rule name kind body).parseWith blank inner mode pos s = none) (known : Attempts ρ) :
    pos ≤ ((rule name kind body).attemptsWith blank inner innerTrack mode pos s known).offset := by
  rw [attempts_rule_of_none outside (rule_eq_none_iff.mp fails), Attempts.report_offset]
  exact Nat.le_max_right ..

end Expr

end Verbatim.Peg
