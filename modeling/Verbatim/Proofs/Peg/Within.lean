import Verbatim.Proofs.Peg.Attempts
import Verbatim.Proofs.Peg.Keep

/-!
# Failures within what is matched

Matching reports failures on the way: a part that is tried and given up, a repetition that finds no
further turn. An expression stays `Inside` what it takes if none of these failures lies behind the
text that it takes. Most expressions only report failures at their own start (`Expr.shallow`), so
the question is where their parts are tried in vain.
-/

namespace Verbatim.Peg

open Text

variable {ρ : Type} {blank : Char → Bool} {inner : Matcher ρ} {innerTrack : Tracker ρ} {mode : Mode}
  {pos limit limit' : Nat} {s w x t gap : List Char} {m : Match ρ} {ts : List (Tree ρ)}
  {known found : Attempts ρ} {P Q : List Char → Prop}

/-- No failure behind a limit is reported. In particular all that is known from behind the limit
stays as it is. -/
structure Attempts.Within (limit : Nat) (known found : Attempts ρ) : Prop where
  le : found.offset ≤ max known.offset limit
  same : limit < known.offset → found = known

namespace Attempts.Within

theorem refl (limit : Nat) (known : Attempts ρ) : Within limit known known :=
  ⟨Nat.le_max_left .., fun _ => rfl⟩

theorem trans {later : Attempts ρ} (h : Within limit known found) (h' : Within limit found later) :
    Within limit known later := by
  refine ⟨?_, fun far => ?_⟩
  · have before := h.le
    have after := h'.le
    omega
  · obtain rfl := h.same far
    exact h'.same far

theorem mono (h : Within limit known found) (more : limit ≤ limit') : Within limit' known found :=
  ⟨h.le.trans (by omega), fun far => h.same (more.trans_lt far)⟩

theorem report (h : Within limit known found) (name : ρ) (before : Nat) (near : pos ≤ limit) :
    Within limit known (found.report name pos before) := by
  refine h.trans ⟨?_, fun far => report_of_lt _ _ (near.trans_lt far)⟩
  rw [report_offset]
  omega

end Attempts.Within

/-- Matching at a place reports no failure behind a limit, whatever is known before. -/
def Tracker.Within (track : Tracker ρ) (mode : Mode) (pos : Nat) (s : List Char) (limit : Nat) :
    Prop :=
  ∀ known, Attempts.Within limit known (track mode pos s known)

theorem Tracker.Within.mono {track : Tracker ρ} (h : track.Within mode pos s limit)
    (more : limit ≤ limit') : track.Within mode pos s limit' :=
  fun known => (h known).mono more

/-! ### Failures at the start -/

/-- Only at its own start can a failure in an expression be reported. -/
def Expr.shallow : Expr ρ → Mode → Bool
  | char _, _ => true
  | word _, _ => true
  | seq a b, mode => a.shallow mode && b.quiet mode
  | alt a b, mode => a.shallow mode && b.shallow mode
  | opt a, mode => a.shallow mode
  | star a, mode => a.quiet mode
  | absent _, _ => true
  | rule _ kind body, mode => body.shallow (kind.inside mode)
  | nested, _ => false

namespace Expr

variable {a b : Expr ρ}

theorem within_of_quiet (h : a.quiet mode = true) (pos : Nat) (s : List Char) (limit : Nat) :
    Tracker.Within (a.attemptsWith blank inner innerTrack) mode pos s limit := by
  intro known
  rw [attempts_of_quiet h]
  exact .refl limit known

/-- A sequence whose first part fails. -/
theorem within_seq_of_none (nothing : a.parseWith blank inner mode pos s = none)
    (left : Tracker.Within (a.attemptsWith blank inner innerTrack) mode pos s limit) :
    Tracker.Within ((seq a b).attemptsWith blank inner innerTrack) mode pos s limit := by
  intro known
  rw [attempts_seq_eq nothing]
  exact left known

/-- A sequence whose first part takes a text goes on behind it. -/
theorem attempts_seq_of_takes (taken : (a.parseWith blank inner).Takes mode pos t (gap ++ x) ts)
    (cut : skip blank mode (gap ++ x) = (gap, x)) (known : Attempts ρ) :
    (seq a b).attemptsWith blank inner innerTrack mode pos (t ++ (gap ++ x)) known =
      b.attemptsWith blank inner innerTrack mode (pos + byteLength t + byteLength gap) x
        (a.attemptsWith blank inner innerTrack mode pos (t ++ (gap ++ x)) known) := by
  rw [attempts_seq taken, cut]

theorem within_seq (taken : (a.parseWith blank inner).Takes mode pos t (gap ++ x) ts)
    (cut : skip blank mode (gap ++ x) = (gap, x))
    (left : Tracker.Within (a.attemptsWith blank inner innerTrack) mode pos (t ++ (gap ++ x)) limit)
    (right : Tracker.Within (b.attemptsWith blank inner innerTrack) mode
      (pos + byteLength t + byteLength gap) x limit) :
    Tracker.Within ((seq a b).attemptsWith blank inner innerTrack) mode pos (t ++ (gap ++ x))
      limit := by
  intro known
  rw [attempts_seq_of_takes taken cut]
  exact (left known).trans (right _)

/-- The second part of a choice is tried only where the first fails. -/
theorem within_alt
    (left : Tracker.Within (a.attemptsWith blank inner innerTrack) mode pos s limit)
    (right : a.parseWith blank inner mode pos s = none →
      Tracker.Within (b.attemptsWith blank inner innerTrack) mode pos s limit) :
    Tracker.Within ((alt a b).attemptsWith blank inner innerTrack) mode pos s limit := by
  intro known
  simp only [attemptsWith]
  split
  · exact left known
  next nothing => exact (left known).trans (right nothing _)

theorem within_rule {name : ρ} {kind : RuleKind}
    (body : Tracker.Within (a.attemptsWith blank inner innerTrack) (kind.inside mode) pos s limit)
    (inside : pos ≤ limit) :
    Tracker.Within ((rule name kind a).attemptsWith blank inner innerTrack) mode pos s limit := by
  intro known
  simp only [attemptsWith]
  split
  · exact body known
  · exact (body known).report name _ inside

theorem within_of_shallow {e : Expr ρ} (h : e.shallow mode = true) (s : List Char)
    (inside : pos ≤ limit) :
    Tracker.Within (e.attemptsWith blank inner innerTrack) mode pos s limit := by
  induction e generalizing mode pos s with
  | char member => exact .refl limit
  | word text => exact .refl limit
  | absent a _ => exact .refl limit
  | nested => cases h
  | opt a ih => exact ih h s inside
  | seq a b left _ =>
    obtain ⟨first, second⟩ := Bool.and_eq_true_iff.mp h
    intro known
    simp only [attemptsWith, attempts_of_quiet second]
    split <;> exact left first s inside known
  | alt a b left right =>
    obtain ⟨first, second⟩ := Bool.and_eq_true_iff.mp h
    exact within_alt (left first s inside) fun _ => right second s inside
  | star a _ => exact within_of_quiet (a := .star a) h pos s limit
  | rule name kind body ih => exact within_rule (ih h s inside) inside

end Expr

/-! ### Failures inside what is taken -/

/-- No failure is reported behind the text that is taken, wherever no blank stands in front and the
text behind is of a kind. -/
def Tracker.Inside (track : Tracker ρ) (blank : Char → Bool) (a : Matcher ρ) (mode : Mode)
    (P : List Char → Prop) : Prop :=
  ∀ ⦃pos w x ts⦄, P x → skip blank mode (w ++ x) = ([], w ++ x) → a.Takes mode pos w x ts →
    track.Within mode pos (w ++ x) (pos + byteLength w)

/-- Behind skipped blanks no further ones are skipped. -/
theorem front_of_skip (cut : skip blank mode (gap ++ x) = (gap, x)) :
    skip blank mode x = ([], x) := by
  have again := skip_skip blank mode (gap ++ x)
  rwa [cut] at again

/-- The failures of a repetition: those of its turns, and those of the turn that fails behind
them. -/
theorem Repeats.within {a : Matcher ρ} {track : Tracker ρ} (covers : a.CoversIn mode)
    (each : track.Inside blank a mode fun _ => True) (h : Repeats blank a mode pos s m)
    (last : track.Within mode (pos + byteLength m.text + byteLength (skip blank mode m.rest).1)
      (skip blank mode m.rest).2 limit)
    (room : pos + byteLength m.text ≤ limit) (bound : Nat) (known : Attempts ρ) :
    Attempts.Within limit known (repeatAttempts blank a track mode bound pos s known) := by
  induction h generalizing bound known with
  | @stop pos s exhausted =>
    cases bound with
    | zero => exact .refl limit known
    | succ bound =>
      simp only [repeatAttempts, exhausted]
      exact last known
  | @turn pos s here more found _ ih =>
    simp only [byteLength_append] at last room
    cases bound with
    | zero => exact .refl limit known
    | succ bound =>
      simp only [repeatAttempts, found]
      have split := (covers _ _ _ found).split
      have turn := each trivial (by rw [split, skip_skip]) (covers.takes found)
      rw [split] at turn
      refine ((turn known).mono (by omega)).trans (ih ?_ (by omega) _ _)
      convert last using 1
      omega

namespace Expr

variable {a b : Expr ρ}

theorem inside_of_shallow (h : a.shallow mode = true) :
    Tracker.Inside (a.attemptsWith blank inner innerTrack) blank (a.parseWith blank inner) mode P :=
  fun _ w x _ _ _ _ => within_of_shallow h (w ++ x) (Nat.le_add_right ..)

theorem inside_rule {name : ρ} {kind : RuleKind}
    (body : Tracker.Inside (a.attemptsWith blank inner innerTrack) blank (a.parseWith blank inner)
      (kind.inside mode) P) :
    Tracker.Inside ((rule name kind a).attemptsWith blank inner innerTrack) blank
      ((rule name kind a).parseWith blank inner) mode P := by
  intro pos w x ts behind front taken
  obtain ⟨_, inside, _⟩ := takes_rule.mp taken
  refine within_rule (body behind ?_ inside) (Nat.le_add_right ..)
  cases kind with
  | plain => exact front
  | landmark => exact front
  | compound => rfl
  | token => rfl

/-- A sequence, with what its second part and the blanks in front make of the text behind it. -/
theorem inside_seq (covers : ∀ mode, inner.CoversIn mode)
    (left : Tracker.Inside (a.attemptsWith blank inner innerTrack) blank (a.parseWith blank inner)
      mode Q)
    (right : Tracker.Inside (b.attemptsWith blank inner innerTrack) blank (b.parseWith blank inner)
      mode P)
    (between : ∀ {gap u x pos ts}, P x → skip blank mode (gap ++ (u ++ x)) = (gap, u ++ x) →
      (b.parseWith blank inner).Takes mode pos u x ts → Q (gap ++ (u ++ x))) :
    Tracker.Inside ((seq a b).attemptsWith blank inner innerTrack) blank
      ((seq a b).parseWith blank inner) mode P := by
  intro pos w x ts behind front taken
  obtain ⟨t, gap, u, _, _, rfl, _, cut, first, second⟩ := (takes_seq covers).mp taken
  have whole : t ++ (gap ++ u) ++ x = t ++ (gap ++ (u ++ x)) := by simp
  rw [whole] at front ⊢
  simp only [byteLength_append]
  refine within_seq first cut ((left (between behind cut second) front first).mono (by omega)) ?_
  exact (right behind (front_of_skip cut) second).mono (by omega)

/-- A sequence, where it does not matter to the first part what stands behind it. -/
theorem inside_seq_any (covers : ∀ mode, inner.CoversIn mode)
    (left : Tracker.Inside (a.attemptsWith blank inner innerTrack) blank (a.parseWith blank inner)
      mode fun _ => True)
    (right : Tracker.Inside (b.attemptsWith blank inner innerTrack) blank (b.parseWith blank inner)
      mode P) :
    Tracker.Inside ((seq a b).attemptsWith blank inner innerTrack) blank
      ((seq a b).parseWith blank inner) mode P :=
  inside_seq covers left right fun _ _ _ => trivial

/-- A choice: the first part stays inside what it takes, and also where it fails and the second part
takes the text. -/
theorem inside_alt
    (left : Tracker.Inside (a.attemptsWith blank inner innerTrack) blank (a.parseWith blank inner)
      mode P)
    (right : Tracker.Inside (b.attemptsWith blank inner innerTrack) blank (b.parseWith blank inner)
      mode P)
    (fails : ∀ {pos w x ts}, P x → a.parseWith blank inner mode pos (w ++ x) = none →
      (b.parseWith blank inner).Takes mode pos w x ts →
      Tracker.Within (a.attemptsWith blank inner innerTrack) mode pos (w ++ x)
        (pos + byteLength w)) :
    Tracker.Inside ((alt a b).attemptsWith blank inner innerTrack) blank
      ((alt a b).parseWith blank inner) mode P := by
  intro pos w x ts behind front taken
  rcases takes_alt.mp taken with first | ⟨nothing, second⟩
  · refine within_alt (left behind front first) fun nothing => ?_
    exact absurd (first.symm.trans nothing) (Option.some_ne_none _)
  · exact within_alt (fails behind nothing second) fun _ => right behind front second

/-- An optional part stays inside, also where it fails. -/
theorem inside_opt
    (part : Tracker.Inside (a.attemptsWith blank inner innerTrack) blank (a.parseWith blank inner)
      mode P)
    (fails : ∀ pos x, P x → Tracker.Within (a.attemptsWith blank inner innerTrack) mode pos x pos) :
    Tracker.Inside ((opt a).attemptsWith blank inner innerTrack) blank
      ((opt a).parseWith blank inner) mode P := by
  intro pos w x ts behind front taken
  rcases takes_opt.mp taken with matched | ⟨_, rfl, _⟩
  · exact part behind front matched
  · exact (fails pos x behind).mono (Nat.le_add_right ..)

/-- A repetition, with the turn that fails behind it. -/
theorem within_star (productive : inner.Productive) (consumes : a.consumes = true)
    (each : Tracker.Inside (a.attemptsWith blank inner innerTrack) blank (a.parseWith blank inner)
      mode fun _ => True)
    (front : skip blank mode (w ++ x) = ([], w ++ x))
    (taken : ((star a).parseWith blank inner).Takes mode pos w x ts)
    (last : Tracker.Within (a.attemptsWith blank inner innerTrack) mode
      (pos + byteLength w + byteLength (skip blank mode x).1) (skip blank mode x).2 limit)
    (room : pos + byteLength w ≤ limit) :
    Tracker.Within ((star a).attemptsWith blank inner innerTrack) mode pos (w ++ x) limit := by
  have part : Matcher.CoversIn (a.parseWith blank inner) mode :=
    parseWith_covers productive.covers a mode
  have turns : Repeats blank (a.parseWith blank inner) mode pos (w ++ x) ⟨w, ts, x⟩ := by
    rw [parseWith_star.mp taken]
    exact starMatch_repeats (consumesIn_of_consumes productive consumes mode) front
  intro known
  have same : (star a).attemptsWith blank inner innerTrack mode pos (w ++ x) known =
      repeatAttempts blank (a.parseWith blank inner) (a.attemptsWith blank inner innerTrack) mode
        ((w ++ x).length + 1) pos (w ++ x) known := by
    simp only [attemptsWith, repeatAttempts, front, byteLength_nil, Nat.add_zero]
  rw [same]
  exact turns.within part each last room _ known

/-- A repetition whose last turn reports nothing. -/
theorem inside_star (productive : inner.Productive) (consumes : a.consumes = true)
    (each : Tracker.Inside (a.attemptsWith blank inner innerTrack) blank (a.parseWith blank inner)
      mode fun _ => True)
    (silent : ∀ pos x known, P x → a.attemptsWith blank inner innerTrack mode pos
      (skip blank mode x).2 known = known) :
    Tracker.Inside ((star a).attemptsWith blank inner innerTrack) blank
      ((star a).parseWith blank inner) mode P := by
  intro pos w x ts behind front taken
  refine within_star productive consumes each front taken (fun known => ?_) le_rfl
  rw [silent _ _ _ behind]
  exact .refl _ known

end Expr

end Verbatim.Peg
