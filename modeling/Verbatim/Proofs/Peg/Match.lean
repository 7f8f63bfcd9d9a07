import Mathlib.Data.List.TakeWhile
import Verbatim.Peg.Parse

/-!
# What a match is made of

Each kind of expression has one equivalence that takes its matches apart (`parseWith_seq`,
`parseWith_rule` and so on); later modules use these, and unfold the matcher only to run it over
characters they know. For a repetition
the bound on the number of turns is no limit: `Repeats` says without it what a repetition does, and
`starMatch_repeats` shows that it takes its part as often as the part matches.
-/

namespace Verbatim.Peg

variable {ρ : Type} {blank : Char → Bool} {inner : Matcher ρ} {mode : Mode} {pos : Nat}
  {s : List Char} {m : Match ρ}

/-! ### Blanks between parts -/

theorem skip_append (blank : Char → Bool) (mode : Mode) (s : List Char) :
    (skip blank mode s).1 ++ (skip blank mode s).2 = s := by
  cases mode <;> simp [skip]

theorem blank_of_mem_skip {c : Char} (h : c ∈ (skip blank mode s).1) : blank c = true := by
  cases mode with
  | spaced => exact List.mem_takeWhile_imp h
  | adjacent => simp [skip] at h
  | token => simp [skip] at h

/-- Without skipped blanks the parts of a match stand next to each other. -/
theorem skip_fst_eq_nil (h : mode ≠ .spaced) : (skip blank mode s).1 = [] := by
  cases mode with
  | spaced => exact absurd rfl h
  | adjacent => rfl
  | token => rfl

/-- Blanks are skipped to the last one. -/
theorem not_blank_of_skip_eq_cons {c : Char} {rest : List Char}
    (h : (skip blank .spaced s).2 = c :: rest) : blank c = false := by
  have found := List.head?_dropWhile_not blank s
  simp only [skip] at h
  simpa [h] using found

/-- Nothing is skipped where no blank stands in front. -/
theorem skip_eq_self (mode : Mode) (front : ∀ c, s.head? = some c → blank c = false) :
    skip blank mode s = ([], s) := by
  cases mode with
  | spaced =>
    cases s with
    | nil => rfl
    | cons c rest =>
      have visible : blank c = false := front c rfl
      simp [skip, visible]
  | adjacent => rfl
  | token => rfl

/-- What stands behind skipped blanks has no blanks in front. -/
theorem skip_skip (blank : Char → Bool) (mode : Mode) (s : List Char) :
    skip blank mode (skip blank mode s).2 = ([], (skip blank mode s).2) := by
  cases mode with
  | spaced =>
    apply skip_eq_self
    intro c first
    cases behind : (skip blank .spaced s).2 with
    | nil => simp [behind] at first
    | cons d rest =>
      have same : d = c := by simpa [behind] using first
      exact same ▸ not_blank_of_skip_eq_cons behind
  | adjacent => rfl
  | token => rfl

/-! ### Matches of each kind of expression -/

theorem thenMatch_eq_some {a b : Matcher ρ} :
    thenMatch blank a b mode pos s = some m ↔
      ∃ first second, a mode pos s = some first ∧
        b mode (pos + Text.byteLength first.text + Text.byteLength (skip blank mode first.rest).1)
          (skip blank mode first.rest).2 = some second ∧
        m = ⟨first.text ++ (skip blank mode first.rest).1 ++ second.text,
          first.trees ++ second.trees, second.rest⟩ := by
  simp only [thenMatch, bind, Option.bind_eq_some_iff, pure, Option.some.injEq]
  constructor
  · rintro ⟨first, matched, second, followed, rfl⟩
    exact ⟨first, second, matched, followed, rfl⟩
  · rintro ⟨first, second, matched, followed, rfl⟩
    exact ⟨first, matched, second, followed, rfl⟩

namespace Expr

section

attribute [local simp] parseWith

theorem parseWith_char {member : Char → Bool} :
    (char member : Expr ρ).parseWith blank inner mode pos s = some m ↔
      ∃ c rest, s = c :: rest ∧ member c = true ∧ m = ⟨[c], [], rest⟩ := by
  constructor
  · intro h
    unfold parseWith at h
    split at h
    · cases h
    next c rest =>
      split at h
      next found => exact ⟨c, rest, rfl, found, (Option.some.inj h).symm⟩
      · cases h
  · rintro ⟨c, rest, rfl, found, rfl⟩
    simp [found]

theorem parseWith_char_eq_none {member : Char → Bool} :
    (char member : Expr ρ).parseWith blank inner mode pos s = none ↔
      ∀ c, s.head? = some c → member c = false := by
  cases s with
  | nil => simp
  | cons c rest => simp

end

theorem parseWith_word {text : List Char} :
    (word text : Expr ρ).parseWith blank inner mode pos s = some m ↔
      ∃ rest, s = text ++ rest ∧ m = ⟨text, [], rest⟩ := by
  simp only [parseWith, List.isPrefixOf_iff_prefix]
  split
  next h =>
    obtain ⟨rest, rfl⟩ := h
    simp [eq_comm]
  next h =>
    simp only [reduceCtorEq, false_iff, not_exists, not_and]
    rintro rest rfl _
    exact h (List.prefix_append _ _)

theorem parseWith_seq {a b : Expr ρ} :
    (seq a b).parseWith blank inner mode pos s = some m ↔
      ∃ first second, a.parseWith blank inner mode pos s = some first ∧
        b.parseWith blank inner mode
          (pos + Text.byteLength first.text + Text.byteLength (skip blank mode first.rest).1)
          (skip blank mode first.rest).2 = some second ∧
        m = ⟨first.text ++ (skip blank mode first.rest).1 ++ second.text,
          first.trees ++ second.trees, second.rest⟩ :=
  thenMatch_eq_some

theorem parseWith_alt {a b : Expr ρ} :
    (alt a b).parseWith blank inner mode pos s = some m ↔
      a.parseWith blank inner mode pos s = some m ∨
        a.parseWith blank inner mode pos s = none ∧ b.parseWith blank inner mode pos s = some m :=
  Option.or_eq_some_iff

theorem parseWith_opt {a : Expr ρ} :
    (opt a).parseWith blank inner mode pos s = some m ↔
      a.parseWith blank inner mode pos s = some m ∨
        a.parseWith blank inner mode pos s = none ∧ m = .empty s := by
  simp only [parseWith, Option.some.injEq]
  cases a.parseWith blank inner mode pos s with
  | none => simp [eq_comm]
  | some found => simp

theorem parseWith_absent {a : Expr ρ} :
    (absent a).parseWith blank inner mode pos s = some m ↔
      a.parseWith blank inner mode pos s = none ∧ m = .empty s := by
  simp only [parseWith]
  cases a.parseWith blank inner mode pos s with
  | none => simp [eq_comm]
  | some found => simp

theorem parseWith_star {a : Expr ρ} :
    (star a).parseWith blank inner mode pos s = some m ↔
      m = starMatch blank (a.parseWith blank inner) mode pos s :=
  Option.some_inj.trans eq_comm

theorem parseWith_rule {name : ρ} {kind : RuleKind} {body : Expr ρ} :
    (rule name kind body).parseWith blank inner mode pos s = some m ↔
      ∃ found, body.parseWith blank inner (kind.inside mode) pos s = some found ∧
        m = if kind.makesNode mode then
          { found with trees := [.node name pos found.text found.trees] } else found := by
  simp only [parseWith, Option.map_eq_some_iff]
  constructor
  · rintro ⟨found, matched, rfl⟩
    exact ⟨found, matched, rfl⟩
  · rintro ⟨found, matched, rfl⟩
    exact ⟨found, matched, rfl⟩

theorem seq_eq_none_of_left {a b : Expr ρ} (nothing : a.parseWith blank inner mode pos s = none) :
    (seq a b).parseWith blank inner mode pos s = none := by
  refine Option.eq_none_iff_forall_ne_some.mpr fun m matched => ?_
  obtain ⟨first, _, found, _⟩ := parseWith_seq.mp matched
  rw [nothing] at found
  cases found

theorem rule_eq_none {name : ρ} {kind : RuleKind} {body : Expr ρ}
    (nothing : body.parseWith blank inner (kind.inside mode) pos s = none) :
    (rule name kind body).parseWith blank inner mode pos s = none := by
  refine Option.eq_none_iff_forall_ne_some.mpr fun m matched => ?_
  obtain ⟨found, inside, _⟩ := parseWith_rule.mp matched
  rw [nothing] at inside
  cases inside

/-- An ordered choice commits to the first part that matches. -/
theorem parseWith_first {es : List (Expr ρ)} :
    (first es).parseWith blank inner mode pos s = some m ↔
      ∃ before e after, es = before ++ e :: after ∧
        (∀ e' ∈ before, e'.parseWith blank inner mode pos s = none) ∧
        e.parseWith blank inner mode pos s = some m := by
  induction es with
  | nil => simp [first, parseWith_char]
  | cons a es ih =>
    have cons : (first (a :: es)).parseWith blank inner mode pos s = some m ↔
        a.parseWith blank inner mode pos s = some m ∨
          a.parseWith blank inner mode pos s = none ∧
            (first es).parseWith blank inner mode pos s = some m := by
      cases es with
      | nil => simp [first, parseWith_char]
      | cons b es => exact parseWith_alt
    rw [cons, ih]
    constructor
    · rintro (found | ⟨nothing, before, e, after, rfl, earlier, found⟩)
      · exact ⟨[], a, es, rfl, by simp, found⟩
      · refine ⟨a :: before, e, after, rfl, ?_, found⟩
        simpa using And.intro nothing earlier
    · rintro ⟨before, e, after, split, earlier, found⟩
      cases before with
      | nil =>
        obtain ⟨rfl, rfl⟩ := List.cons.inj split
        exact Or.inl found
      | cons b before =>
        obtain ⟨rfl, rfl⟩ := List.cons.inj split
        refine Or.inr ⟨earlier a (List.mem_cons_self ..), before, e, after, rfl, ?_, found⟩
        exact fun e' member => earlier e' (List.mem_cons_of_mem a member)

/-- A lookahead in front of a part consumes nothing: the part is matched where the lookahead
stood. -/
theorem parseWith_absent_seq {a b : Expr ρ} (front : skip blank mode s = ([], s)) :
    (seq (absent a) b).parseWith blank inner mode pos s =
      if (a.parseWith blank inner mode pos s).isSome then none
      else b.parseWith blank inner mode pos s := by
  simp only [parseWith, thenMatch]
  split
  · rfl
  · simp only [Option.bind_eq_bind, Option.bind_some, Match.empty, front, Text.byteLength_nil,
      Nat.add_zero, List.nil_append]
    cases b.parseWith blank inner mode pos s <;> rfl

end Expr

/-! ### Repetitions -/

/-- The turns of a repetition, one behind another with the blanks before each, up to the place where
its part does not match any more. -/
inductive Repeats (blank : Char → Bool) (a : Matcher ρ) (mode : Mode) :
    Nat → List Char → Match ρ → Prop where
  | stop {pos : Nat} {s : List Char}
      (exhausted :
        a mode (pos + Text.byteLength (skip blank mode s).1) (skip blank mode s).2 = none) :
      Repeats blank a mode pos s (.empty s)
  | turn {pos : Nat} {s : List Char} {here more : Match ρ}
      (found : a mode (pos + Text.byteLength (skip blank mode s).1) (skip blank mode s).2 =
        some here)
      (rest : Repeats blank a mode
        (pos + Text.byteLength (skip blank mode s).1 + Text.byteLength here.text) here.rest more) :
      Repeats blank a mode pos s
        ⟨(skip blank mode s).1 ++ here.text ++ more.text, here.trees ++ more.trees, more.rest⟩

/-- Every match leaves less text than it was given. -/
def Matcher.ConsumesIn (a : Matcher ρ) (mode : Mode) : Prop :=
  ∀ pos s m, a mode pos s = some m → m.rest.length < s.length

theorem skip_length_le (blank : Char → Bool) (mode : Mode) (s : List Char) :
    (skip blank mode s).2.length ≤ s.length := by
  have parts := congrArg List.length (skip_append blank mode s)
  rw [List.length_append] at parts
  omega

theorem repeatMatch_repeats (blank : Char → Bool) {a : Matcher ρ} (progress : a.ConsumesIn mode)
    (bound pos : Nat) (s : List Char) (enough : s.length ≤ bound) :
    Repeats blank a mode pos s (repeatMatch blank a mode bound pos s) := by
  induction bound generalizing pos s with
  | zero =>
    have empty : s = [] := List.eq_nil_of_length_eq_zero (by omega)
    subst empty
    apply Repeats.stop
    cases found : a mode (pos + Text.byteLength (skip blank mode []).1) (skip blank mode []).2 with
    | none => rfl
    | some m =>
      have less := progress _ _ _ found
      have bounded := skip_length_le blank mode []
      simp only [List.length_nil] at bounded
      omega
  | succ bound ih =>
    simp only [repeatMatch]
    split
    next exhausted => exact .stop exhausted
    next here found =>
      have less := progress _ _ _ found
      have bounded := skip_length_le blank mode s
      exact .turn found (ih _ _ (by omega))

/-- A repetition that stands behind skipped blanks takes its part as often as it matches. -/
theorem starMatch_repeats {a : Matcher ρ} (progress : a.ConsumesIn mode)
    (front : skip blank mode s = ([], s)) :
    Repeats blank a mode pos s (starMatch blank a mode pos s) := by
  cases found : a mode pos s with
  | none =>
    simp only [starMatch, found]
    exact .stop (by simpa [front] using found)
  | some here =>
    have less := progress _ _ _ found
    have more := repeatMatch_repeats blank progress s.length (pos + Text.byteLength here.text)
      here.rest (by omega)
    have first : a mode (pos + Text.byteLength (skip blank mode s).1) (skip blank mode s).2 =
        some here := by
      simpa [front] using found
    have turns := Repeats.turn first (by simpa [front] using more)
    simpa [starMatch, found, front] using turns

namespace Repeats

variable {a : Matcher ρ}

/-- One more turn behind blanks that are known. -/
theorem turn_of_skip {gap rest : List Char} {here more : Match ρ}
    (front : skip blank mode s = (gap, rest))
    (found : a mode (pos + Text.byteLength gap) rest = some here)
    (later : Repeats blank a mode (pos + Text.byteLength gap + Text.byteLength here.text) here.rest
      more) :
    Repeats blank a mode pos s
      ⟨gap ++ here.text ++ more.text, here.trees ++ more.trees, more.rest⟩ := by
  obtain ⟨rfl, rfl⟩ : (skip blank mode s).1 = gap ∧ (skip blank mode s).2 = rest := by
    rw [front]
    exact ⟨rfl, rfl⟩
  exact .turn found later

/-- Where a repetition has stopped, its part does not match behind the blanks. -/
theorem exhausted (h : Repeats blank a mode pos s m) :
    ∃ pos', a mode pos' (skip blank mode m.rest).2 = none := by
  induction h with
  | stop exhausted => exact ⟨_, exhausted⟩
  | turn _ _ ih => exact ih

/-- A repetition of a part that takes one character of a class takes such characters only, with
blanks between them. -/
theorem of_single {p : Char → Bool}
    (single : ∀ pos s m, skip blank mode s = ([], s) → a mode pos s = some m →
      ∃ c rest, s = c :: rest ∧ p c = true ∧ m = ⟨[c], [], rest⟩)
    (h : Repeats blank a mode pos s m) :
    m.trees = [] ∧ ∀ c ∈ m.text, p c = true ∨ mode = .spaced ∧ blank c = true := by
  induction h with
  | stop exhausted => exact ⟨rfl, fun c member => nomatch member⟩
  | @turn pos s here more found rest ih =>
    obtain ⟨c, behind, _, inClass, rfl⟩ := single _ _ _ (skip_skip blank mode s) found
    refine ⟨by simp [ih.1], ?_⟩
    intro d member
    simp only [List.append_assoc, List.mem_append, List.mem_singleton] at member
    rcases member with gap | rfl | later
    · have skipped := blank_of_mem_skip gap
      cases mode with
      | spaced => exact Or.inr ⟨rfl, skipped⟩
      | adjacent => cases gap
      | token => cases gap
    · exact Or.inl inClass
    · exact ih.2 d later

end Repeats

end Verbatim.Peg
