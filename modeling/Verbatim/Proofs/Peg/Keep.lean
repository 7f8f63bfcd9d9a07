import Verbatim.Proofs.Peg.Append

/-!
# Replacing the text behind a match

A matcher `Takes` a text in front of another. It `Keeps` a relation if a match stays as it is when
the text right behind it is replaced by a related one. Each kind of expression has an equivalence
for the texts it takes, and one lemma that says when it keeps a relation. A repetition that stands
in front of a closing text keeps whatever follows that text (`Shared`).
-/

namespace Verbatim.Peg

variable {ρ : Type} {blank : Char → Bool} {inner : Matcher ρ} {mode : Mode} {pos : Nat}
  {s x y : List Char} {m : Match ρ}

/-! ### Texts taken in front of others -/

/-- A matcher takes a text that stands in front of another, and makes some nodes. -/
def Matcher.Takes (a : Matcher ρ) (mode : Mode) (pos : Nat) (w x : List Char)
    (ts : List (Tree ρ)) : Prop :=
  a mode pos (w ++ x) = some ⟨w, ts, x⟩

variable {a : Matcher ρ} {w : List Char} {ts : List (Tree ρ)}

theorem Matcher.CoversIn.takes (covers : a.CoversIn mode) (h : a mode pos s = some m) :
    a.Takes mode pos m.text m.rest m.trees := by
  rw [Matcher.Takes, (covers _ _ _ h).split, h]

/-- A repetition is in front of the text that it leaves. -/
theorem Repeats.split (covers : a.CoversIn mode) (h : Repeats blank a mode pos s m) :
    m.text ++ m.rest = s := by
  induction h with
  | stop _ => rfl
  | @turn pos s here more found _ ih =>
    rw [List.append_assoc, ih, List.append_assoc, (covers _ _ _ found).split, skip_append]

namespace Expr

variable {b c : Expr ρ}

theorem takes_word {text : List Char} :
    ((word text : Expr ρ).parseWith blank inner).Takes mode pos w x ts ↔ w = text ∧ ts = [] := by
  rw [Matcher.Takes, parseWith_word]
  constructor
  · rintro ⟨rest, _, same⟩
    cases same
    exact ⟨rfl, rfl⟩
  · rintro ⟨rfl, rfl⟩
    exact ⟨x, rfl, rfl⟩

theorem takes_char {member : Char → Bool} :
    ((char member : Expr ρ).parseWith blank inner).Takes mode pos w x ts ↔
      ∃ c, w = [c] ∧ member c = true ∧ ts = [] := by
  rw [Matcher.Takes, parseWith_char]
  constructor
  · rintro ⟨c, rest, _, known, same⟩
    cases same
    exact ⟨c, rfl, known, rfl⟩
  · rintro ⟨c, rfl, known, rfl⟩
    exact ⟨c, x, rfl, known, rfl⟩

theorem takes_alt : ((alt b c).parseWith blank inner).Takes mode pos w x ts ↔
    (b.parseWith blank inner).Takes mode pos w x ts ∨
      b.parseWith blank inner mode pos (w ++ x) = none ∧
        (c.parseWith blank inner).Takes mode pos w x ts := by
  simp only [Matcher.Takes, parseWith_alt]

theorem takes_opt : ((opt b).parseWith blank inner).Takes mode pos w x ts ↔
    (b.parseWith blank inner).Takes mode pos w x ts ∨
      b.parseWith blank inner mode pos (w ++ x) = none ∧ w = [] ∧ ts = [] := by
  rw [Matcher.Takes, parseWith_opt, Matcher.Takes, Match.empty, Match.mk.injEq]
  constructor
  · rintro (found | ⟨nothing, rfl, rfl, _⟩)
    · exact Or.inl found
    · exact Or.inr ⟨nothing, rfl, rfl⟩
  · rintro (found | ⟨nothing, rfl, rfl⟩)
    · exact Or.inl found
    · exact Or.inr ⟨nothing, rfl, rfl, rfl⟩

/-- The parts of a sequence stand one behind the other, with skipped blanks between them. -/
theorem takes_seq (covers : ∀ mode, inner.CoversIn mode) :
    ((seq b c).parseWith blank inner).Takes mode pos w x ts ↔
      ∃ t gap u ts₁ ts₂, w = t ++ (gap ++ u) ∧ ts = ts₁ ++ ts₂ ∧
        skip blank mode (gap ++ (u ++ x)) = (gap, u ++ x) ∧
        (b.parseWith blank inner).Takes mode pos t (gap ++ (u ++ x)) ts₁ ∧
        (c.parseWith blank inner).Takes mode (pos + Text.byteLength t + Text.byteLength gap) u x
          ts₂ := by
  rw [Matcher.Takes, parseWith_seq]
  constructor
  · rintro ⟨first, second, matched, followed, joined⟩
    simp only [Match.mk.injEq] at joined
    obtain ⟨rfl, rfl, rfl⟩ := joined
    have left := (parseWith_covers covers b mode).takes matched
    have right := (parseWith_covers covers c mode).takes followed
    have behind := (parseWith_covers covers c mode _ _ _ followed).split
    have cut : (skip blank mode first.rest).1 ++ (second.text ++ second.rest) = first.rest := by
      rw [behind, skip_append]
    refine ⟨first.text, (skip blank mode first.rest).1, second.text, first.trees, second.trees,
      by simp, rfl, ?_, ?_, right⟩
    · rw [cut, behind]
    · rw [cut]
      exact left
  · rintro ⟨t, gap, u, ts₁, ts₂, rfl, rfl, front, left, right⟩
    have input : t ++ (gap ++ u) ++ x = t ++ (gap ++ (u ++ x)) := by simp
    refine ⟨_, ⟨u, ts₂, x⟩, by rw [input]; exact left, ?_, ?_⟩
    · simp only [front]
      exact right
    · simp only [front, List.append_assoc]

/-- Where blanks are not skipped, the parts of a sequence stand next to each other. -/
theorem takes_seq_tight (covers : ∀ mode, inner.CoversIn mode) (tight : mode ≠ .spaced)
    (h : ((seq b c).parseWith blank inner).Takes mode pos w x ts) :
    ∃ t u ts₁ ts₂, w = t ++ u ∧ ts = ts₁ ++ ts₂ ∧
      (b.parseWith blank inner).Takes mode pos t (u ++ x) ts₁ ∧
      (c.parseWith blank inner).Takes mode (pos + Text.byteLength t) u x ts₂ := by
  obtain ⟨t, gap, u, ts₁, ts₂, rfl, rfl, skipped, left, right⟩ := (takes_seq covers).mp h
  obtain rfl : gap = [] := (congrArg Prod.fst skipped).symm.trans (skip_fst_eq_nil tight)
  exact ⟨t, u, ts₁, ts₂, rfl, rfl, left, right⟩

theorem takes_rule {name : ρ} {kind : RuleKind} {body : Expr ρ} :
    ((rule name kind body).parseWith blank inner).Takes mode pos w x ts ↔
      ∃ us, (body.parseWith blank inner).Takes (kind.inside mode) pos w x us ∧
        ts = if kind.makesNode mode then [.node name pos w us] else us := by
  rw [Matcher.Takes, parseWith_rule]
  constructor
  · rintro ⟨found, matched, same⟩
    by_cases makes : kind.makesNode mode = true
    · rw [if_pos makes, Match.mk.injEq] at same
      obtain ⟨rfl, rfl, rfl⟩ := same
      exact ⟨found.trees, matched, by rw [if_pos makes]⟩
    · rw [if_neg makes] at same
      subst same
      exact ⟨ts, matched, by rw [if_neg makes]⟩
  · rintro ⟨us, matched, rfl⟩
    refine ⟨_, matched, ?_⟩
    split <;> rfl

/-- A repetition takes nothing, or its first turn and all those behind it. -/
theorem takes_star (productive : inner.Productive)
    (consumes : b.consumes = true) :
    ((star b).parseWith blank inner).Takes mode pos w x ts ↔
      (b.parseWith blank inner mode pos (w ++ x) = none ∧ w = [] ∧ ts = []) ∨
      ∃ t u ts₁ ts₂, w = t ++ u ∧ ts = ts₁ ++ ts₂ ∧
        (b.parseWith blank inner).Takes mode pos t (u ++ x) ts₁ ∧
        Repeats blank (b.parseWith blank inner) mode (pos + Text.byteLength t) (u ++ x)
          ⟨u, ts₂, x⟩ := by
  have part : Matcher.CoversIn (b.parseWith blank inner) mode :=
    parseWith_covers productive.covers b mode
  have turns : ∀ here, b.parseWith blank inner mode pos (w ++ x) = some here →
      Repeats blank (b.parseWith blank inner) mode (pos + Text.byteLength here.text) here.rest
        (repeatMatch blank (b.parseWith blank inner) mode (w ++ x).length
          (pos + Text.byteLength here.text) here.rest) := by
    intro here found
    have less := consumesIn_of_consumes productive consumes mode _ _ _ found
    exact repeatMatch_repeats blank (consumesIn_of_consumes productive consumes mode) _ _ _
      (by omega)
  rw [Matcher.Takes, parseWith_star, starMatch]
  cases found : b.parseWith blank inner mode pos (w ++ x) with
  | none =>
    simp only [Match.empty, Match.mk.injEq, true_and]
    constructor
    · rintro ⟨rfl, rfl, _⟩
      exact Or.inl ⟨rfl, rfl⟩
    · rintro (⟨rfl, rfl⟩ | ⟨t, u, _, _, rfl, _, here, _⟩)
      · exact ⟨rfl, rfl, rfl⟩
      · rw [Matcher.Takes, ← List.append_assoc, found] at here
        cases here
  | some here =>
    have more := turns here found
    simp only
    generalize repeatMatch blank (b.parseWith blank inner) mode (w ++ x).length
      (pos + Text.byteLength here.text) here.rest = later at more ⊢
    simp only [Match.mk.injEq, reduceCtorEq, false_and, false_or]
    constructor
    · rintro ⟨text, trees, rest⟩
      have left := part.takes found
      have behind := more.split part
      rw [← rest] at behind
      refine ⟨here.text, later.text, here.trees, later.trees, text, trees,
        by rw [behind]; exact left, ?_⟩
      rw [behind, rest]
      exact more
    · rintro ⟨t, u, ts₁, ts₂, rfl, rfl, left, right⟩
      rw [Matcher.Takes, ← List.append_assoc, found] at left
      cases Option.some.inj left
      obtain rfl := more.unique right
      exact ⟨rfl, rfl, rfl⟩

end Expr

/-! ### Text that may be replaced -/

/-- A match stays as it is when the text right behind it is replaced by a related one. -/
def Matcher.Keeps (a : Matcher ρ) (mode : Mode) (R : List Char → List Char → Prop) : Prop :=
  ∀ ⦃pos w x y ts⦄, R x y → a.Takes mode pos w x ts → a.Takes mode pos w y ts

/-- Two texts of one kind. -/
def Both (P : List Char → Prop) (x y : List Char) : Prop := P x ∧ P y

variable {R S : List Char → List Char → Prop}

/-- Where a part takes nothing, a text that starts alike has no blanks in front either. -/
theorem front_of_head?_eq {gap u : List Char} (same : x.head? = y.head?)
    (front : skip blank mode (gap ++ (u ++ x)) = (gap, u ++ x)) (nothing : u = [])
    (spaced : mode = .spaced) (c : Char) (first : y.head? = some c) : blank c = false := by
  subst nothing spaced
  obtain ⟨rest, rfl⟩ : ∃ rest, x = c :: rest := by
    cases x with
    | nil => rw [first] at same; cases same
    | cons d rest => exact ⟨rest, by rw [Option.some.inj (same.trans first)]⟩
  exact not_blank_of_skip_eq_cons (s := gap ++ (c :: rest)) (congrArg Prod.snd front)

theorem Matcher.Keeps.mono (h : a.Keeps mode R) (weaker : ∀ x y, S x y → R x y) :
    a.Keeps mode S :=
  fun _ _ _ _ _ related => h (weaker _ _ related)

theorem Matcher.Appends.takes_iff (h : a.Appends mode x) :
    a.Takes mode pos w x ts ↔ a.Takes mode pos w [] ts := by
  simp only [Matcher.Takes, List.append_nil]
  rw [h pos w, Option.map_eq_some_iff]
  constructor
  · rintro ⟨m, matched, same⟩
    simp only [Match.followedBy, Match.mk.injEq, List.append_left_eq_self] at same
    obtain ⟨text, trees, nothing⟩ := same
    rw [matched, ← text, ← trees, ← nothing]
  · intro matched
    exact ⟨_, matched, rfl⟩

/-- A text that takes no part may be replaced by another one that takes no part. -/
theorem Matcher.keeps_of_appends (h : ∀ x y, R x y → a.Appends mode x ∧ a.Appends mode y) :
    a.Keeps mode R :=
  fun _ _ x y _ related matched =>
    (h x y related).2.takes_iff.mpr ((h x y related).1.takes_iff.mp matched)

/-- What holds where a repetition has another turn, and where it has stopped, holds all along. -/
theorem Repeats.resumed {Q : List Char → Prop} (h : Repeats blank a mode pos s m)
    (resumes : ∀ pos s, a mode pos (skip blank mode s).2 ≠ none → Q s)
    (stopped : m.text = [] → Q s) : Q s := by
  cases h with
  | stop _ => exact stopped rfl
  | turn found _ => exact resumes _ s (by rw [found]; exact Option.some_ne_none _)

/-- A repetition stays as it is, if its part does where the repetition goes on or stops behind
it. -/
theorem Repeats.keep {Q : List Char → Prop} (covers : a.CoversIn mode)
    (progress : a.ConsumesIn mode) (part : a.Keeps mode fun x y => R x y ∧ Q x ∧ Q y)
    (closed : ∀ t x y, R x y → R (t ++ x) (t ++ y))
    (resumes : ∀ pos s, a mode pos (skip blank mode s).2 ≠ none → Q s)
    (h : Repeats blank a mode pos s m) (related : R m.rest y) (ends : Q m.rest) (ends' : Q y)
    (stops : ∀ pos, a mode pos (skip blank mode y).2 = none) :
    Repeats blank a mode pos (m.text ++ y) ⟨m.text, m.trees, y⟩ := by
  induction h with
  | stop _ => exact .stop (stops _)
  | @turn pos s here more found rest ih =>
    have later := ih related ends
    have behind := rest.split covers
    have here_split := (covers _ _ _ found).split
    have consumed : here.text ≠ [] := by
      intro nothing
      have less := progress _ _ _ found
      rw [← here_split, nothing] at less
      simp at less
    have front : Q here.rest := rest.resumed resumes fun nothing => by
      rw [← behind, nothing]
      exact ends
    have front' : Q (more.text ++ y) := later.resumed resumes fun nothing => by
      simp only at nothing
      rw [nothing]
      exact ends'
    have replaced : a.Takes mode (pos + Text.byteLength (skip blank mode s).1) here.text
        (more.text ++ y) here.trees := by
      refine part ⟨?_, front, front'⟩ (covers.takes found)
      rw [← behind]
      exact closed _ _ _ related
    have skipped : skip blank mode ((skip blank mode s).1 ++ (here.text ++ (more.text ++ y))) =
        ((skip blank mode s).1, here.text ++ (more.text ++ y)) := by
      refine skip_replace (x := here.rest) ?_ fun nothing => absurd nothing consumed
      rw [here_split, skip_append]
    have turns := Repeats.turn_of_skip skipped replaced later
    simpa only [List.append_assoc] using turns

namespace Expr

variable {b c : Expr ρ}

theorem keeps_word {text : List Char} :
    Matcher.Keeps ((word text : Expr ρ).parseWith blank inner) mode R :=
  fun _ _ _ _ _ _ matched => takes_word.mpr (takes_word.mp matched)

theorem keeps_rule {name : ρ} {kind : RuleKind} {body : Expr ρ}
    (inside : Matcher.Keeps (body.parseWith blank inner) (kind.inside mode) R) :
    Matcher.Keeps ((rule name kind body).parseWith blank inner) mode R := by
  intro pos w x y ts related matched
  obtain ⟨us, found, rfl⟩ := takes_rule.mp matched
  exact takes_rule.mpr ⟨us, inside related found, rfl⟩

theorem keeps_alt (left : Matcher.Keeps (b.parseWith blank inner) mode R)
    (right : Matcher.Keeps (c.parseWith blank inner) mode R)
    (fails : ∀ ⦃pos w x y ts⦄, R x y → b.parseWith blank inner mode pos (w ++ x) = none →
      (c.parseWith blank inner).Takes mode pos w x ts →
      b.parseWith blank inner mode pos (w ++ y) = none) :
    Matcher.Keeps ((alt b c).parseWith blank inner) mode R := by
  intro pos w x y ts related matched
  rcases takes_alt.mp matched with found | ⟨nothing, found⟩
  · exact takes_alt.mpr (Or.inl (left related found))
  · exact takes_alt.mpr (Or.inr ⟨fails related nothing found, right related found⟩)

theorem keeps_opt (part : Matcher.Keeps (b.parseWith blank inner) mode R)
    (fails : ∀ ⦃pos x y⦄, R x y → b.parseWith blank inner mode pos x = none →
      b.parseWith blank inner mode pos y = none) :
    Matcher.Keeps ((opt b).parseWith blank inner) mode R := by
  intro pos w x y ts related matched
  rcases takes_opt.mp matched with found | ⟨nothing, rfl, rfl⟩
  · exact takes_opt.mpr (Or.inl (part related found))
  · exact takes_opt.mpr (Or.inr ⟨fails related nothing, rfl, rfl⟩)

/-- A sequence stays as it is, if its second part does, and the first part in front of the
second. -/
theorem keeps_seq (covers : ∀ mode, inner.CoversIn mode)
    (left : Matcher.Keeps (b.parseWith blank inner) mode S)
    (right : Matcher.Keeps (c.parseWith blank inner) mode R)
    (joint : ∀ ⦃gap u x y pos ts⦄, R x y → skip blank mode (gap ++ (u ++ x)) = (gap, u ++ x) →
      (c.parseWith blank inner).Takes mode pos u x ts →
      (c.parseWith blank inner).Takes mode pos u y ts →
      S (gap ++ (u ++ x)) (gap ++ (u ++ y)) ∧
        (u = [] → mode = .spaced → ∀ c, y.head? = some c → blank c = false)) :
    Matcher.Keeps ((seq b c).parseWith blank inner) mode R := by
  intro pos w x y ts related matched
  obtain ⟨t, gap, u, ts₁, ts₂, rfl, rfl, front, first, second⟩ := (takes_seq covers).mp matched
  have behind := right related second
  obtain ⟨related', front'⟩ := joint related front second behind
  exact (takes_seq covers).mpr ⟨t, gap, u, ts₁, ts₂, rfl, rfl, skip_replace front front',
    left related' first, behind⟩

/-- A part that keeps anything, in front of one that is never empty. -/
theorem keeps_seq_any (productive : inner.Productive)
    (consumes : c.consumes = true)
    (left : Matcher.Keeps (b.parseWith blank inner) mode fun _ _ => True)
    (right : Matcher.Keeps (c.parseWith blank inner) mode R) :
    Matcher.Keeps ((seq b c).parseWith blank inner) mode R := by
  refine keeps_seq productive.covers left right ?_
  intro gap u x y pos ts _ _ matched _
  have consumed : u ≠ [] := text_ne_nil_of_consumes productive.progress consumes matched
  exact ⟨trivial, fun nothing => absurd nothing consumed⟩

theorem keeps_absent {b : Expr ρ}
    (fails : ∀ ⦃pos x y⦄, R x y → b.parseWith blank inner mode pos x = none →
      b.parseWith blank inner mode pos y = none) :
    Matcher.Keeps ((absent b).parseWith blank inner) mode R := by
  intro pos w x y ts related matched
  obtain ⟨nothing, same⟩ := parseWith_absent.mp matched
  simp only [Match.empty, Match.mk.injEq] at same
  obtain ⟨rfl, rfl, _⟩ := same
  exact parseWith_absent.mpr ⟨fails related nothing, rfl⟩

theorem keeps_char {member : Char → Bool} :
    Matcher.Keeps ((char member : Expr ρ).parseWith blank inner) mode R := by
  intro pos w x y ts _ matched
  obtain ⟨c, rest, _, found, same⟩ := parseWith_char.mp matched
  cases same
  exact parseWith_char.mpr ⟨c, y, rfl, found, rfl⟩

/-- A repetition stays as it is, if its part does and stops where it has stopped before. -/
theorem keeps_star (productive : inner.Productive)
    (consumes : b.consumes = true) (part : Matcher.Keeps (b.parseWith blank inner) mode R)
    (closed : ∀ t x y, R x y → R (t ++ x) (t ++ y))
    (skips : ∀ x y, R x y → R (skip blank mode x).2 (skip blank mode y).2)
    (stops : ∀ ⦃pos pos' x y⦄, R x y → b.parseWith blank inner mode pos x = none →
      b.parseWith blank inner mode pos' y = none) :
    Matcher.Keeps ((star b).parseWith blank inner) mode R := by
  intro pos w x y ts related matched
  rcases (takes_star productive consumes).mp matched with
    ⟨nothing, rfl, rfl⟩ | ⟨t, u, ts₁, ts₂, rfl, rfl, first, turns⟩
  · exact (takes_star productive consumes).mpr (Or.inl ⟨stops related nothing, rfl, rfl⟩)
  · obtain ⟨pos', exhausted⟩ := turns.exhausted
    have kept := turns.keep (R := R) (Q := fun _ => True)
      (parseWith_covers productive.covers b mode) (consumesIn_of_consumes productive consumes mode)
      (part.mono fun _ _ h => h.1) closed (fun _ _ _ => trivial) related trivial trivial
      fun _ => stops (skips x y related) exhausted
    exact (takes_star productive consumes).mpr
      (Or.inr ⟨t, u, ts₁, ts₂, rfl, rfl, part (closed u x y related) first, kept⟩)

/-- A repetition stays as it is, if its part does where the repetition goes on or stops behind
it. -/
theorem keeps_star_between {Q : List Char → Prop} (productive : inner.Productive)
    (consumes : b.consumes = true)
    (part : Matcher.Keeps (b.parseWith blank inner) mode fun x y => R x y ∧ Q x ∧ Q y)
    (closed : ∀ t x y, R x y → R (t ++ x) (t ++ y))
    (resumes : ∀ pos s, b.parseWith blank inner mode pos (skip blank mode s).2 ≠ none → Q s) :
    Matcher.Keeps ((star b).parseWith blank inner) mode fun x y => R x y ∧ Q x ∧ Q y ∧
      ∀ pos, b.parseWith blank inner mode pos y = none ∧
        b.parseWith blank inner mode pos (skip blank mode y).2 = none := by
  rintro pos w x y ts ⟨related, ends, ends', stops⟩ matched
  rcases (takes_star productive consumes).mp matched with
    ⟨nothing, rfl, rfl⟩ | ⟨t, u, ts₁, ts₂, rfl, rfl, first, turns⟩
  · exact (takes_star productive consumes).mpr (Or.inl ⟨(stops pos).1, rfl, rfl⟩)
  · have kept := turns.keep (parseWith_covers productive.covers b mode)
      (consumesIn_of_consumes productive consumes mode) part closed resumes related ends ends'
      fun pos => (stops pos).2
    have front : Q (u ++ x) := turns.resumed resumes fun nothing => by
      simp only at nothing
      rw [nothing]
      exact ends
    have front' : Q (u ++ y) := kept.resumed resumes fun nothing => by
      simp only at nothing
      rw [nothing]
      exact ends'
    exact (takes_star productive consumes).mpr (Or.inr ⟨t, u, ts₁, ts₂, rfl, rfl,
      part ⟨closed u x y related, front, front'⟩ first, kept⟩)

end Expr

/-! ### Closing texts -/

/-- Two texts that are the same up to and with a closing text. -/
def Shared (close : List Char) (x y : List Char) : Prop :=
  ∃ q x' y', x = q ++ (close ++ x') ∧ y = q ++ (close ++ y')

namespace Shared

variable {close : List Char}

theorem append (t x y : List Char) (h : Shared close x y) : Shared close (t ++ x) (t ++ y) := by
  obtain ⟨q, x', y', rfl, rfl⟩ := h
  exact ⟨t ++ q, x', y', by simp, by simp⟩

theorem head?_eq (some_text : close ≠ []) (h : Shared close x y) : x.head? = y.head? := by
  obtain ⟨q, x', y', rfl, rfl⟩ := h
  cases q with
  | nil =>
    cases close with
    | nil => exact absurd rfl some_text
    | cons c close => rfl
  | cons c q => rfl

/-- A closing character that is no blank is not skipped. -/
theorem skip_snd {c : Char} (visible : blank c = false) (h : Shared [c] x y) :
    Shared [c] (skip blank mode x).2 (skip blank mode y).2 := by
  obtain ⟨q, x', y', rfl, rfl⟩ := h
  cases mode with
  | spaced =>
    have cut : ∀ z, (q ++ ([c] ++ z)).dropWhile blank = q.dropWhile blank ++ ([c] ++ z) := by
      intro z
      induction q with
      | nil => simp [visible]
      | cons d q ih =>
        cases gap : blank d with
        | true => simpa [gap] using ih
        | false => simp [gap]
    exact ⟨q.dropWhile blank, x', y', cut x', cut y'⟩
  | adjacent => exact ⟨q, x', y', rfl, rfl⟩
  | token => exact ⟨q, x', y', rfl, rfl⟩

end Shared

/-- What a match has consumed and made. -/
def outcome (result : Option (Match ρ)) : Option (List Char × List (Tree ρ)) :=
  result.map fun m => (m.text, m.trees)

theorem outcome_eq_none {result : Option (Match ρ)} : outcome result = none ↔ result = none := by
  simp [outcome]

/-- A repetition without blanks up to a closing text keeps what follows that text, if each turn in
front of it is decided by what stands up to it. -/
theorem Expr.keeps_star_until {b : Expr ρ} {close : List Char}
    (productive : inner.Productive)
    (consumes : b.consumes = true) (tight : mode ≠ .spaced)
    (closing : ∀ pos x, b.parseWith blank inner mode pos (close ++ x) = none)
    (settled : ∀ pos pos' c q x y,
      outcome (b.parseWith blank inner mode pos (c :: (q ++ (close ++ x)))) =
        outcome (b.parseWith blank inner mode pos' (c :: (q ++ (close ++ y))))) :
    Matcher.Keeps ((Expr.star b).parseWith blank inner) mode (Shared close) := by
  have covered : Matcher.CoversIn (b.parseWith blank inner) mode :=
    parseWith_covers productive.covers b mode
  refine keeps_star productive consumes ?_ Shared.append ?_ ?_
  case refine_1 =>
    rintro pos w x y ts ⟨q, x', y', rfl, rfl⟩ matched
    have consumed : w ≠ [] := text_ne_nil_of_consumes productive.progress consumes matched
    obtain ⟨c, w, rfl⟩ := List.exists_cons_of_ne_nil consumed
    have same := settled pos pos c (w ++ q) x' y'
    have split : ∀ z, c :: (w ++ q ++ (close ++ z)) = c :: w ++ (q ++ (close ++ z)) := by simp
    rw [Matcher.Takes] at matched
    rw [split, split, matched, eq_comm] at same
    obtain ⟨⟨text, trees, rest⟩, there, both⟩ := Option.map_eq_some_iff.mp same
    simp only [Prod.mk.injEq] at both
    obtain ⟨rfl, rfl⟩ := both
    have behind : rest = q ++ (close ++ y') :=
      List.append_cancel_left (covered _ _ _ there).split
    rw [Matcher.Takes, there, behind]
  case refine_2 =>
    intro x y related
    simpa only [skip_of_ne_spaced tight] using related
  case refine_3 =>
    rintro pos pos' x y ⟨q, x', y', rfl, rfl⟩ nothing
    cases q with
    | nil => exact closing pos' y'
    | cons c q =>
      have same := settled pos pos' c q x' y'
      rw [List.cons_append] at nothing ⊢
      rw [nothing] at same
      exact outcome_eq_none.mp same.symm

end Verbatim.Peg
