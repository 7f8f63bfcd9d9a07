import Verbatim.Proofs.Peg.Border

/-!
# Text that takes no part in a match

A match may depend on the text behind it: a repetition goes on as long as it can, and a choice looks
ahead. A matcher `Appends` a text if that text never takes part when it stands behind another,
whether the matcher finds something there or not. The shape of an expression tells this for texts
that start with a character which the expression avoids (`Expr.appends_of_avoids`).
-/

namespace Verbatim.Peg

variable {ρ : Type} {blank : Char → Bool} {inner : Matcher ρ} {mode : Mode} {pos : Nat}
  {s x y : List Char} {m m' : Match ρ} {S : Char → Prop}

/-! ### Skipped blanks -/

/-- The blanks in front of a text that has none in front are all skipped. -/
theorem skip_gap {gap rest : List Char} (blanks : ∀ c ∈ gap, blank c = true)
    (front : ∀ c, rest.head? = some c → blank c = false) :
    skip blank .spaced (gap ++ rest) = (gap, rest) := by
  have stop := skip_eq_self .spaced front
  simp only [skip, Prod.mk.injEq] at stop ⊢
  rw [List.takeWhile_append_of_pos blanks, List.dropWhile_append_of_pos blanks, stop.1, stop.2,
    List.append_nil]
  exact ⟨rfl, rfl⟩

theorem skip_append_gap {gap : List Char} (blanks : ∀ c ∈ gap, blank c = true) (rest : List Char) :
    (skip blank .spaced (gap ++ rest)).2 = (skip blank .spaced rest).2 :=
  List.dropWhile_append_of_pos blanks

/-- The same blanks are skipped in front of another text that has none in front. -/
theorem skip_replace {gap t x y : List Char} (h : skip blank mode (gap ++ (t ++ x)) = (gap, t ++ x))
    (front : t = [] → mode = .spaced → ∀ c, y.head? = some c → blank c = false) :
    skip blank mode (gap ++ (t ++ y)) = (gap, t ++ y) := by
  cases mode with
  | spaced =>
    have skipped : (skip blank .spaced (gap ++ (t ++ x))).1 = gap := congrArg Prod.fst h
    have blanks : ∀ c ∈ gap, blank c = true := fun c member =>
      blank_of_mem_skip (skipped.symm ▸ member)
    refine skip_gap blanks fun c first => ?_
    cases t with
    | nil => exact front rfl rfl c first
    | cons d t =>
      obtain rfl : d = c := Option.some.inj first
      exact not_blank_of_skip_eq_cons (s := gap ++ (d :: t ++ x)) (by rw [h]; rfl)
  | adjacent =>
    have none_skipped : gap = [] := (congrArg Prod.fst h).symm
    simp [none_skipped, skip]
  | token =>
    have none_skipped : gap = [] := (congrArg Prod.fst h).symm
    simp [none_skipped, skip]

/-! ### Text that takes no part -/

/-- The match with more text behind it. -/
def Match.followedBy (y : List Char) (m : Match ρ) : Match ρ := ⟨m.text, m.trees, m.rest ++ y⟩

@[simp] theorem Match.text_followedBy (y : List Char) (m : Match ρ) :
    (m.followedBy y).text = m.text := rfl

@[simp] theorem Match.rest_followedBy (y : List Char) (m : Match ρ) :
    (m.followedBy y).rest = m.rest ++ y := rfl

/-- A text takes no part in matching when it stands behind another. -/
def Matcher.Appends (a : Matcher ρ) (mode : Mode) (y : List Char) : Prop :=
  ∀ pos s, a mode pos (s ++ y) = (a mode pos s).map (·.followedBy y)

/-- What a repetition does is settled. -/
theorem Repeats.unique {a : Matcher ρ} (h : Repeats blank a mode pos s m)
    (h' : Repeats blank a mode pos s m') : m = m' := by
  induction h generalizing m' with
  | stop exhausted =>
    cases h' with
    | stop _ => rfl
    | turn found _ => rw [exhausted] at found; cases found
  | turn found _ ih =>
    cases h' with
    | stop exhausted => rw [exhausted] at found; cases found
    | turn found' rest' =>
      rw [found] at found'
      obtain rfl := Option.some.inj found'
      rw [ih rest']

theorem skip_of_ne_spaced (tight : mode ≠ .spaced) (s : List Char) :
    skip blank mode s = ([], s) := by
  cases mode with
  | spaced => exact absurd rfl tight
  | adjacent => rfl
  | token => rfl

/-- A repetition whose part is not touched by a text is not touched by it either. -/
theorem Repeats.followedBy {a : Matcher ρ} (tight : mode ≠ .spaced) (appends : a.Appends mode y)
    (h : Repeats blank a mode pos s m) : Repeats blank a mode pos (s ++ y) (m.followedBy y) := by
  induction h with
  | @stop pos s exhausted =>
    have stays := appends (pos + Text.byteLength (skip blank mode s).1) s
    simp only [skip_of_ne_spaced tight] at exhausted stays
    rw [exhausted, Option.map_none] at stays
    refine .stop ?_
    simpa only [skip_of_ne_spaced tight] using stays
  | @turn pos s here more found _ ih =>
    have stays := appends (pos + Text.byteLength (skip blank mode s).1) s
    simp only [skip_of_ne_spaced tight] at found stays ih
    rw [found, Option.map_some] at stays
    have first : a mode (pos + Text.byteLength (skip blank mode (s ++ y)).1)
        (skip blank mode (s ++ y)).2 = some (here.followedBy y) := by
      simpa only [skip_of_ne_spaced tight] using stays
    have turns := Repeats.turn first (by
      simpa only [skip_of_ne_spaced tight, Match.text_followedBy, Match.rest_followedBy] using ih)
    simpa [skip_of_ne_spaced tight, Match.followedBy] using turns

namespace Expr

/-- No character of a class is part of a match, nor of what is looked at in front of it. Where
blanks are skipped between parts the answer is "no". -/
def Avoids (S : Char → Prop) : Expr ρ → Mode → Prop
  | char member, _ => ∀ c, member c = true → ¬ S c
  | word text, _ => ∀ c ∈ text, ¬ S c
  | seq a b, mode => mode ≠ .spaced ∧ a.Avoids S mode ∧ b.Avoids S mode
  | alt a b, mode => a.Avoids S mode ∧ b.Avoids S mode
  | opt a, mode => a.Avoids S mode
  | star a, mode => mode ≠ .spaced ∧ a.consumes = true ∧ a.Avoids S mode
  | absent a, mode => a.Avoids S mode
  | rule _ kind body, mode => body.Avoids S (kind.inside mode)
  | nested, _ => False

theorem appends_char {member : Char → Bool} (h : ∀ c, y.head? = some c → member c = false) :
    Matcher.Appends ((char member : Expr ρ).parseWith blank inner) mode y := by
  intro pos s
  cases s with
  | nil =>
    have absent : (char member : Expr ρ).parseWith blank inner mode pos y = none :=
      parseWith_char_eq_none.mpr h
    rw [List.nil_append, absent]
    rfl
  | cons c rest => cases found : member c <;> simp [parseWith, found, Match.followedBy]

theorem appends_seq {a b : Expr ρ} (tight : mode ≠ .spaced)
    (left : Matcher.Appends (a.parseWith blank inner) mode y)
    (right : Matcher.Appends (b.parseWith blank inner) mode y) :
    Matcher.Appends ((seq a b).parseWith blank inner) mode y := by
  intro pos s
  simp only [parseWith, thenMatch]
  rw [left pos s]
  cases a.parseWith blank inner mode pos s with
  | none => rfl
  | some first =>
    simp only [Option.map_some, Option.bind_eq_bind, Option.bind_some, Match.rest_followedBy,
      skip_of_ne_spaced tight, Match.text_followedBy]
    rw [right _ first.rest]
    cases b.parseWith blank inner mode
        (pos + Text.byteLength first.text + Text.byteLength []) first.rest <;>
      simp [Match.followedBy]

/-- One character and a part behind it: the text may start with such a character, as long as the
part does not follow there. -/
theorem appends_char_seq {member : Char → Bool} {b : Expr ρ} (tight : mode ≠ .spaced)
    (right : Matcher.Appends (b.parseWith blank inner) mode y)
    (nothing : ∀ pos, (seq (char member) b).parseWith blank inner mode pos y = none) :
    Matcher.Appends ((seq (char member) b).parseWith blank inner) mode y := by
  intro pos s
  cases s with
  | nil =>
    rw [List.nil_append, nothing]
    rfl
  | cons c s =>
    cases found : member c with
    | false => simp [parseWith, thenMatch, found]
    | true =>
      have later := right (pos + Text.byteLength [c] + Text.byteLength []) s
      simp only [parseWith, thenMatch, List.cons_append, found, if_true, Option.bind_eq_bind,
        Option.bind_some, skip_of_ne_spaced tight, later]
      cases b.parseWith blank inner mode (pos + Text.byteLength [c] + Text.byteLength []) s <;> rfl

theorem appends_alt {a b : Expr ρ} (left : Matcher.Appends (a.parseWith blank inner) mode y)
    (right : Matcher.Appends (b.parseWith blank inner) mode y) :
    Matcher.Appends ((alt a b).parseWith blank inner) mode y := by
  intro pos s
  simp only [parseWith]
  rw [left pos s, right pos s]
  cases a.parseWith blank inner mode pos s <;> rfl

theorem appends_rule {name : ρ} {kind : RuleKind} {body : Expr ρ}
    (inside : Matcher.Appends (body.parseWith blank inner) (kind.inside mode) y) :
    Matcher.Appends ((rule name kind body).parseWith blank inner) mode y := by
  intro pos s
  simp only [parseWith]
  rw [inside pos s]
  cases body.parseWith blank inner (kind.inside mode) pos s with
  | none => rfl
  | some found => cases kind.makesNode mode <;> rfl

theorem appends_star {a : Expr ρ} (productive : inner.Productive)
    (consumes : a.consumes = true) (tight : mode ≠ .spaced)
    (part : Matcher.Appends (a.parseWith blank inner) mode y) :
    Matcher.Appends ((star a).parseWith blank inner) mode y := by
  intro pos s
  have turns : ∀ s, Repeats blank (a.parseWith blank inner) mode pos s
      (starMatch blank (a.parseWith blank inner) mode pos s) := fun s =>
    starMatch_repeats (consumesIn_of_consumes productive consumes mode)
      (skip_of_ne_spaced tight s)
  simp only [parseWith, Option.map_some, Option.some.injEq]
  exact (turns (s ++ y)).unique ((turns s).followedBy tight part)

theorem isPrefixOf_append {text : List Char} (apart : ∀ c ∈ text, y.head? ≠ some c) :
    text.isPrefixOf (s ++ y) = text.isPrefixOf s := by
  induction text generalizing s with
  | nil => simp
  | cons c text ih =>
    have later := fun d member => apart d (List.mem_cons_of_mem c member)
    cases s with
    | nil =>
      cases y with
      | nil => rfl
      | cons d y =>
        have differs : ¬ c = d := fun same => apart c (List.mem_cons_self ..) (by rw [same]; rfl)
        simp [List.isPrefixOf, differs]
    | cons d s => simp [List.isPrefixOf, ih later]

/-- A text takes no part in matching if it starts with a character that an expression avoids. -/
theorem appends_of_avoids (productive : inner.Productive)
    (stop : ∀ c, y.head? = some c → S c) {e : Expr ρ} (h : e.Avoids S mode) :
    Matcher.Appends (e.parseWith blank inner) mode y := by
  induction e generalizing mode with
  | char member =>
    refine appends_char fun c first => ?_
    by_contra found
    exact h c (by simpa using found) (stop c first)
  | word text =>
    intro pos s
    have apart : ∀ c ∈ text, y.head? ≠ some c := fun c member first => h c member (stop c first)
    have same := isPrefixOf_append (s := s) apart
    simp only [parseWith, same]
    split
    next found =>
      have long : text.length ≤ s.length := (List.isPrefixOf_iff_prefix.mp found).length_le
      simp [Match.followedBy, List.drop_append_of_le_length long]
    · rfl
  | seq a b left right => exact appends_seq h.1 (left h.2.1) (right h.2.2)
  | alt a b left right => exact appends_alt (left h.1) (right h.2)
  | opt a part =>
    intro pos s
    simp only [parseWith]
    rw [part h pos s]
    cases a.parseWith blank inner mode pos s <;> rfl
  | star a part => exact appends_star productive h.2.1 h.1 (part h.2.2)
  | absent a part =>
    intro pos s
    simp only [parseWith]
    rw [part h pos s]
    cases a.parseWith blank inner mode pos s <;> rfl
  | rule name kind body inside => exact appends_rule (inside h)
  | nested => cases h

/-- Where a text starts with a character that an expression avoids, the expression does not match,
unless it may match nothing. -/
theorem eq_none_of_avoids (productive : inner.Productive) {e : Expr ρ}
    (h : e.Avoids S mode) (consumes : e.consumes = true) (stop : ∀ c, s.head? = some c → S c)
    (pos : Nat) : e.parseWith blank inner mode pos s = none := by
  have appends : Matcher.Appends (e.parseWith blank inner) mode s :=
    appends_of_avoids productive stop h
  have alone := appends pos []
  rw [List.nil_append] at alone
  rw [alone, Option.map_eq_none_iff]
  cases found : e.parseWith blank inner mode pos [] with
  | none => rfl
  | some m => cases consumesIn_of_consumes productive consumes mode _ _ _ found

/-- No character of a class is part of a match of an expression that avoids the class. -/
theorem text_of_avoids (productive : inner.Productive) {e : Expr ρ} (h : e.Avoids S mode)
    (parsed : e.parseWith blank inner mode pos s = some m) : ∀ c ∈ m.text, ¬ S c := by
  induction e generalizing mode pos s m with
  | char member =>
    obtain ⟨c, rest, _, found, rfl⟩ := parseWith_char.mp parsed
    simpa using h c found
  | word text =>
    obtain ⟨rest, _, rfl⟩ := parseWith_word.mp parsed
    exact h
  | seq a b left right =>
    obtain ⟨tight, front, behind⟩ := h
    obtain ⟨first, second, matched, followed, rfl⟩ := parseWith_seq.mp parsed
    have here := left front matched
    have there := right behind followed
    intro c member
    simp only [skip_of_ne_spaced tight, List.append_nil, List.mem_append] at member
    exact member.elim (here c) (there c)
  | alt a b left right =>
    obtain found | ⟨_, found⟩ := parseWith_alt.mp parsed
    · exact left h.1 found
    · exact right h.2 found
  | opt a part =>
    obtain found | ⟨_, rfl⟩ := parseWith_opt.mp parsed
    · exact part h found
    · exact fun c member => nomatch member
  | star a part =>
    obtain ⟨tight, consumes, avoids⟩ := h
    have turns : Repeats blank (a.parseWith blank inner) mode pos s m := by
      rw [parseWith_star.mp parsed]
      exact starMatch_repeats (consumesIn_of_consumes productive consumes mode)
        (skip_of_ne_spaced tight s)
    clear parsed
    induction turns with
    | stop _ => exact fun c member => nomatch member
    | turn found _ ih =>
      have here := part avoids found
      intro c member
      simp only [skip_of_ne_spaced tight, List.nil_append, List.mem_append] at member
      exact member.elim (here c) (ih c)
  | absent a _ =>
    obtain ⟨_, rfl⟩ := parseWith_absent.mp parsed
    exact fun c member => nomatch member
  | rule name kind body inside =>
    obtain ⟨found, matched, rfl⟩ := parseWith_rule.mp parsed
    have avoided := inside h matched
    split <;> exact avoided
  | nested => cases h

end Expr

end Verbatim.Peg
