import Verbatim.Proofs.Peg.Append
import Verbatim.Proofs.Peg.Move
import Verbatim.Proofs.Text.LineBreaks

/-!
# Matching a text with other line breaks

A matcher is `Blind` to the way lines are broken if it does the same on a text and on the text with
pairs for line feeds. Two runs are compared part by part: one lemma for each kind of expression says
that it is blind if its parts are, and a repetition is followed turn by turn (`Repeats.rebroken`).
An expression that avoids line breaks is blind by its shape (`Expr.blind_of_avoids`). A part that
takes any character is not: it takes a line feed in one turn and the pair in two. Behind a lookahead
for line breaks it never gets there (`Expr.blind_absent_char`), and otherwise only the whole
repetition is blind (`Expr.blind_star_of_single`).
-/

namespace Verbatim.Peg

open Text

variable {ρ : Type} {blank : Char → Bool} {inner : Matcher ρ} {mode : Mode} {pos : Nat}
  {s : List Char} {m : Match ρ} {inLine : Prop}

/-- A match and the one that is made of the text with pairs for line feeds. A match `inLine` has no
line break in it. -/
structure Match.Rebroken (inLine : Prop) (m m' : Match ρ) : Prop where
  text : m'.text = crlf m.text
  rest : m'.rest = crlf m.rest
  oneLine : inLine → OneLine m.text

/-- A matcher does the same, wherever it may stand, on a text and on the text with pairs for line
feeds. -/
def Matcher.Blind (blank : Char → Bool) (inLine : Prop) (a : Matcher ρ) (mode : Mode) : Prop :=
  ∀ pos pos' s, PlainBreaks s → skip blank mode s = ([], s) →
    Option.Rel (Match.Rebroken inLine) (a mode pos s) (a mode pos' (crlf s))

/-! ### Pairs of runs -/

section Runs

variable {α β γ δ : Type} {R : α → β → Prop} {Q : γ → δ → Prop} {x : Option α} {y : Option β}

theorem rel_bind {f : α → Option γ} {g : β → Option δ} (h : Option.Rel R x y)
    (next : ∀ a b, x = some a → R a b → Option.Rel Q (f a) (g b)) :
    Option.Rel Q (x.bind f) (y.bind g) := by
  cases h with
  | none => exact .none
  | some related => exact next _ _ rfl related

theorem rel_map {f : α → γ} {g : β → δ} (h : Option.Rel R x y)
    (next : ∀ a b, R a b → Q (f a) (g b)) : Option.Rel Q (x.map f) (y.map g) := by
  cases h with
  | none => exact .none
  | some related => exact .some (next _ _ related)

theorem rel_or {x' : Option α} {y' : Option β} (h : Option.Rel R x y) (h' : Option.Rel R x' y') :
    Option.Rel R (x.or x') (y.or y') := by
  cases h with
  | none => exact h'
  | some related => exact .some related

theorem rel_isSome (h : Option.Rel R x y) : x.isSome = y.isSome := by
  cases h <;> rfl

theorem rel_eq_none (h : Option.Rel R x y) (nothing : x = none) : y = none := by
  cases h with
  | none => rfl
  | some _ => cases nothing

theorem exists_of_rel {a : α} (h : Option.Rel R x y) (found : x = some a) :
    ∃ b, y = some b ∧ R a b := by
  cases h with
  | none => cases found
  | some related => exact ⟨_, rfl, Option.some.inj found ▸ related⟩

end Runs

/-! ### The text that is left -/

theorem plainBreaks_skip (h : PlainBreaks s) (blank : Char → Bool) (mode : Mode) :
    PlainBreaks (skip blank mode s).2 := by
  rw [← skip_append blank mode s] at h
  exact h.behind

theorem plainBreaks_rest {a : Matcher ρ} (covers : a.CoversIn mode)
    (found : a mode pos s = some m) (h : PlainBreaks s) : PlainBreaks m.rest := by
  rw [← (covers _ _ _ found).split] at h
  exact h.behind

/-! ### One kind of expression after another -/

namespace Expr

variable {a b : Expr ρ}

/-- One character that is no line feed. -/
theorem rebroken_char {c : Char} {rest : List Char} (plain : PlainBreaks (c :: rest))
    (inside : c ≠ '\n') (member : Char → Bool) (pos pos' : Nat) :
    Option.Rel (Match.Rebroken inLine)
      ((char member : Expr ρ).parseWith blank inner mode pos (c :: rest))
      ((char member : Expr ρ).parseWith blank inner mode pos' (crlf (c :: rest))) := by
  have oneLine : OneLine [c] := by
    intro d same
    obtain rfl := List.mem_singleton.mp same
    simp [isLineEnd, inside, plain.ne_carriage]
  rw [crlf_cons inside]
  cases found : member c with
  | false =>
    simp only [parseWith, found]
    exact .none
  | true =>
    simp only [parseWith, found, if_true]
    exact .some ⟨oneLine.crlf_eq_self.symm, rfl, fun _ => oneLine⟩

theorem blind_char {member : Char → Bool} (avoids : ∀ c, isLineEnd c = true → member c = false) :
    Matcher.Blind blank inLine ((char member : Expr ρ).parseWith blank inner) mode := by
  intro pos pos' s plain _
  cases s with
  | nil => exact .none
  | cons c rest =>
    by_cases feed : c = '\n'
    · subst feed
      have apart : member '\n' = false ∧ member '\r' = false :=
        ⟨avoids '\n' rfl, avoids '\r' rfl⟩
      simp only [parseWith, crlf_feed, apart]
      exact .none
    · exact rebroken_char plain feed member pos pos'

theorem blind_word {text : List Char} (oneLine : OneLine text) :
    Matcher.Blind blank inLine ((word text : Expr ρ).parseWith blank inner) mode := by
  intro pos pos' s _ _
  cases found : (word text : Expr ρ).parseWith blank inner mode pos s with
  | none =>
    cases found' : (word text : Expr ρ).parseWith blank inner mode pos' (crlf s) with
    | none => exact .none
    | some m' =>
      obtain ⟨_, split, _⟩ := parseWith_word.mp found'
      obtain ⟨rest, here, _⟩ := (crlf_eq_append oneLine).mp split
      rw [parseWith_word.mpr ⟨rest, here, rfl⟩] at found
      cases found
  | some m =>
    obtain ⟨rest, rfl, rfl⟩ := parseWith_word.mp found
    have there : crlf (text ++ rest) = text ++ crlf rest := by
      rw [crlf_append, oneLine.crlf_eq_self]
    rw [parseWith_word.mpr ⟨_, there, rfl⟩]
    exact .some ⟨oneLine.crlf_eq_self.symm, rfl, fun _ => oneLine⟩

theorem blind_alt (left : Matcher.Blind blank inLine (a.parseWith blank inner) mode)
    (right : Matcher.Blind blank inLine (b.parseWith blank inner) mode) :
    Matcher.Blind blank inLine ((alt a b).parseWith blank inner) mode :=
  fun pos pos' s plain front => rel_or (left pos pos' s plain front) (right pos pos' s plain front)

/-- Nothing is taken. -/
theorem rebroken_empty (s : List Char) :
    (Match.empty s : Match ρ).Rebroken inLine (.empty (crlf s)) :=
  ⟨rfl, rfl, fun _ _ member => nomatch member⟩

theorem blind_opt (part : Matcher.Blind blank inLine (a.parseWith blank inner) mode) :
    Matcher.Blind blank inLine ((opt a).parseWith blank inner) mode := by
  intro pos pos' s plain front
  simp only [parseWith]
  have run := part pos pos' s plain front
  generalize a.parseWith blank inner mode pos s = x, a.parseWith blank inner mode pos' (crlf s) = y
    at run
  cases run with
  | none => exact .some (rebroken_empty s)
  | some same => exact .some same

/-- A lookahead is blind if it finds something in both texts or in neither. -/
theorem blind_absent (same : ∀ pos pos' s, PlainBreaks s → skip blank mode s = ([], s) →
      (a.parseWith blank inner mode pos s).isSome =
        (a.parseWith blank inner mode pos' (crlf s)).isSome) :
    Matcher.Blind blank inLine ((absent a).parseWith blank inner) mode := by
  intro pos pos' s plain front
  simp only [parseWith, same pos pos' s plain front]
  split
  · exact .none
  · exact .some (rebroken_empty s)

theorem blind_rule {name : ρ} {kind : RuleKind}
    (inside : Matcher.Blind blank inLine (a.parseWith blank inner) (kind.inside mode)) :
    Matcher.Blind blank inLine ((rule name kind a).parseWith blank inner) mode := by
  intro pos pos' s plain front
  have still : skip blank (kind.inside mode) s = ([], s) := by
    cases kind
    case plain | landmark => exact front
    case compound | token => rfl
  refine rel_map (inside pos pos' s plain still) fun m m' same => ?_
  cases kind.makesNode mode
  · exact same
  · exact ⟨same.text, same.rest, same.oneLine⟩

/-- A repetition is blind if its turns have their counterparts. -/
theorem blind_star_of_turns (productive : inner.Productive) (consumes : a.consumes = true)
    (still : ∀ s, skip blank mode s = ([], s) → skip blank mode (crlf s) = ([], crlf s))
    (turns : ∀ pos pos' s m, PlainBreaks s → Repeats blank (a.parseWith blank inner) mode pos s m →
      ∃ m', Repeats blank (a.parseWith blank inner) mode pos' (crlf s) m' ∧ m.Rebroken inLine m') :
    Matcher.Blind blank inLine ((star a).parseWith blank inner) mode := by
  intro pos pos' s plain front
  have progress : Matcher.ConsumesIn (a.parseWith blank inner) mode :=
    consumesIn_of_consumes productive consumes mode
  have here : Repeats blank (a.parseWith blank inner) mode pos s _ :=
    starMatch_repeats progress front
  have there : Repeats blank (a.parseWith blank inner) mode pos' (crlf s) _ :=
    starMatch_repeats progress (still s front)
  obtain ⟨m', again, same⟩ := turns pos pos' s _ plain here
  rw [again.unique there] at same
  exact .some same

/-- A part that takes each character of a line break by itself takes the pair in two turns. -/
theorem blind_star_of_single (productive : inner.Productive) (consumes : a.consumes = true)
    (tight : mode ≠ .spaced)
    (elsewhere : ∀ pos pos' c s, PlainBreaks (c :: s) → c ≠ '\n' →
      Option.Rel (Match.Rebroken False) (a.parseWith blank inner mode pos (c :: s))
        (a.parseWith blank inner mode pos' (crlf (c :: s))))
    (single : ∀ pos c s, isLineEnd c = true →
      a.parseWith blank inner mode pos (c :: s) = some ⟨[c], [], s⟩) :
    Matcher.Blind blank False ((star a).parseWith blank inner) mode := by
  refine blind_star_of_turns productive consumes (fun s _ => skip_of_ne_spaced tight _) ?_
  intro pos pos' s m plain turns
  induction turns generalizing pos' with
  | @stop pos s exhausted =>
    refine ⟨_, .stop ?_, rebroken_empty s⟩
    simp only [skip_of_ne_spaced tight] at exhausted ⊢
    cases s with
    | nil => exact parseWith_nil_of_consumes productive consumes mode _
    | cons c s =>
      refine rel_eq_none (elsewhere _ _ c s plain ?_) exhausted
      rintro rfl
      rw [single _ _ _ rfl] at exhausted
      cases exhausted
  | @turn pos s here more found _ ih =>
    simp only [skip_of_ne_spaced tight] at found ⊢
    cases s with
    | nil =>
      rw [parseWith_nil_of_consumes productive consumes] at found
      cases found
    | cons c s =>
      by_cases feed : c = '\n'
      · -- one turn for the line feed, and two for the pair
        subst feed
        obtain rfl := Option.some.inj (found.symm.trans (single _ _ _ rfl))
        obtain ⟨more', again, same⟩ := ih (pos' + byteLength [] + byteLength ['\r'] +
          byteLength [] + byteLength ['\n']) plain.tail
        have pair := Repeats.turn_of_skip (skip_of_ne_spaced tight _) (single _ '\r' _ rfl)
          (Repeats.turn_of_skip (skip_of_ne_spaced tight _) (single _ '\n' _ rfl) again)
        refine ⟨_, pair, ?_, same.rest, False.elim⟩
        simp [same.text, crlf_feed]
      · obtain ⟨here', found', same⟩ := exists_of_rel (elsewhere _ pos' c s plain feed) found
        have behind := plainBreaks_rest (parseWith_covers productive.covers a mode) found plain
        obtain ⟨more', again, later⟩ := ih (pos' + byteLength [] + byteLength here'.text) behind
        rw [← same.rest] at again
        refine ⟨_, .turn_of_skip (skip_of_ne_spaced tight _) found' again, ?_, later.rest,
          False.elim⟩
        simp [same.text, later.text]

end Expr

/-! ### Skipped blanks -/

/-- No character that ends a line is skipped. -/
def SkipsInLine (blank : Char → Bool) : Prop := ∀ c, blank c = true → isLineEnd c = false

section SkipsInLine

variable (skipsInLine : SkipsInLine blank)

include skipsInLine

theorem oneLine_skip (mode : Mode) (s : List Char) : OneLine (skip blank mode s).1 :=
  fun c member => skipsInLine c (blank_of_mem_skip member)

theorem skip_crlf (mode : Mode) (s : List Char) :
    skip blank mode (crlf s) = ((skip blank mode s).1, crlf (skip blank mode s).2) := by
  have apart : ∀ c, isLineEnd c = true → blank c = false := by
    intro c ends
    by_contra skipped
    rw [skipsInLine c (by simpa using skipped)] at ends
    cases ends
  cases mode with
  | spaced =>
    simp only [skip, takeWhile_crlf (apart '\n' rfl) (apart '\r' rfl),
      dropWhile_crlf (apart '\n' rfl) (apart '\r' rfl)]
  | adjacent => rfl
  | token => rfl

theorem skip_crlf_eq_self (front : skip blank mode s = ([], s)) :
    skip blank mode (crlf s) = ([], crlf s) := by
  rw [skip_crlf skipsInLine, front]

/-- The turns on a text have their counterparts on the text with pairs for line feeds. -/
theorem Repeats.rebroken {a : Matcher ρ} (covers : a.CoversIn mode)
    (blind : a.Blind blank inLine mode) (h : Repeats blank a mode pos s m)
    (plain : PlainBreaks s) (pos' : Nat) :
    ∃ m', Repeats blank a mode pos' (crlf s) m' ∧ m.Rebroken inLine m' := by
  induction h generalizing pos' with
  | @stop pos s exhausted =>
    refine ⟨_, .stop ?_, Expr.rebroken_empty s⟩
    rw [skip_crlf skipsInLine]
    exact rel_eq_none
      (blind _ _ _ (plainBreaks_skip plain blank mode) (skip_skip blank mode s)) exhausted
  | @turn pos s here more found _ ih =>
    have behind := plainBreaks_skip plain blank mode
    obtain ⟨here', found', same⟩ := exists_of_rel
      (blind _ (pos' + byteLength (skip blank mode s).1) _ behind (skip_skip blank mode s)) found
    obtain ⟨more', turns, later⟩ := ih (plainBreaks_rest covers found behind)
      (pos' + byteLength (skip blank mode s).1 + byteLength here'.text)
    rw [← same.rest] at turns
    refine ⟨_, .turn_of_skip (skip_crlf skipsInLine mode s) found' turns, ?_, later.rest, ?_⟩
    · simp [same.text, later.text, (oneLine_skip skipsInLine mode s).crlf_eq_self]
    · intro inside
      exact ((oneLine_skip skipsInLine mode s).append (same.oneLine inside)).append
        (later.oneLine inside)

namespace Expr

variable {a b e : Expr ρ}

theorem blind_seq (covers : Matcher.CoversIn (a.parseWith blank inner) mode)
    (left : Matcher.Blind blank inLine (a.parseWith blank inner) mode)
    (right : Matcher.Blind blank inLine (b.parseWith blank inner) mode) :
    Matcher.Blind blank inLine ((seq a b).parseWith blank inner) mode := by
  intro pos pos' s plain front
  refine rel_bind (left pos pos' s plain front) fun first first' found same => ?_
  have behind := plainBreaks_skip (plainBreaks_rest covers found plain) blank mode
  simp only [same.rest, skip_crlf skipsInLine]
  refine rel_bind (right _ _ _ behind (skip_skip _ _ _)) fun second second' _ later => ?_
  have gap := oneLine_skip skipsInLine mode first.rest
  refine .some ⟨?_, later.rest, fun inside => ?_⟩
  · simp [same.text, later.text, gap.crlf_eq_self]
  · exact ((same.oneLine inside).append gap).append (later.oneLine inside)

theorem blind_star (productive : inner.Productive) (consumes : a.consumes = true)
    (part : Matcher.Blind blank inLine (a.parseWith blank inner) mode) :
    Matcher.Blind blank inLine ((star a).parseWith blank inner) mode :=
  blind_star_of_turns productive consumes (fun _ => skip_crlf_eq_self skipsInLine)
    fun _ pos' _ _ plain turns => turns.rebroken skipsInLine
      (parseWith_covers productive.covers a mode) part plain pos'

/-- Behind a lookahead any character may be taken that is no line feed, or where the lookahead finds
something. -/
theorem rebroken_absent_char {look : Prop} (member : Char → Bool)
    (ahead : Matcher.Blind blank look (e.parseWith blank inner) mode) (plain : PlainBreaks s)
    (front : skip blank mode s = ([], s))
    (finds : s.head? = some '\n' → (e.parseWith blank inner mode pos s).isSome = true)
    (pos' : Nat) :
    Option.Rel (Match.Rebroken inLine)
      ((seq (absent e) (char member)).parseWith blank inner mode pos s)
      ((seq (absent e) (char member)).parseWith blank inner mode pos' (crlf s)) := by
  rw [parseWith_absent_seq front, parseWith_absent_seq (skip_crlf_eq_self skipsInLine front),
    ← rel_isSome (ahead pos pos' s plain front)]
  split
  · exact .none
  next nothing =>
    cases s with
    | nil => exact .none
    | cons c rest =>
      refine rebroken_char plain ?_ member pos pos'
      rintro rfl
      exact nothing (finds rfl)

theorem blind_absent_char {look : Prop} (member : Char → Bool)
    (ahead : Matcher.Blind blank look (e.parseWith blank inner) mode)
    (finds : ∀ pos s, (e.parseWith blank inner mode pos ('\n' :: s)).isSome = true) :
    Matcher.Blind blank inLine ((seq (absent e) (char member)).parseWith blank inner) mode := by
  intro pos pos' s plain front
  refine rebroken_absent_char skipsInLine member ahead plain front (fun feed => ?_) pos'
  obtain ⟨rest, rfl⟩ := List.head?_eq_some_iff.mp feed
  exact finds pos rest

/-- Where no line break is taken or looked for, it does not matter how lines are broken. -/
theorem blind_of_avoids (productive : inner.Productive) {e : Expr ρ}
    (h : e.Avoids (isLineEnd · = true) mode) :
    Matcher.Blind blank inLine (e.parseWith blank inner) mode := by
  induction e generalizing mode with
  | char member =>
    refine blind_char fun c ends => ?_
    by_contra found
    exact h c (by simpa using found) ends
  | word text =>
    refine blind_word fun c member => ?_
    simpa using h c member
  | seq a b left right =>
    exact blind_seq skipsInLine (parseWith_covers productive.covers a mode) (left h.2.1)
      (right h.2.2)
  | alt a b left right => exact blind_alt (left h.1) (right h.2)
  | opt a part => exact blind_opt (part h)
  | star a part => exact blind_star skipsInLine productive h.2.1 (part h.2.2)
  | absent a part =>
    exact blind_absent fun pos pos' s plain front => rel_isSome (part h pos pos' s plain front)
  | rule name kind body inside => exact blind_rule (inside h)
  | nested => cases h

end Expr

end SkipsInLine

end Verbatim.Peg
