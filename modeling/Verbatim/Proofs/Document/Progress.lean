import Verbatim.Failure
import Verbatim.Proofs.Document.Build
import Verbatim.Proofs.Text.Slices

/-!
# Building from the tree of another text

A builder can be given a tree that has nothing to do with its source. Then an offset of the tree may
lie behind the cursor, inside a character or beyond the source. `Ends` says of a step what holds in
any case: the cursor does not move back, and the step either gives a result, for which a condition
holds, or fails with a fault of the cursor. Each step has one lemma of this form. For a step that
builds a part of the document the condition is that the spaces of this part are slices of the source
between the cursor in front of the step and the cursor behind it (`Leads`).
-/

namespace Verbatim

open Peg Text Toml

/-- A fault of the cursor: what it points at lies inside the source, however long that is. -/
structure BuildFault.OfCursor (f : BuildFault) : Prop where
  kind : f.kind = .cursor
  ordered : ∀ length, (f.span length).start ≤ (f.span length).stop
  inside : ∀ length, (f.span length).stop ≤ length

namespace BuildFault

/-- A gap that starts at the cursor is in order, also when its ends are moved back. -/
theorem gap_ofCursor {cursor start : Nat} (ahead : cursor ≤ start) :
    (gap cursor start).OfCursor := by
  constructor
  case kind => rfl
  case ordered =>
    intro length
    have ends : min cursor length ≤ min start length := by omega
    exact ends
  case inside =>
    intro length
    exact Nat.min_le_right start length

theorem insideCharacter_ofCursor (stop : Nat) : (insideCharacter stop).OfCursor :=
  ⟨rfl, fun _ => Nat.le_refl _, fun length => Nat.min_le_right stop length⟩

theorem outside_ofCursor (cursor : Nat) : (outside cursor).OfCursor :=
  ⟨rfl, fun _ => Nat.le_refl _, fun length => Nat.min_le_right cursor length⟩

end BuildFault

namespace Piece

/-- The texts of the spaces among some pieces. -/
def spaces (ps : List Piece) : List (List Char) :=
  (ps.filter (·.kind = .space)).map (·.text.toList)

@[simp] theorem spaces_nil : spaces [] = [] := rfl

@[simp] theorem spaces_ofSpace (s : Space) (ps : List Piece) :
    spaces (ofSpace s :: ps) = s.chars :: spaces ps := rfl

@[simp] theorem spaces_append (ps qs : List Piece) :
    spaces (ps ++ qs) = spaces ps ++ spaces qs := by
  unfold spaces
  rw [List.filter_append, List.map_append]

@[simp] theorem spaces_token {p : Piece} (token : p.kind ≠ .space) (ps : List Piece) :
    spaces (p :: ps) = spaces ps := by
  simp [spaces, token]

end Piece

namespace Build

variable {α β : Type} {c c' c'' start stop : Nat} {a : α} {f : BuildFault} {source : List Char}
  {t n : Node} {P Q : α → Nat → Prop} {R : β → Nat → Prop} {first : Build α} {next : α → Build β}

/-! ### Steps that may fail -/

/-- A step of building fails, and leaves the cursor at an offset. -/
def Fails (step : Build α) (c : Nat) (f : BuildFault) (c' : Nat) : Prop :=
  step.run.run ⟨c⟩ = (.error f, ⟨c'⟩)

theorem fails_throw (c : Nat) (f : BuildFault) : Fails (throw f : Build α) c f c := rfl

/-- What follows a failure is not run. -/
theorem Fails.bind (here : Fails first c f c') (next : α → Build β) :
    Fails (first >>= next) c f c' := by
  unfold Fails at *
  rw [ExceptT.run_bind, StateT.run_bind, here]
  rfl

theorem Yields.bind_fails (here : Yields first c a c') (there : Fails (next a) c' f c'') :
    Fails (first >>= next) c f c'' := by
  unfold Fails Yields at *
  rw [ExceptT.run_bind, StateT.run_bind, here]
  exact there

/-- A step gives a result with a property or fails with a fault of the cursor. In both cases the
cursor does not move back. -/
inductive Ends (step : Build α) (c : Nat) (P : α → Nat → Prop) : Prop where
  | yields {a : α} {c' : Nat} (result : Yields step c a c') (onward : c ≤ c') (holds : P a c')
  | fails {f : BuildFault} {c' : Nat} (result : Fails step c f c') (onward : c ≤ c')
      (fault : f.OfCursor)

theorem ends_pure (holds : P a c) : Ends (pure a) c P :=
  .yields (yields_pure c a) (Nat.le_refl c) holds

theorem Ends.bind (here : Ends first c P) (there : ∀ a c', c ≤ c' → P a c' → Ends (next a) c' R) :
    Ends (first >>= next) c R := by
  cases here with
  | @yields a c' result onward holds =>
    cases there a c' onward holds with
    | yields later further post =>
      exact .yields (result.bind later) (Nat.le_trans onward further) post
    | fails later further fault =>
      exact .fails (result.bind_fails later) (Nat.le_trans onward further) fault
  | fails result onward fault => exact .fails (result.bind next) onward fault

theorem Ends.mono (h : Ends first c P) (weaker : ∀ a c', P a c' → Q a c') : Ends first c Q := by
  cases h with
  | yields result onward holds => exact .yields result onward (weaker _ _ holds)
  | fails result onward fault => exact .fails result onward fault

/-- A step that is known to leave the cursor where it is. -/
theorem Ends.after (here : Yields first c a c) (there : Ends (next a) c R) :
    Ends (first >>= next) c R := by
  have stays : Ends first c fun b c' => b = a ∧ c' = c := .yields here (Nat.le_refl c) ⟨rfl, rfl⟩
  apply stays.bind
  rintro _ _ _ ⟨rfl, rfl⟩
  exact there

/-! ### Moves of the cursor -/

/-- Taking the space in front of an offset: the cursor has passed the offset, or the space cannot
be cut out, or it is cut out and the cursor stands at the offset. -/
theorem spaceBefore_cases (source : List Char) (start c : Nat) :
    (start < c ∧ Yields (spaceBefore source start) c {} c) ∨
      (c ≤ start ∧ Fails (spaceBefore source start) c (.gap c start) c) ∨
        ∃ text, slice? source c start = some text ∧
          Yields (spaceBefore source start) c (Space.ofList text) start := by
  by_cases passed : start < c
  · refine Or.inl ⟨passed, (yields_get c).bind ?_⟩
    simp only [if_pos passed]
    exact yields_pure c _
  · have ahead : c ≤ start := Nat.le_of_not_lt passed
    cases cut : slice? source c start with
    | none =>
      refine Or.inr (Or.inl ⟨ahead, (yields_get c).bind_fails ?_⟩)
      simp only [if_neg passed, cut]
      exact fails_throw c _
    | some text =>
      refine Or.inr (Or.inr ⟨text, rfl, (yields_get c).bind ?_⟩)
      simp only [if_neg passed, cut]
      have moved := yields_advanceTo c start
      rw [Nat.max_eq_right ahead] at moved
      exact moved.bind (yields_pure _ _)

/-- Passing the character at an offset moves the cursor to a boundary of the source, unless it is
behind that one already. -/
theorem advancePast_cases (source : List Char) (stop c : Nat) :
    (∃ place, IsBoundary source place ∧ Yields (advancePast source stop) c () (max c place)) ∨
      Fails (advancePast source stop) c (.insideCharacter stop) c := by
  unfold advancePast
  split
  · exact Or.inl ⟨_, isBoundary_end source, yields_advanceTo c _⟩
  · split
    next d rest found =>
      refine Or.inl ⟨_, ?_, yields_advanceTo c _⟩
      split
      · exact isBoundary_iff.mpr (by rw [found]; rfl)
      · exact isBoundary_behind found
    · exact Or.inr (fails_throw c _)

/-- What is left of the source is used up, or the cursor stands where nothing can be cut out. -/
theorem remainingSpace_cases (source : List Char) (c : Nat) :
    (∃ rest, dropBytes? c source = some rest ∧
      Yields (remainingSpace source) c (Space.ofList rest) (byteLength source)) ∨
        Fails (remainingSpace source) c (.outside c) c := by
  cases found : dropBytes? c source with
  | none =>
    refine Or.inr ((yields_get c).bind_fails ?_)
    simp only [found]
    exact fails_throw c _
  | some rest =>
    have size := byteLength_of_dropBytes? found
    refine Or.inl ⟨rest, rfl, (yields_get c).bind ?_⟩
    simp only [found]
    have moved := yields_advanceTo c (byteLength source)
    rw [Nat.max_eq_right (by omega)] at moved
    exact moved.bind (yields_pure _ _)

theorem ends_advanceTo (c offset : Nat) :
    Ends (advanceTo offset) c fun _ c' => c' = max c offset :=
  .yields (yields_advanceTo c offset) (Nat.le_max_left c offset) rfl

/-- The space in front of an offset is a slice from the cursor to there. It is empty if the cursor
has passed the offset. -/
theorem ends_spaceBefore (source : List Char) (start c : Nat) :
    Ends (spaceBefore source start) c fun before c' => Leads source c [before.chars] c' := by
  rcases spaceBefore_cases source start c with ⟨_, stays⟩ | ⟨ahead, fails⟩ | ⟨text, cut, moves⟩
  · exact .yields stays (Nat.le_refl c) (.empty c)
  · exact .fails fails (Nat.le_refl c) (BuildFault.gap_ofCursor ahead)
  · refine .yields moves (le_of_slice? cut) ?_
    rw [Space.chars_ofList]
    exact .slice cut

/-- The cursor does not go beyond the source behind a character of it. -/
theorem ends_advancePast (source : List Char) (stop c : Nat) :
    Ends (advancePast source stop) c fun _ c' => c' ≤ max c (byteLength source) := by
  rcases advancePast_cases source stop c with ⟨place, boundary, moves⟩ | fails
  · have inside := boundary.le
    exact .yields moves (Nat.le_max_left c place) (by omega)
  · exact .fails fails (Nat.le_refl c) (BuildFault.insideCharacter_ofCursor stop)

/-- What is left of the source is used up. -/
theorem ends_remainingSpace (source : List Char) (c : Nat) :
    Ends (remainingSpace source) c fun left c' =>
      dropBytes? c source = some left.chars ∧ c' = byteLength source := by
  rcases remainingSpace_cases source c with ⟨rest, left, moves⟩ | fails
  · have size := byteLength_of_dropBytes? left
    refine .yields moves (by omega) ⟨?_, rfl⟩
    rw [Space.chars_ofList, left]
  · exact .fails fails (Nat.le_refl c) (BuildFault.outside_ofCursor c)

/-- What holds behind the parts of a node holds behind the node, if the cursor may move on, but not
beyond the source. -/
theorem ends_around {make : Space → Build α}
    (inside : ∀ before c', Leads source c [before.chars] c' → Ends (make before) c' P)
    (behind : ∀ a c' c'', P a c' → c' ≤ c'' → c'' ≤ max c' (byteLength source) → Q a c'') :
    Ends (around source t make) c Q := by
  rw [around]
  apply (ends_spaceBefore source t.start c).bind
  intro before c₁ _ front
  apply (inside before c₁ front).bind
  intro a c₂ _ holds
  cases t.last? with
  | none =>
    have stays : c₂ ≤ max c₂ (byteLength source) := Nat.le_max_left ..
    exact ends_pure (behind a c₂ c₂ holds (Nat.le_refl c₂) stays)
  | some last =>
    apply (ends_advancePast source last c₂).bind
    intro _ c₃ onward bound
    exact ends_pure (behind a c₂ c₃ holds onward bound)

mutual

/-- A node of which no parts are kept is used up, or a fault is met in it. -/
theorem ends_consume (source : List Char) : ∀ (t : Node) (c : Nat),
    Ends (consume source t) c fun _ _ => True
  | .node rule start text children, c => by
    rw [consume]
    apply ends_around
    · intro before c' _
      exact ends_consumeAll source children c'
    · intro _ _ _ _ _ _
      trivial

theorem ends_consumeAll (source : List Char) : ∀ (ts : List Node) (c : Nat),
    Ends (consumeAll source ts) c fun _ _ => True
  | [], c => ends_pure trivial
  | t :: ts, c => by
    rw [consumeAll]
    apply (ends_consume source t c).bind
    intro _ c' _ _
    exact ends_consumeAll source ts c'

end

/-! ### Parts of a line -/

/-- A node that starts with its own space, and then has the spaces of its parts. -/
theorem ends_node {pieces : α → List Piece} {make : Space → Build α}
    (inside : ∀ before c', Ends (make before) c' fun a c'' =>
      ∃ texts, Piece.spaces (pieces a) = before.chars :: texts ∧ Leads source c' texts c'') :
    Ends (around source t make) c fun a c' => Leads source c (Piece.spaces (pieces a)) c' := by
  apply ends_around (P := fun a c' => Leads source c (Piece.spaces (pieces a)) c')
  · intro before c' front
    apply (inside before c').mono
    rintro a c'' ⟨texts, spaces, parts⟩
    rw [spaces]
    exact front.trans parts
  · intro a c' c'' holds onward _
    exact holds.moved onward

/-- Classifying a value takes no space that is kept. -/
theorem ends_classify (source : List Char) (n : Node) (c : Nat) :
    Ends (classify source n) c fun _ _ => True := by
  have used := ends_consume source n c
  unfold classify
  cases n.rule
  case string | integer | floatingPoint | boolean | dateTime => exact ends_pure trivial
  all_goals
    apply used.bind
    intro _ c' _ _
    exact ends_pure trivial

theorem ends_literal (made : Made t) (rule : t.rule = .value) (c : Nat) :
    Ends (literal source t) c fun l c' => Leads source c (Piece.spaces l.pieces) c' := by
  obtain ⟨n, _, one⟩ := value_alternative made rule
  apply ends_node
  intro before c₁
  apply Ends.after (yields_exactlyOne one c₁)
  apply (ends_classify source n c₁).bind
  rintro ⟨kind, hint⟩ c₂ onward _
  exact ends_pure ⟨[], rfl, .move onward⟩

theorem ends_key (source : List Char) (t : Node) (c : Nat) :
    Ends (key source t) c fun k c' => Leads source c (Piece.spaces k.pieces) c' := by
  apply ends_node
  intro before c₁
  exact ends_pure ⟨[], rfl, .move (Nat.le_refl c₁)⟩

theorem ends_comment (source : List Char) (t : Node) (c : Nat) :
    Ends (comment source t) c fun note c' => Leads source c (Piece.spaces note.pieces) c' := by
  apply ends_node
  intro before c₁
  exact ends_pure ⟨[], rfl, .move (Nat.le_refl c₁)⟩

/-- Passing the equals sign may move the cursor anywhere ahead. -/
theorem ends_equals (source : List Char) (t : Node) (c : Nat) :
    Ends (equals source t) c fun before c' => Leads source c [before.chars] c' := by
  unfold equals
  split
  · exact ends_pure (.empty c)
  next sign found =>
    apply (ends_spaceBefore source sign.start c).bind
    intro before c₁ _ front
    apply (ends_advanceTo c₁ sign.stop).bind
    intro _ c₂ onward _
    exact ends_pure (front.moved onward)

theorem ends_keyValue (sound : Sound t) (rule : t.rule = .keyValue) (c : Nat) :
    Ends (keyValue source t) c fun kv c' => Leads source c (Piece.spaces kv.pieces) c' := by
  obtain ⟨k, e, v, g₁, g₂, parts⟩ := sound.made.pairParts rule
  have value : Sound v := sound.child (by simp [parts.children])
  apply ends_node
  intro before c₁
  apply Ends.after (yields_required (child?_key parts) "key" c₁)
  apply (ends_key source k c₁).bind
  intro key c₂ _ inKey
  apply (ends_equals source t c₂).bind
  intro afterKey c₃ _ inFront
  apply Ends.after (yields_required (child?_value parts) "value" c₃)
  apply (ends_literal value.made parts.rules.2.2 c₃).bind
  intro literal c₄ _ inValue
  apply ends_pure
  refine ⟨_, ?_, (inKey.trans inFront).trans inValue⟩
  simp [KeyValue.pieces]

theorem ends_table (made : Made t) (rule : t.rule = .table) (c : Nat) :
    Ends (table source t) c fun header c' => Leads source c (Piece.spaces header.pieces) c' := by
  obtain ⟨n, _, one⟩ := table_alternative made rule
  apply ends_node
  intro before c₁
  apply Ends.after (yields_exactlyOne one c₁)
  apply (ends_consume source n c₁).bind
  intro _ c₂ onward _
  exact ends_pure ⟨[], rfl, .move onward⟩

/-! ### Lines -/

theorem ends_item (sound : Sound t) (rule : t.rule = .expression) (c : Nat) :
    Ends (item source t) c fun content c' =>
      Leads source c (Piece.spaces ((content.map Item.pieces).getD [])) c' := by
  obtain ⟨i, known, parts⟩ := sound.made.lineParts rule
  have inside : Sound i := by
    cases parts with
    | plain wraps => exact sound.child (by simp [wraps.children])
    | commented note gap parts => exact sound.child (by simp [parts.children])
  unfold item
  apply Ends.after (yields_atMostOne (content_alternative parts known) c)
  by_cases header : i.rule = .table
  · simp only [if_pos header]
    apply (ends_table inside.made header c).bind
    intro table c₁ _ taken
    exact ends_pure taken
  · have pair : i.rule = .keyValue := by simpa [header] using known
    simp only [if_neg header]
    apply (ends_keyValue inside pair c).bind
    intro kv c₁ _ taken
    exact ends_pure taken

theorem ends_expression (sound : Sound t) (rule : t.rule = .expression) (c : Nat) :
    Ends (expression source t) c fun e c' => Leads source c (Piece.spaces e.pieces) c' := by
  apply ends_node
  intro before c₁
  apply (ends_item sound rule c₁).bind
  intro content c₂ _ inItem
  have behind : Ends ((t.child? .comment).mapM (comment source)) c₂ fun note c' =>
      Leads source c₂ (Piece.spaces ((note.map Comment.pieces).getD [])) c' := by
    cases t.child? .comment with
    | none => exact ends_pure (.move (Nat.le_refl c₂))
    | some node =>
      rw [Option.mapM_some]
      apply (ends_comment source node c₂).bind
      intro note c₃ _ taken
      exact ends_pure taken
  apply behind.bind
  intro note c₃ _ inComment
  apply ends_pure
  refine ⟨_, ?_, inItem.trans inComment⟩
  simp [Expression.pieces]

/-- The spaces of lines follow each other as the lines do. -/
theorem ends_expressions {ts : List Node} (lines : ∀ t ∈ ts, Sound t ∧ t.rule = .expression)
    (c : Nat) : Ends (ts.mapM (expression source)) c fun es c' =>
      Leads source c (Piece.spaces (es.flatMap Expression.pieces)) c' := by
  induction ts generalizing c with
  | nil =>
    rw [List.mapM_nil]
    exact ends_pure (.move (Nat.le_refl c))
  | cons t ts ih =>
    obtain ⟨sound, rule⟩ := lines t (List.mem_cons_self ..)
    rw [List.mapM_cons]
    apply (ends_expression sound rule c).bind
    intro e c₁ _ here
    apply (ih (fun u member => lines u (List.mem_cons_of_mem t member)) c₁).bind
    intro es c₂ _ more
    apply ends_pure
    rw [List.flatMap_cons, Piece.spaces_append]
    exact here.trans more

/-! ### Documents -/

/-- A document that is built uses up the whole source, whatever text its tree was made from, and all
its spaces are slices of the source behind the cursor. -/
theorem ends_document {text : List Char} (parsed : Toml.parse text = .ok t) (origin : Origin)
    (c : Nat) : Ends (document source origin t) c fun d c' =>
      c' = byteLength source ∧
        Slices source c (Piece.spaces d.pieces) (byteLength source) := by
  have whole := parse_isDocument parsed
  have lines : ∀ u ∈ t.childrenOf .expression, Sound u ∧ u.rule = .expression := by
    intro u member
    obtain ⟨inside, rule⟩ := List.mem_filter.mp member
    exact ⟨whole.sound u inside, of_decide_eq_true rule⟩
  apply ends_around (P := fun d c' => c' = byteLength source ∧
    Slices source c (Piece.spaces d.pieces) (byteLength source))
  · intro before c₁ front
    apply (ends_expressions lines c₁).bind
    intro es c₂ _ inLines
    apply (ends_remainingSpace source c₂).bind
    rintro trailing c₃ _ ⟨left, ended⟩
    apply ends_pure
    refine ⟨ended, ?_⟩
    have slices := (front.trans inLines).slices left
    simpa [Document.pieces] using slices
  · rintro d c' c'' ⟨ended, slices⟩ onward bound
    exact ⟨by omega, slices⟩

end Build

end Verbatim
