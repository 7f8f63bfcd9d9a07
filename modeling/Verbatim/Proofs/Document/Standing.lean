import Verbatim.Proofs.Document.Runs

/-!
# Where the cursor stands

A builder that is given the tree of another text meets offsets that mean nothing in its source.
Taking a space, passing a character and taking the rest check them, and leave the cursor at a
boundary of the source. Passing an equals sign is the one move that checks nothing: from a boundary
in front of the sign, the cursor is moved to the end of the sign, which may lie inside a character
or beyond the source. So the cursor stands at a boundary or at the end of such a sign (`Standing`).
`Keeps` says that a step preserves this, whether it succeeds or fails, and has one lemma for each
step. A document takes the rest of the source, so off a boundary a failure has left the cursor
(`Builder.steps_standing`).
-/

namespace Verbatim

open Peg Text Toml

namespace Build

variable {α β : Type} {source : List Char} {c c' start stop place : Nat} {t n sign : Node} {a : α}
  {f : BuildFault} {signs : Node → Prop} {I : Nat → Prop} {first : Build α} {next : α → Build β}

/-! ### Places -/

/-- An equals sign in a tree, which takes up one byte. -/
structure IsSign (t sign : Node) : Prop where
  inside : sign.Within t
  rule : sign.rule = .equals
  stop : sign.stop = sign.start + 1

theorem IsSign.of_child (h : IsSign n sign) (member : n ∈ t.children) : IsSign t sign :=
  ⟨.child member h.inside, h.rule, h.stop⟩

/-- The cursor stands at a boundary of the source, or at the end of a sign that starts at one. -/
def Standing (source : List Char) (signs : Node → Prop) (c : Nat) : Prop :=
  IsBoundary source c ∨ ∃ sign, signs sign ∧ IsBoundary source sign.start ∧ c = sign.stop

/-- The cursor may be moved on to a boundary. -/
theorem Standing.max (h : Standing source signs c) (boundary : IsBoundary source place) :
    Standing source signs (max c place) := by
  rcases Nat.le_total c place with ahead | passed
  · rw [Nat.max_eq_right ahead]
    exact Or.inl boundary
  · rw [Nat.max_eq_left passed]
    exact h

/-! ### Steps that keep the cursor in place -/

/-- Wherever the cursor stands, a step leaves it at a place of the same kind, also if it fails. -/
structure Keeps (I : Nat → Prop) (step : Build α) : Prop where
  holds : ∀ c, I c → I (step.run.run ⟨c⟩).2.offset

theorem Yields.stands (h : Yields first c a c') (there : I c') :
    I (first.run.run ⟨c⟩).2.offset := by
  rw [h]
  exact there

theorem Fails.stands (h : Fails first c f c') (there : I c') :
    I (first.run.run ⟨c⟩).2.offset := by
  rw [h]
  exact there

theorem keeps_pure (a : α) : Keeps I (pure a) := ⟨fun _ here => here⟩

theorem Keeps.bind (h : Keeps I first) (more : ∀ a, Keeps I (next a)) :
    Keeps I (first >>= next) := by
  constructor
  intro c here
  have between := h.holds c here
  rw [ExceptT.run_bind, StateT.run_bind]
  cases run : first.run.run ⟨c⟩ with
  | mk result cursor =>
    rw [run] at between
    cases result with
    | error f => exact between
    | ok a => exact (more a).holds cursor.offset between

/-- A step that is known to leave the cursor where it is. -/
theorem Keeps.after (stays : ∀ c, Yields first c a c) (more : Keeps I (next a)) :
    Keeps I (first >>= next) := by
  constructor
  intro c here
  rw [ExceptT.run_bind, StateT.run_bind, stays c]
  exact more.holds c here

theorem keeps_mapM {make : Node → Build α} {ts : List Node} (each : ∀ t ∈ ts, Keeps I (make t)) :
    Keeps I (ts.mapM make) := by
  induction ts with
  | nil =>
    rw [List.mapM_nil]
    exact keeps_pure []
  | cons t ts ih =>
    rw [List.mapM_cons]
    apply (each t (List.mem_cons_self ..)).bind
    intro _
    exact (ih fun u member => each u (List.mem_cons_of_mem t member)).bind fun _ => keeps_pure _

/-! ### Moves of the cursor -/

theorem keeps_spaceBefore (source : List Char) (signs : Node → Prop) (start : Nat) :
    Keeps (Standing source signs) (spaceBefore source start) := by
  constructor
  intro c standing
  rcases spaceBefore_cases source start c with ⟨_, stays⟩ | ⟨_, fails⟩ | ⟨text, cut, moves⟩
  · exact stays.stands standing
  · exact fails.stands standing
  · exact moves.stands (Or.inl (isBoundary_of_slice? cut))

theorem keeps_advancePast (source : List Char) (signs : Node → Prop) (stop : Nat) :
    Keeps (Standing source signs) (advancePast source stop) := by
  constructor
  intro c standing
  rcases advancePast_cases source stop c with ⟨place, boundary, moves⟩ | fails
  · exact moves.stands (standing.max boundary)
  · exact fails.stands standing

theorem keeps_remainingSpace (source : List Char) (signs : Node → Prop) :
    Keeps (Standing source signs) (remainingSpace source) := by
  constructor
  intro c standing
  rcases remainingSpace_cases source c with ⟨rest, _, moves⟩ | fails
  · exact moves.stands (Or.inl (isBoundary_end source))
  · exact fails.stands standing

/-- Passing an equals sign is not checked. Either the cursor has passed the sign already, or the
space in front of the sign cannot be cut out, or the sign starts at a boundary and the cursor is
moved to its end, wherever that is. -/
theorem keeps_equals (found : t.child? .equals = some sign) (known : signs sign)
    (size : sign.stop = sign.start + 1) : Keeps (Standing source signs) (equals source t) := by
  constructor
  intro c standing
  rcases spaceBefore_cases source sign.start c with ⟨passed, stays⟩ | ⟨_, fails⟩ | ⟨_, cut, moves⟩
  · have stands := yields_equals_of found stays
    rw [Nat.max_eq_left (by omega)] at stands
    exact stands.stands standing
  · rw [equals, found]
    exact (fails.bind _).stands standing
  · have stands := yields_equals_of found moves
    rw [Nat.max_eq_right (by omega)] at stands
    exact stands.stands (Or.inr ⟨sign, known, isBoundary_of_slice? cut, rfl⟩)

theorem keeps_around {make : Space → Build α}
    (inside : ∀ before, Keeps (Standing source signs) (make before)) :
    Keeps (Standing source signs) (around source t make) := by
  rw [around]
  apply (keeps_spaceBefore source signs t.start).bind
  intro before
  apply (inside before).bind
  intro a
  cases t.last? with
  | none => exact keeps_pure a
  | some last => exact (keeps_advancePast source signs last).bind fun _ => keeps_pure a

mutual

theorem keeps_consume (source : List Char) (signs : Node → Prop) :
    ∀ t : Node, Keeps (Standing source signs) (consume source t)
  | .node rule start text children => by
    rw [consume]
    apply keeps_around
    intro before
    exact keeps_consumeAll source signs children

theorem keeps_consumeAll (source : List Char) (signs : Node → Prop) :
    ∀ ts : List Node, Keeps (Standing source signs) (consumeAll source ts)
  | [] => keeps_pure ()
  | t :: ts => by
    rw [consumeAll]
    apply (keeps_consume source signs t).bind
    intro _
    exact keeps_consumeAll source signs ts

end

/-! ### Parts of a document -/

theorem keeps_classify (source : List Char) (signs : Node → Prop) (n : Node) :
    Keeps (Standing source signs) (classify source n) := by
  have used := keeps_consume source signs n
  unfold classify
  cases n.rule
  case string | integer | floatingPoint | boolean | dateTime => exact keeps_pure _
  all_goals exact used.bind fun _ => keeps_pure _

theorem keeps_literal (made : Made t) (rule : t.rule = .value) :
    Keeps (Standing source signs) (literal source t) := by
  obtain ⟨n, _, one⟩ := value_alternative made rule
  apply keeps_around
  intro before
  apply Keeps.after (yields_exactlyOne one)
  exact (keeps_classify source signs n).bind fun _ => keeps_pure _

theorem keeps_key (source : List Char) (signs : Node → Prop) (t : Node) :
    Keeps (Standing source signs) (key source t) :=
  keeps_around fun _ => keeps_pure _

theorem keeps_comment (source : List Char) (signs : Node → Prop) (t : Node) :
    Keeps (Standing source signs) (comment source t) :=
  keeps_around fun _ => keeps_pure _

theorem keeps_keyValue (sound : Sound t) (rule : t.rule = .keyValue)
    (known : ∀ sign, IsSign t sign → signs sign) :
    Keeps (Standing source signs) (keyValue source t) := by
  obtain ⟨k, e, v, g₁, g₂, parts⟩ := sound.made.pairParts rule
  have value : Sound v := sound.child (by simp [parts.children])
  have size : e.stop = e.start + 1 := by
    rw [Tree.stop, parts.sign]
    rfl
  have sign : IsSign t e := ⟨.child (by simp [parts.children]) (.self e), parts.rules.2.1, size⟩
  apply keeps_around
  intro before
  apply Keeps.after (yields_required (child?_key parts) "key")
  apply (keeps_key source signs k).bind
  intro key
  apply (keeps_equals (child?_equals parts) (known e sign) size).bind
  intro afterKey
  apply Keeps.after (yields_required (child?_value parts) "value")
  exact (keeps_literal value.made parts.rules.2.2).bind fun _ => keeps_pure _

theorem keeps_table (made : Made t) (rule : t.rule = .table) :
    Keeps (Standing source signs) (table source t) := by
  obtain ⟨n, _, one⟩ := table_alternative made rule
  apply keeps_around
  intro before
  apply Keeps.after (yields_exactlyOne one)
  exact (keeps_consume source signs n).bind fun _ => keeps_pure _

theorem keeps_item (sound : Sound t) (rule : t.rule = .expression)
    (known : ∀ sign, IsSign t sign → signs sign) :
    Keeps (Standing source signs) (item source t) := by
  obtain ⟨i, kind, parts⟩ := sound.made.lineParts rule
  have member : i ∈ t.children := by
    cases parts with
    | plain wraps => simp [wraps.children]
    | commented note gap parts => simp [parts.children]
  have inside : Sound i := sound.child member
  unfold item
  apply Keeps.after (yields_atMostOne (content_alternative parts kind))
  by_cases header : i.rule = .table
  · simp only [if_pos header]
    exact (keeps_table inside.made header).bind fun _ => keeps_pure _
  · have pair : i.rule = .keyValue := by simpa [header] using kind
    simp only [if_neg header]
    apply (keeps_keyValue inside pair fun sign h => known sign (h.of_child member)).bind
    exact fun _ => keeps_pure _

theorem keeps_expression (sound : Sound t) (rule : t.rule = .expression)
    (known : ∀ sign, IsSign t sign → signs sign) :
    Keeps (Standing source signs) (expression source t) := by
  apply keeps_around
  intro before
  apply (keeps_item sound rule known).bind
  intro content
  cases t.child? .comment with
  | none => exact keeps_pure _
  | some node =>
    rw [Option.mapM_some]
    exact ((keeps_comment source signs node).bind fun _ => keeps_pure _).bind fun _ => keeps_pure _

/-- Building from the tree of any text leaves the cursor at a boundary, at the end of a sign of this
tree, or where it was. -/
theorem keeps_document {text : List Char} (parsed : Toml.parse text = .ok t) (origin : Origin)
    (known : ∀ sign, IsSign t sign → signs sign) :
    Keeps (Standing source signs) (document source origin t) := by
  have whole := parse_isDocument parsed
  apply keeps_around
  intro before
  have lines : Keeps (Standing source signs)
      ((t.childrenOf .expression).mapM (expression source)) := by
    apply keeps_mapM
    intro u inLines
    obtain ⟨member, rule⟩ := List.mem_filter.mp inLines
    exact keeps_expression (whole.sound u member) (of_decide_eq_true rule) fun sign h =>
      known sign (h.of_child member)
  apply lines.bind
  intro expressions
  exact (keeps_remainingSpace source signs).bind fun _ => keeps_pure _

end Build

/-! ### Runs of a builder -/

namespace Builder

open Build (IsSign Standing)

variable {signs : Build.Node → Prop} {trees : List (Build.Node × Nat)} {s : Step}

/-- One more tree leaves the cursor standing. -/
theorem build_standing {t : Build.Node} {text : List Char} (b : Builder)
    (parsed : Toml.parse text = .ok t) (known : ∀ sign, IsSign t sign → signs sign)
    (firstId : Nat) (stands : Standing b.source signs b.cursor.offset) :
    Standing b.source signs (b.build t firstId).2.cursor.offset :=
  (Build.keeps_document parsed b.origin known).holds b.cursor.offset stands

theorem standing_of_mem_steps {b : Builder}
    (parsed : ∀ given ∈ trees, ∃ text, Toml.parse text = .ok given.1)
    (known : ∀ given ∈ trees, ∀ sign, IsSign given.1 sign → signs sign)
    (stands : Standing b.source signs b.cursor.offset) (member : s ∈ b.steps trees) :
    Standing b.source signs s.after := by
  induction trees generalizing b with
  | nil => cases member
  | cons given more ih =>
    obtain ⟨t, firstId⟩ := given
    obtain ⟨text, accepted⟩ := parsed (t, firstId) (List.mem_cons_self ..)
    have here := b.build_standing accepted (known (t, firstId) (List.mem_cons_self ..)) firstId stands
    rcases List.mem_cons.mp member with rfl | later
    · exact here
    · exact ih (b := (b.build t firstId).2)
        (fun given inMore => parsed given (List.mem_cons_of_mem _ inMore))
        (fun given inMore => known given (List.mem_cons_of_mem _ inMore)) here later

/-- A builder is given the trees of any texts, one after another. After each of them its cursor
stands at a boundary of the source. The only exception is a step that fails, and it leaves the
cursor at the end of an equals sign of one of the trees, where the sign starts at a boundary. -/
theorem steps_standing (b : Builder) (trees : List (Build.Node × Nat))
    (parsed : ∀ given ∈ trees, ∃ text, Toml.parse text = .ok given.1)
    (start : IsBoundary b.source b.cursor.offset) :
    ∀ s ∈ b.steps trees, s.after ≤ byteLength b.source ∧ IsBoundary b.source s.after ∨
      (∃ f, s.result = .error f) ∧ ∃ given ∈ trees, ∃ sign, IsSign given.1 sign ∧
        IsBoundary b.source sign.start ∧ s.after = sign.start + 1 := by
  intro s member
  let signs : Build.Node → Prop := fun sign => ∃ given ∈ trees, IsSign given.1 sign
  have stands : Standing b.source signs s.after :=
    standing_of_mem_steps parsed (fun given inTrees sign h => ⟨given, inTrees, h⟩) (Or.inl start)
      member
  rcases stands with boundary | ⟨sign, ⟨given, inTrees, isSign⟩, front, place⟩
  · exact Or.inl ⟨boundary.le, boundary⟩
  · cases result : s.result with
    | ok d =>
      -- a document takes the rest of the source, so the cursor is at the end of it
      have ended := ((le_before_of_mem_steps parsed member).2.builds d result).1
      rw [ended]
      exact Or.inl ⟨Nat.le_refl _, isBoundary_end b.source⟩
    | error f =>
      exact Or.inr ⟨⟨f, rfl⟩, given, inTrees, sign, isSign, front, place.trans isSign.stop⟩

/-- The tree of another text moves the cursor into a character, and the tree of the source brings it
to the end. -/
theorem steps_standing_unrelated :
    ∃ other own, Toml.parse "a=1".toList = .ok other ∧ Toml.parse "'é'=1".toList = .ok own ∧
      let b : Builder := ⟨"'é'=1".toList, { path := "", charset := "", marked := false }, {}⟩
      let trees := [(other, 1), (own, 1)]
      (b.steps trees).map (·.after) = [2, 6] ∧ IsBoundary b.source b.cursor.offset ∧
        ∀ s ∈ b.steps trees, s.after ≤ byteLength b.source ∧ IsBoundary b.source s.after ∨
          (∃ f, s.result = .error f) ∧ ∃ given ∈ trees, ∃ sign, IsSign given.1 sign ∧
            IsBoundary b.source sign.start ∧ s.after = sign.start + 1 := by
  let b : Builder := ⟨"'é'=1".toList, { path := "", charset := "", marked := false }, {}⟩
  have ran : ((document? "a=1".toList).bind fun other => (document? "'é'=1".toList).map fun own =>
      (b.steps [(other, 1), (own, 1)]).map (·.after)) = some [2, 6] := by decide +kernel
  obtain ⟨other, foundOther, ran⟩ := Option.bind_eq_some_iff.mp ran
  obtain ⟨own, foundOwn, ran⟩ := Option.map_eq_some_iff.mp ran
  have parsedOther := parse_eq_ok.mpr foundOther
  have parsedOwn := parse_eq_ok.mpr foundOwn
  have parsed : ∀ given ∈ [(other, 1), (own, 1)], ∃ text, Toml.parse text = .ok given.1 := by
    intro given member
    simp only [List.mem_cons, List.not_mem_nil, or_false] at member
    rcases member with rfl | rfl
    · exact ⟨_, parsedOther⟩
    · exact ⟨_, parsedOwn⟩
  have start : IsBoundary b.source b.cursor.offset := ⟨[], b.source, rfl, rfl⟩
  exact ⟨other, own, parsedOther, parsedOwn, ran, start, steps_standing b _ parsed start⟩

/-- An equals sign at the end of the source moves the cursor beyond it, and one in front of a longer
character moves the cursor into that character. -/
theorem steps_overrun :
    ∃ t, Toml.parse "a=1".toList = .ok t ∧
      let origin : Origin := { path := "", charset := "", marked := false }
      (∃ s ∈ Builder.steps ⟨"a".toList, origin, {}⟩ [(t, 1)], ¬ s.after ≤ byteLength "a".toList) ∧
        ∃ s ∈ Builder.steps ⟨"'é'=1".toList, origin, {}⟩ [(t, 1)],
          ¬ IsBoundary "'é'=1".toList s.after := by
  let origin : Origin := { path := "", charset := "", marked := false }
  have ran : ((document? "a=1".toList).map fun t =>
      ((Builder.steps ⟨"a".toList, origin, {}⟩ [(t, 1)]).map (·.after),
        (Builder.steps ⟨"'é'=1".toList, origin, {}⟩ [(t, 1)]).map (·.after))) =
      some ([2], [2]) := by decide +kernel
  obtain ⟨t, found, ran⟩ := Option.map_eq_some_iff.mp ran
  obtain ⟨beyond, within⟩ := Prod.mk.inj ran
  obtain ⟨s, member, after⟩ := List.mem_map.mp (beyond ▸ List.mem_singleton_self 2)
  obtain ⟨s', member', after'⟩ := List.mem_map.mp (within ▸ List.mem_singleton_self 2)
  refine ⟨t, parse_eq_ok.mpr found, ⟨s, member, ?_⟩, s', member', ?_⟩
  · rw [after]
    decide
  · rw [after', isBoundary_iff]
    decide

end Builder

end Verbatim
