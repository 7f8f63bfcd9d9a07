import Verbatim.Proofs.Document.Legible
import Verbatim.Proofs.Text.Slices
import Verbatim.Proofs.Toml.Trimmed

/-!
# Nodes that are used up part by part

Arrays, inline tables and headers have no parts that are kept. The builder goes through them all the
same, however deep they are nested. From any place in front of a node this ends exactly at the end
of the node (`consume_exact`), so the cursor never gets further than the step behind the traversal
takes it in any case: `documentWith` builds a document with another traversal, or with none, and
without one nothing changes (`Builder.traversal_exact`).
-/

namespace Verbatim

open Peg Text Toml

variable {t n parent : Build.Node} {source before gap behind text left : List Char} {c c' : Nat}

/-! ### From any place in front of a node -/

/-- Below the document, every node is sound. -/
theorem Toml.IsDocument.sound_child (h : IsDocument source t) (inside : parent.Within t)
    (member : n ∈ parent.children) : Sound n := by
  intro m within
  induction within generalizing parent with
  | self => exact h.made_child inside member
  | child deeper _ ih => exact ih (inside.of_parent member) deeper

namespace Build

/-- Using up a node below the document leaves the cursor at its end, from wherever it starts in
front of the node. -/
theorem consume_exact (parsed : Toml.parse source = .ok t) (inside : parent.Within t)
    (member : n ∈ parent.children) (place : IsBoundary source c) (ahead : c ≤ n.start) :
    Yields (consume source n) c () n.stop := by
  have whole := parse_isDocument parsed
  have sound := whole.sound_child inside member
  obtain ⟨front, back, split, start⟩ :=
    whole.standsIn.within (inside.of_parent member) fun _ within => whole.spread within
  rw [List.append_assoc] at split
  obtain ⟨u, gap, rfl, rfl⟩ := place.exists_gap split (start ▸ ahead)
  exact consume_yields n (cuttable_of_sound sound) u gap back ⟨by simp [split], start⟩

/-! ### Builders with another traversal -/

section With

variable (source : List Char) (traverse : Node → Build Unit)

/-- As `classify`, with a traversal for arrays and inline tables. -/
def classifyWith (t : Node) : Build (LiteralKind × Option Hint) :=
  match t.rule with
  | .string => return (.string, stringHint? t)
  | .integer => return (.integer, Hint.ofInteger? t.text)
  | .floatingPoint => return (.float, Hint.ofFloat? t.text)
  | .boolean => return (.boolean, Hint.ofBoolean? t.text)
  | .dateTime => return (.dateTime, dateTimeHint? t)
  | .array => do
    traverse t
    return (.array, none)
  | _ => do
    traverse t
    return (.inlineTable, none)

/-- As `literal`, with a traversal for arrays and inline tables. -/
def literalWith (t : Node) : Build Literal :=
  around source t fun before => do
    let (kind, hint) ← classifyWith traverse (← exactlyOne t valueRules)
    return { before, source := textOf t, kind, hint }

/-- As `keyValue`, with a traversal for the value. -/
def keyValueWith (t : Node) : Build KeyValue :=
  around source t fun before => do
    let key ← key source (← required t .key "key")
    let afterKey ← equals source t
    let value ← literalWith source traverse (← required t .value "value")
    return { before, key, afterKey, value }

/-- As `table`, with a traversal for the header. -/
def tableWith (t : Node) : Build Table :=
  around source t fun before => do
    let header ← exactlyOne t [.standardTable, .arrayTable]
    traverse header
    let kind := if header.rule = .arrayTable then TableKind.array else .standard
    return { before, kind, source := textOf t }

/-- As `item`, with a traversal for values and headers. -/
def itemWith (t : Node) : Build (Option Item) := do
  match ← atMostOne t [.keyValue, .table] with
  | none => return none
  | some content =>
    if content.rule = .table then return some (.table (← tableWith source traverse content))
    else return some (.keyValue (← keyValueWith source traverse content))

/-- As `expression`, with a traversal for values and headers. -/
def expressionWith (t : Node) : Build Expression :=
  around source t fun before => do
    let item ← itemWith source traverse t
    let comment ← (t.child? .comment).mapM (comment source)
    return { before, item, comment }

/-- As `document`, with a traversal for values and headers. -/
def documentWith (origin : Origin) (t : Node) : Build Document :=
  around source t fun before => do
    let expressions ← (t.childrenOf .expression).mapM (expressionWith source traverse)
    let trailing ← remainingSpace source
    return { origin with before, expressions, trailing }

end With

/-- The builder's own traversal goes through all parts. -/
theorem documentWith_consume (source : List Char) (origin : Origin) (t : Node) :
    documentWith source (consume source) origin t = document source origin t := rfl

/-- A traversal stays inside the nodes that it is given: it succeeds from the start of a node, and
does not move the cursor beyond the end of the node. -/
def StaysInside (source : List Char) (traverse : Node → Build Unit) : Prop :=
  ∀ n before behind, Sound n → Placed source before [] n behind →
    ∃ c ≤ n.stop, Yields (traverse n) n.start () c

/-- A traversal that does nothing stays where it is. -/
theorem pass_staysInside (source : List Char) : StaysInside source fun _ => pure () :=
  fun n _ _ _ _ => ⟨n.start, Nat.le_add_right _ _, yields_pure _ _⟩

/-! ### Steps that run alike -/

section Alike

variable {α β : Type} {first first' : Build α} {next next' : α → Build β} {a : α}

/-- Two steps give the same result from a cursor, and leave the cursor at the same offset. -/
def RunsAlike (step step' : Build α) (c : Nat) : Prop := step.run.run ⟨c⟩ = step'.run.run ⟨c⟩

theorem RunsAlike.trans {second : Build α} (h : RunsAlike first first' c)
    (h' : RunsAlike first' second c) : RunsAlike first second c := Eq.trans h h'

theorem Yields.alike (h : Yields first c a c') (h' : Yields first' c a c') :
    RunsAlike first first' c := Eq.trans h h'.symm

/-- The same steps behind steps that run alike. -/
theorem RunsAlike.bind (h : RunsAlike first first' c) (next : α → Build β) :
    RunsAlike (first >>= next) (first' >>= next) c := by
  unfold RunsAlike at *
  rw [ExceptT.run_bind, StateT.run_bind, h]
  rfl

/-- Steps that run alike behind the same step. -/
theorem Yields.bind_alike (here : Yields first c a c') (there : RunsAlike (next a) (next' a) c') :
    RunsAlike (first >>= next) (first >>= next') c := by
  unfold RunsAlike Yields at *
  rw [ExceptT.run_bind, StateT.run_bind, ExceptT.run_bind, StateT.run_bind, here]
  exact there

theorem runsAlike_around {make make' : Space → Build α} (placed : Placed source before gap t behind)
    (inside : RunsAlike (make (Space.ofList gap)) (make' (Space.ofList gap)) t.start) :
    RunsAlike (around source t make) (around source t make') (byteLength before) := by
  have cut : source = before ++ gap ++ (t.text ++ behind) := by
    rw [placed.split, List.append_assoc]
  have front := yields_spaceBefore cut
  rw [← placed.start] at front
  exact front.bind_alike (inside.bind _)

end Alike

/-! ### The same document without the traversal -/

section Without

variable {traverse : Node → Build Unit} {k e v : Node} {g₁ g₂ : List Char}

theorem yields_classifyWith (stays : StaysInside source traverse)
    (placed : Placed source before gap t behind) (sound : Sound t) (wraps : Wraps t n) :
    ∃ c ≤ t.stop, Yields (classifyWith traverse n) t.start (classOf n) c := by
  have inside : Sound n := sound.child (by simp [wraps.children])
  obtain ⟨c, bound, used⟩ := stays n _ _ inside (placed.wrapped wraps)
  rw [wraps.stop] at bound
  rw [wraps.start] at used
  have ahead : t.start ≤ t.stop := Nat.le_add_right _ _
  rw [classifyWith, classOf]
  cases n.rule
  case string | integer | floatingPoint | boolean | dateTime => exact ⟨_, ahead, yields_pure _ _⟩
  all_goals exact ⟨c, bound, used.bind (yields_pure _ _)⟩

/-- A value is what it is without the traversal of its parts, and the cursor ends behind it. -/
theorem runsAlike_literal (stays : StaysInside source traverse)
    (placed : Placed source before gap t behind) (sound : Sound t) (rule : t.rule = .value) :
    RunsAlike (literal source t) (literalWith source traverse t) (byteLength before) := by
  obtain ⟨n, wraps, one⟩ := value_alternative sound.made rule
  have means : meaning? t = some ((classOf n).1, (classOf n).2) := by
    simp [meaning?, wraps.children]
  obtain ⟨c, bound, classified⟩ := yields_classifyWith stays placed sound wraps
  apply (yields_literal placed sound rule means).alike
  refine yields_around placed sound.made.endsVisible ?_ bound
  exact (yields_exactlyOne one _).bind (classified.bind (yields_pure _ _))

theorem runsAlike_keyValue (stays : StaysInside source traverse)
    (placed : Placed source before [] t behind) (sound : Sound t)
    (parts : PairParts t k e v g₁ g₂) :
    RunsAlike (keyValue source t) (keyValueWith source traverse t) (byteLength before) := by
  have begins : t.start = byteLength before := by rw [placed.start, List.append_nil]
  have value : Sound v := sound.child (by simp [parts.children])
  have key_built := yields_key (placed.key parts) (sound.child (by simp [parts.children]))
  have sign_built := yields_equals placed parts
  have values := runsAlike_literal stays (placed.value parts) value parts.rules.2.2
  rw [← begins] at key_built
  rw [← (placed.equals parts).stop] at values
  apply runsAlike_around placed
  apply (yields_required (child?_key parts) "key" _).bind_alike
  apply key_built.bind_alike
  apply sign_built.bind_alike
  apply (yields_required (child?_value parts) "value" _).bind_alike
  exact values.bind _

theorem runsAlike_table (stays : StaysInside source traverse)
    (placed : Placed source before [] t behind) (sound : Sound t) (rule : t.rule = .table) :
    RunsAlike (table source t) (tableWith source traverse t) (byteLength before) := by
  obtain ⟨n, wraps, one⟩ := table_alternative sound.made rule
  have inside : Sound n := sound.child (by simp [wraps.children])
  have used := yields_consume_wrapped placed sound wraps
  obtain ⟨c, bound, passed⟩ := stays n _ _ inside (placed.wrapped wraps)
  rw [wraps.stop] at bound
  rw [wraps.start] at passed
  have visible := sound.made.endsVisible
  apply Yields.alike
  · exact yields_around placed visible
      ((yields_exactlyOne one _).bind (used.bind (yields_pure _ _))) le_rfl
  · exact yields_around placed visible
      ((yields_exactlyOne one _).bind (passed.bind (yields_pure _ _))) bound

theorem runsAlike_item {i : Node} {content : Item} (stays : StaysInside source traverse)
    (one : [Rule.keyValue, .table].filterMap t.child? = [i]) (h : ItemOf i content)
    (placed : Placed source before [] i behind) (sound : Sound i) :
    RunsAlike (item source t) (itemWith source traverse t) (byteLength before) := by
  apply (yields_atMostOne one _).bind_alike
  cases h with
  | pair rule parts means =>
    have pair : i.rule ≠ .table := by simp [rule]
    simp only [if_neg pair]
    exact (runsAlike_keyValue stays placed sound parts).bind _
  | header rule means =>
    simp only [if_pos rule]
    exact (runsAlike_table stays placed sound rule).bind _

theorem runsAlike_expression {e : Expression} (stays : StaysInside source traverse)
    (placed : Placed source before gap t behind) (sound : Sound t) (h : LineOf gap t e) :
    RunsAlike (expression source t) (expressionWith source traverse t) (byteLength before) := by
  apply runsAlike_around placed
  rw [placed.start]
  cases h with
  | plain wraps inside =>
    have one := content_alternative (.plain wraps) inside.known
    have item := runsAlike_item stays one inside (placed.wrapped wraps)
      (sound.child (by simp [wraps.children]))
    exact item.bind _
  | @commented i c between content parts inside =>
    have one := content_alternative (.commented c between parts) inside.known
    have item := runsAlike_item stays one inside (placed.item parts)
      (sound.child (by simp [parts.children]))
    exact item.bind _

/-- The lines of a text, where the lines in front are built alike. -/
theorem runsAlike_expressions {ts : List Node} {es : List Expression}
    (stays : StaysInside source traverse) (lines : LinesOf c text ts es left)
    (sound : ∀ t ∈ ts, Sound t) (place : c = byteLength before) (split : source = before ++ text) :
    RunsAlike (ts.mapM (expression source)) (ts.mapM (expressionWith source traverse)) c := by
  induction lines generalizing before with
  | last pos left =>
    rw [List.mapM_nil, List.mapM_nil]
    rfl
  | @line pos gap rest left t ts e es start here more ih =>
    have placed : Placed source before gap t rest :=
      ⟨by simp [split], by rw [start, place, byteLength_append]⟩
    have inside := sound t (List.mem_cons_self ..)
    have alike := runsAlike_expression stays placed inside here
    have later := ih (fun u member => sound u (List.mem_cons_of_mem t member)) placed.stop
      (by simp [split])
    rw [List.mapM_cons, List.mapM_cons, place]
    exact ((yields_expression placed inside here).bind_alike (later.bind _)).trans (alike.bind _)

theorem runsAlike_document (parsed : Toml.parse source = .ok t)
    (stays : StaysInside source traverse) (origin : Origin) :
    RunsAlike (document source origin t) (documentWith source traverse origin t) 0 := by
  have whole := parse_isDocument parsed
  have placed : Placed source [] [] t [] := ⟨by simp [whole.text], whole.start⟩
  obtain ⟨es, left, lines, _⟩ := exists_legible whole.lines whole.sound le_rfl
    (show Filler = Before none from rfl) whole.bare
  have expressions := runsAlike_expressions stays lines whole.sound
    (show 0 = byteLength [] from rfl) rfl
  apply runsAlike_around placed
  rw [childrenOf_expression whole.lines, whole.start]
  exact expressions.bind _

end Without

end Build

/-- As `Builder.build`, with a traversal for values and headers. -/
def Builder.buildWith (traverse : Build.Node → Build Unit) (b : Builder) (t : Build.Node)
    (firstId : Nat) : Except BuildFault Document × Builder :=
  let (result, cursor) := (Build.documentWith b.source traverse b.origin t).run.run b.cursor
  (result.map (·.number firstId), { b with cursor })

theorem Builder.buildWith_eq {traverse : Build.Node → Build Unit} {b : Builder} {t : Build.Node}
    {firstId : Nat} (alike : Build.RunsAlike (Build.document b.source b.origin t)
      (Build.documentWith b.source traverse b.origin t) b.cursor.offset) :
    b.buildWith traverse t firstId = b.build t firstId := by
  have same : (Build.documentWith b.source traverse b.origin t).run.run b.cursor =
      (Build.document b.source b.origin t).run.run b.cursor := alike.symm
  rw [buildWith, same]
  rfl

/-- From any place in front of a node below the document, going through the node ends exactly at the
end of the node. The builder gives the same document and the same cursor whether it goes through
arrays, inline tables and headers or not. -/
theorem Builder.traversal_exact (source : List Char) (t : Build.Node)
    (parsed : Toml.parse source = .ok t) :
    (∀ parent n : Build.Node, parent.Within t → n ∈ parent.children →
      ∀ c, IsBoundary source c → c ≤ n.start →
        Build.Yields (Build.consume source n) c () n.stop) ∧
      ∀ origin firstId, let b : Builder := ⟨source, origin, {}⟩
        b.buildWith (Build.consume source) t firstId = b.build t firstId ∧
          b.buildWith (fun _ => pure ()) t firstId = b.build t firstId := by
  constructor
  · intro parent n inside member c place ahead
    exact Build.consume_exact parsed inside member place ahead
  · intro origin firstId b
    constructor
    · apply buildWith_eq
      rw [Build.documentWith_consume]
      rfl
    · exact buildWith_eq (Build.runsAlike_document parsed (Build.pass_staysInside source) origin)

/-- A line with an array in an inline table, from the start of the text on. -/
theorem Builder.traversal_exact_nested :
    ∃ t n, Toml.parse " x = { a = [1, [2]] } # c\n[t . u]".toList = .ok t ∧ n ∈ t.children ∧
      n.start = 1 ∧
      Build.Yields (Build.consume " x = { a = [1, [2]] } # c\n[t . u]".toList n) 0 () 25 ∧
      ∀ origin firstId,
        let b : Builder := ⟨" x = { a = [1, [2]] } # c\n[t . u]".toList, origin, {}⟩
        b.buildWith (fun _ => pure ()) t firstId = b.build t firstId := by
  have found : (document? " x = { a = [1, [2]] } # c\n[t . u]".toList).map
      (fun t => t.children.map fun n => (n.start, n.stop)) = some [(1, 25), (26, 33)] := by
    decide +kernel
  obtain ⟨t, accepted, children⟩ := Option.map_eq_some_iff.mp found
  obtain ⟨n, _, split, place, _⟩ := List.map_eq_cons_iff.mp children
  obtain ⟨start, stop⟩ := Prod.mk.inj place
  have parsed := parse_eq_ok.mpr accepted
  have member : n ∈ t.children := by
    rw [split]
    exact List.mem_cons_self ..
  obtain ⟨ends, same⟩ := traversal_exact _ t parsed
  have passed := ends t n (.self t) member 0 ⟨[], _, rfl, rfl⟩ (Nat.zero_le _)
  rw [stop] at passed
  exact ⟨t, n, parsed, member, start, passed, fun origin firstId => (same origin firstId).2⟩

end Verbatim
