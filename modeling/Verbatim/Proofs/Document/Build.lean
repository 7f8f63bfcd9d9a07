import Verbatim.Proofs.Document.Cursor
import Verbatim.Proofs.Document.Spacing
import Verbatim.Proofs.Toml.Layout

/-!
# Building from the parse tree of a text

What a node of the parse tree becomes is a relation (`ItemOf`, `LineOf`, `LinesOf`). Each builder,
run on a node that the grammar has made where it stands in the text, succeeds with what the node
becomes and leaves the cursor at the end of the node. The lines of a text follow by induction over
its layout (`yields_expressions`), and the document is built from any accepted text, whatever else
is known about it (`yields_document`).
-/

namespace Verbatim.Build

open Peg Text Toml

variable {c c' : Nat} {source before gap behind : List Char} {t n : Node} {rules : List Rule}

/-! ### Children -/

theorem child?_cons {others : List Node} (children : t.children = n :: others) (r : Rule) :
    t.child? r = if n.rule = r then some n else others.find? (·.rule = r) := by
  by_cases h : n.rule = r <;> simp [Tree.child?, children, h]

/-- One child among some rules, where all children behind it have other rules. -/
theorem filterMap_child?_eq_single {others : List Node} (children : t.children = n :: others)
    (apart : ∀ o ∈ others, o.rule ∉ rules) (member : n.rule ∈ rules) (nodup : rules.Nodup) :
    rules.filterMap t.child? = [n] := by
  have alone : ∀ r ∈ rules, n.rule ≠ r → t.child? r = none := by
    intro r known differs
    simp only [child?_cons children, if_neg differs, List.find?_eq_none, decide_eq_true_eq]
    rintro o behind rfl
    exact apart o behind known
  clear apart
  induction rules with
  | nil => cases member
  | cons r rs ih =>
    obtain ⟨fresh, nodup⟩ := List.nodup_cons.mp nodup
    by_cases h : n.rule = r
    · have found : t.child? r = some n := by rw [child?_cons children, if_pos h]
      have more : rs.filterMap t.child? = [] := by
        rw [List.filterMap_eq_nil_iff]
        intro r' known
        exact alone r' (List.mem_cons_of_mem r known) fun same => fresh (h ▸ same ▸ known)
      rw [List.filterMap_cons_some found, more]
    · have later : n.rule ∈ rs := (List.mem_cons.mp member).resolve_left h
      rw [List.filterMap_cons_none (alone r (List.mem_cons_self ..) h)]
      exact ih later nodup fun r' known => alone r' (List.mem_cons_of_mem r known)

theorem value_alternative (made : Made t) (rule : t.rule = .value) :
    ∃ n, Wraps t n ∧ valueRules.filterMap t.child? = [n] := by
  obtain ⟨n, wraps, known⟩ := made.valuePart rule
  exact ⟨n, wraps, filterMap_child?_eq_single wraps.children (by simp) known (by decide)⟩

theorem table_alternative (made : Made t) (rule : t.rule = .table) :
    ∃ n, Wraps t n ∧ [Rule.standardTable, .arrayTable].filterMap t.child? = [n] := by
  obtain ⟨n, wraps, known⟩ := made.tablePart rule
  exact ⟨n, wraps, filterMap_child?_eq_single wraps.children (by simp) known (by decide)⟩

/-- A comment is not an alternative to the content of its line. -/
theorem content_alternative (parts : LineParts t n) (known : n.rule ∈ [Rule.keyValue, .table]) :
    [Rule.keyValue, .table].filterMap t.child? = [n] := by
  cases parts with
  | plain wraps => exact filterMap_child?_eq_single wraps.children (by simp) known (by decide)
  | commented c _ parts =>
    exact filterMap_child?_eq_single parts.children (by simp [parts.rule]) known (by decide)

theorem yields_exactlyOne (found : rules.filterMap t.child? = [n]) (c : Nat) :
    Yields (exactlyOne t rules) c n c := by
  rw [exactlyOne, found]
  exact yields_pure c n

theorem yields_atMostOne (found : rules.filterMap t.child? = [n]) (c : Nat) :
    Yields (atMostOne t rules) c (some n) c := by
  rw [atMostOne, found]
  exact yields_pure c (some n)

theorem yields_required {rule : Rule} (found : t.child? rule = some n) (slot : String) (c : Nat) :
    Yields (required t rule slot) c n c := by
  rw [required, found]
  exact yields_pure c n

/-! ### Places -/

/-- A node that takes up another one stands where the other stands. -/
theorem Placed.wrapped (h : Placed source before gap t behind) (wraps : Wraps t n) :
    Placed source (before ++ gap) [] n behind := by
  constructor
  · rw [wraps.text, List.append_nil, h.split]
  · rw [wraps.start, List.append_nil, h.start]

theorem cuttable_of_sound (h : Sound t) : Cuttable t :=
  fun n within => ⟨(h n within).endsVisible, (h n within).spread⟩

/-! ### What nodes stand for -/

/-- The kind of a value and what it denotes, told by the one node inside it. -/
def classOf (n : Node) : LiteralKind × Option Hint :=
  match n.rule with
  | .string => (.string, stringHint? n)
  | .integer => (.integer, Hint.ofInteger? n.text)
  | .floatingPoint => (.float, Hint.ofFloat? n.text)
  | .boolean => (.boolean, Hint.ofBoolean? n.text)
  | .dateTime => (.dateTime, dateTimeHint? n)
  | .array => (.array, none)
  | _ => (.inlineTable, none)

/-- The kind of a value node and what it denotes. -/
def meaning? (t : Node) : Option (LiteralKind × Option Hint) := t.children.head?.map classOf

/-- The kind of a header node. -/
def headerKind? (t : Node) : Option TableKind :=
  t.children.head?.map fun h => if h.rule = .arrayTable then .array else .standard

/-- What the node of a pair or a header becomes. -/
inductive ItemOf : Node → Item → Prop where
  | pair {t k e v : Node} {g₁ g₂ : List Char} {kind : LiteralKind} {hint : Option Hint}
      (rule : t.rule = .keyValue) (parts : PairParts t k e v g₁ g₂)
      (means : meaning? v = some (kind, hint)) :
      ItemOf t (.keyValue
        { key := { name := textOf k }
          afterKey := .ofList g₁
          value := { before := .ofList g₂, source := textOf v, kind, hint } })
  | header {t : Node} {kind : TableKind} (rule : t.rule = .table)
      (means : headerKind? t = some kind) : ItemOf t (.table { kind, source := textOf t })

/-- What the node of a line of content becomes, with the text in front of it. -/
inductive LineOf (gap : List Char) : Node → Expression → Prop where
  | plain {t i : Node} {content : Item} (wraps : Wraps t i) (inside : ItemOf i content) :
      LineOf gap t { before := .ofList gap, item := some content, comment := none }
  | commented {t i c : Node} {between : List Char} {content : Item}
      (parts : CommentedParts t i c between) (inside : ItemOf i content) :
      LineOf gap t
        { before := .ofList gap
          item := some content
          comment := some { before := .ofList between, text := textOf c } }

/-- What the lines of content in a text become, and the text behind the last. -/
inductive LinesOf : Nat → List Char → List Node → List Expression → List Char → Prop where
  | last (pos : Nat) (left : List Char) : LinesOf pos left [] [] left
  | line {pos : Nat} {gap rest left : List Char} {t : Node} {ts : List Node} {e : Expression}
      {es : List Expression} (start : t.start = pos + byteLength gap) (here : LineOf gap t e)
      (more : LinesOf t.stop rest ts es left) :
      LinesOf pos (gap ++ t.text ++ rest) (t :: ts) (e :: es) left

theorem ItemOf.known {content : Item} (h : ItemOf t content) :
    t.rule ∈ [Rule.keyValue, .table] := by
  cases h with
  | pair rule => simp [rule]
  | header rule => simp [rule]

/-! ### Values, keys and headers -/

/-- Using up the one node inside another leaves the cursor at the end of both. -/
theorem yields_consume_wrapped (placed : Placed source before gap t behind) (sound : Sound t)
    (wraps : Wraps t n) : Yields (consume source n) t.start () t.stop := by
  have inside : Sound n := sound.child (by simp [wraps.children])
  have used := consume_yields n (cuttable_of_sound inside) _ _ _ (placed.wrapped wraps)
  rwa [← placed.start, wraps.stop] at used

/-- Classifying a value may use it up, and goes no further. -/
theorem yields_classify (placed : Placed source before gap t behind) (sound : Sound t)
    (wraps : Wraps t n) : ∃ c ≤ t.stop, Yields (classify source n) t.start (classOf n) c := by
  have used := yields_consume_wrapped placed sound wraps
  have ahead : t.start ≤ t.stop := Nat.le_add_right _ _
  rw [classify, classOf]
  cases n.rule
  case string | integer | floatingPoint | boolean | dateTime => exact ⟨_, ahead, yields_pure _ _⟩
  all_goals exact ⟨_, le_rfl, used.bind (yields_pure _ _)⟩

theorem yields_literal (placed : Placed source before gap t behind) (sound : Sound t)
    (rule : t.rule = .value) {kind : LiteralKind} {hint : Option Hint}
    (means : meaning? t = some (kind, hint)) : Yields (literal source t) (byteLength before)
      { before := Space.ofList gap, source := textOf t, kind, hint } t.stop := by
  obtain ⟨n, wraps, one⟩ := value_alternative sound.made rule
  obtain ⟨c, bound, classified⟩ := yields_classify placed sound wraps
  have same : classOf n = (kind, hint) := by simpa [meaning?, wraps.children] using means
  rw [same] at classified
  refine yields_around placed sound.made.endsVisible ?_ bound
  exact (yields_exactlyOne one _).bind (classified.bind (yields_pure _ _))

theorem yields_key (placed : Placed source before gap t behind) (sound : Sound t) :
    Yields (key source t) (byteLength before)
      { before := Space.ofList gap, name := textOf t } t.stop :=
  yields_around placed sound.made.endsVisible (yields_pure _ _) (Nat.le_add_right _ _)

theorem yields_comment (placed : Placed source before gap t behind) (sound : Sound t) :
    Yields (comment source t) (byteLength before)
      { before := Space.ofList gap, text := textOf t } t.stop :=
  yields_around placed sound.made.endsVisible (yields_pure _ _) (Nat.le_add_right _ _)

theorem yields_table (placed : Placed source before [] t behind) (sound : Sound t)
    (rule : t.rule = .table) {kind : TableKind} (means : headerKind? t = some kind) :
    Yields (table source t) (byteLength before) { kind, source := textOf t } t.stop := by
  obtain ⟨n, wraps, one⟩ := table_alternative sound.made rule
  have used := yields_consume_wrapped placed sound wraps
  have same : (if n.rule = .arrayTable then TableKind.array else .standard) = kind := by
    simpa [headerKind?, wraps.children] using means
  have built : Yields (table source t) (byteLength before)
      { before := Space.ofList []
        kind := if n.rule = .arrayTable then .array else .standard
        source := textOf t } t.stop :=
    yields_around placed sound.made.endsVisible
      ((yields_exactlyOne one _).bind (used.bind (yields_pure _ _))) le_rfl
  rw [same, Space.ofList_nil] at built
  exact built

/-! ### Pairs -/

section Pair

variable {k e v : Node} {g₁ g₂ : List Char}

theorem child?_equals (parts : PairParts t k e v g₁ g₂) : t.child? .equals = some e := by
  simp [child?_cons parts.children, parts.rules]

theorem child?_key (parts : PairParts t k e v g₁ g₂) : t.child? .key = some k := by
  simp [child?_cons parts.children, parts.rules]

theorem child?_value (parts : PairParts t k e v g₁ g₂) : t.child? .value = some v := by
  simp [child?_cons parts.children, parts.rules]

/-- The key of a pair stands where the pair stands. -/
theorem Placed.key (h : Placed source before [] t behind) (parts : PairParts t k e v g₁ g₂) :
    Placed source before [] k (g₁ ++ e.text ++ g₂ ++ v.text ++ behind) :=
  ⟨by simp [h.split, parts.text], by rw [parts.key_start, h.start]⟩

/-- The equals sign of a pair stands behind the key. -/
theorem Placed.equals (h : Placed source before [] t behind) (parts : PairParts t k e v g₁ g₂) :
    Placed source (before ++ k.text) g₁ e (g₂ ++ v.text ++ behind) := by
  refine ⟨by simp [h.split, parts.text], ?_⟩
  rw [parts.equals_start, h.start]
  simp only [byteLength_append, byteLength_nil]
  omega

/-- The value of a pair stands behind the equals sign. -/
theorem Placed.value (h : Placed source before [] t behind) (parts : PairParts t k e v g₁ g₂) :
    Placed source (before ++ k.text ++ g₁ ++ e.text) g₂ v behind := by
  refine ⟨by simp [h.split, parts.text], ?_⟩
  rw [parts.value_start, h.start]
  simp only [byteLength_append, byteLength_nil]
  omega

/-- Behind the space in front of an equals sign, the cursor is moved to the end of the sign. -/
theorem yields_equals_of {sign : Node} {space : Space} (found : t.child? .equals = some sign)
    (front : Yields (spaceBefore source sign.start) c space c') :
    Yields (equals source t) c space (max c' sign.stop) := by
  rw [equals, found]
  exact front.bind ((yields_advanceTo c' sign.stop).bind (yields_pure _ _))

/-- Behind the key of a pair, the cursor passes the equals sign. -/
theorem yields_equals (placed : Placed source before [] t behind)
    (parts : PairParts t k e v g₁ g₂) :
    Yields (equals source t) k.stop (Space.ofList g₁) e.stop := by
  have sign := placed.equals parts
  have split : source = before ++ k.text ++ g₁ ++ (e.text ++ (g₂ ++ v.text ++ behind)) := by
    rw [sign.split, List.append_assoc]
  have key_stop : k.stop = byteLength (before ++ k.text) := by
    rw [(placed.key parts).stop, List.append_nil]
  have front := yields_spaceBefore split
  rw [← key_stop, ← sign.start] at front
  have moved : max e.start e.stop = e.stop := Nat.max_eq_right (Nat.le_add_right _ _)
  have passed := yields_equals_of (child?_equals parts) front
  rwa [moved] at passed

theorem yields_keyValue (placed : Placed source before [] t behind) (sound : Sound t)
    (parts : PairParts t k e v g₁ g₂) {kind : LiteralKind} {hint : Option Hint}
    (means : meaning? v = some (kind, hint)) : Yields (keyValue source t) (byteLength before)
      { key := { name := textOf k }
        afterKey := .ofList g₁
        value := { before := .ofList g₂, source := textOf v, kind, hint } } t.stop := by
  have begins : t.start = byteLength before := by rw [placed.start, List.append_nil]
  have value_stop : v.stop = t.stop := by
    rw [(placed.value parts).stop, placed.stop, parts.text]
    simp
  have key_built := yields_key (placed.key parts) (sound.child (by simp [parts.children]))
  have sign_built := yields_equals placed parts
  have value_built := yields_literal (placed.value parts) (sound.child (by simp [parts.children]))
    parts.rules.2.2 means
  rw [← begins] at key_built
  rw [← (placed.equals parts).stop, value_stop] at value_built
  have built : Yields (keyValue source t) (byteLength before)
      { before := .ofList []
        key := { before := .ofList [], name := textOf k }
        afterKey := .ofList g₁
        value := { before := .ofList g₂, source := textOf v, kind, hint } } t.stop :=
    yields_around placed sound.made.endsVisible
      ((yields_required (child?_key parts) "key" _).bind (key_built.bind (sign_built.bind
        ((yields_required (child?_value parts) "value" _).bind
          (value_built.bind (yields_pure _ _)))))) le_rfl
  rw [Space.ofList_nil] at built
  exact built

end Pair

/-! ### Lines -/

theorem yields_item {i : Node} {content : Item}
    (one : [Rule.keyValue, .table].filterMap t.child? = [i]) (h : ItemOf i content)
    (placed : Placed source before [] i behind) (sound : Sound i) :
    Yields (item source t) (byteLength before) (some content) i.stop := by
  have chosen := yields_atMostOne one (byteLength before)
  refine chosen.bind ?_
  cases h with
  | pair rule parts means =>
    have pair : i.rule ≠ .table := by simp [rule]
    simp only [if_neg pair]
    exact (yields_keyValue placed sound parts means).bind (yields_pure _ _)
  | header rule means =>
    simp only [if_pos rule]
    exact (yields_table placed sound rule means).bind (yields_pure _ _)

/-- A line is built from its content and from what stands behind the content. -/
theorem yields_expression_of {content : Option Item} {note : Option Comment}
    (placed : Placed source before gap t behind) (sound : Sound t)
    (inside : Yields (item source t) t.start content c)
    (after : Yields ((t.child? .comment).mapM (comment source)) c note t.stop) :
    Yields (expression source t) (byteLength before)
      { before := Space.ofList gap, item := content, comment := note } t.stop :=
  yields_around placed sound.made.endsVisible (inside.bind (after.bind (yields_pure _ _))) le_rfl

theorem child?_comment {i : Node} {others : List Node} (children : t.children = i :: others)
    (known : i.rule ∈ [Rule.keyValue, .table]) :
    t.child? .comment = others.find? (·.rule = .comment) := by
  have differs : i.rule ≠ .comment := by
    intro same
    rw [same] at known
    revert known
    decide
  rw [child?_cons children, if_neg differs]

/-- The content of a line with a comment stands where the line stands. -/
theorem Placed.item {i c : Node} {between : List Char} (h : Placed source before gap t behind)
    (parts : CommentedParts t i c between) :
    Placed source (before ++ gap) [] i (between ++ c.text ++ behind) :=
  ⟨by simp [h.split, parts.text], by rw [parts.item_start, h.start, List.append_nil]⟩

/-- The comment of a line stands behind the content. -/
theorem Placed.comment {i c : Node} {between : List Char} (h : Placed source before gap t behind)
    (parts : CommentedParts t i c between) :
    Placed source (before ++ gap ++ i.text) between c behind := by
  refine ⟨by simp [h.split, parts.text], ?_⟩
  rw [parts.comment_start, (h.item parts).stop, List.append_nil, byteLength_append _ between]

theorem yields_expression {e : Expression} (placed : Placed source before gap t behind)
    (sound : Sound t) (h : LineOf gap t e) :
    Yields (expression source t) (byteLength before) e t.stop := by
  cases h with
  | plain wraps inside =>
    have bare : t.child? .comment = none := child?_comment wraps.children inside.known
    have one := content_alternative (.plain wraps) inside.known
    have built := yields_item one inside (placed.wrapped wraps)
      (sound.child (by simp [wraps.children]))
    have nothing : Yields ((t.child? .comment).mapM (comment source)) t.stop none t.stop := by
      rw [bare]
      exact yields_pure _ _
    rw [← placed.start, wraps.stop] at built
    exact yields_expression_of placed sound built nothing
  | @commented i c between content parts inside =>
    have behindItem : t.child? .comment = some c := by
      rw [child?_comment parts.children inside.known]
      simp [parts.rule]
    have one := content_alternative (.commented c between parts) inside.known
    have item_placed := placed.item parts
    have comment_placed := placed.comment parts
    have comment_stop : c.stop = t.stop := by
      rw [comment_placed.stop, placed.stop, parts.text]
      simp only [List.append_assoc]
    have item_stop : i.stop = byteLength (before ++ gap ++ i.text) := by
      rw [item_placed.stop, List.append_nil]
    have built := yields_item one inside item_placed (sound.child (by simp [parts.children]))
    have after := (yields_comment comment_placed (sound.child (by simp [parts.children]))).map some
    rw [← placed.start] at built
    rw [← item_stop, comment_stop, ← Option.mapM_some, ← behindItem] at after
    exact yields_expression_of placed sound built after

/-- The lines of a text are built one by one, up to the text behind the last. -/
theorem yields_expressions {text left : List Char} {ts : List Node} {es : List Expression}
    (lines : LinesOf c text ts es left) (sound : ∀ t ∈ ts, Sound t) (place : c = byteLength before)
    (split : source = before ++ text) : ∃ used, text = used ++ left ∧
      Yields (ts.mapM (expression source)) c es (byteLength (before ++ used)) := by
  induction lines generalizing before with
  | last pos left =>
    refine ⟨[], rfl, ?_⟩
    rw [List.mapM_nil, List.append_nil, ← place]
    exact yields_pure _ _
  | @line pos gap rest left t ts e es start here more ih =>
    have placed : Placed source before gap t rest :=
      ⟨by simp [split], by rw [start, place, byteLength_append]⟩
    have built := yields_expression placed (sound t (by simp)) here
    obtain ⟨used, cut, later⟩ :=
      ih (fun u member => sound u (by simp [member])) placed.stop (by simp [split])
    refine ⟨gap ++ t.text ++ used, by simp [cut], ?_⟩
    have place' : before ++ (gap ++ t.text ++ used) = before ++ gap ++ t.text ++ used := by simp
    rw [List.mapM_cons, place, place']
    exact built.bind (later.bind (yields_pure _ _))

/-! ### Documents -/

/-- A node that takes up the whole source leaves the cursor at the end of it. -/
theorem yields_around_all {α : Type} {make : Space → Build α} {a : α} (start : t.start = 0)
    (text : t.text = source) (inside : Yields (make {}) 0 a (byteLength source)) :
    Yields (around source t make) 0 a (byteLength source) := by
  have split : source = [] ++ [] ++ source := rfl
  have front := yields_spaceBefore split
  rw [around, start]
  refine front.bind (inside.bind ?_)
  cases ends : source.getLast? with
  | none =>
    simp only [Tree.last?, text, ends, Option.map_none]
    exact yields_pure _ _
  | some last =>
    have stop : t.stop = byteLength source := by rw [Tree.stop, start, text, Nat.zero_add]
    simp only [Tree.last?, text, ends, Option.map_some, stop]
    exact (yields_advancePast_end ends).bind (yields_pure _ _)

theorem childrenOf_expression {depth : Nat} {lead : List Char → Prop} {text : List Char}
    (h : Lines depth lead c text t.children) : t.childrenOf .expression = t.children := by
  have all : ∀ u ∈ t.children, u.rule = .expression := by
    generalize t.children = ts at h
    induction h with
    | last => simp
    | line _ rule _ _ _ ih => simpa [rule] using ih
  rw [Tree.childrenOf, List.filter_eq_self]
  simpa using all

/-- The document of an accepted text. -/
theorem yields_document (h : IsDocument source t) {es : List Expression} {left : List Char}
    (lines : LinesOf 0 source t.children es left) (origin : Origin) :
    Yields (document source origin t) 0
      { origin with before := {}, expressions := es, trailing := Space.ofList left }
      (byteLength source) := by
  obtain ⟨used, cut, built⟩ :=
    yields_expressions lines h.sound (show 0 = byteLength [] from rfl) rfl
  have rest := yields_remainingSpace cut
  refine yields_around_all h.start h.text ?_
  rw [childrenOf_expression h.lines]
  exact built.bind (rest.bind (yields_pure _ _))

end Verbatim.Build
