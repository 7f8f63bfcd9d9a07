import Verbatim.Document.Build
import Verbatim.Proofs.Toml.Trivia

/-!
# The shapes of nodes

What stands inside a node of each rule that a document is built from, read off the production of the
rule: a pair has a key, an equals sign and a value in this order, a value and a header have one
child that takes up the whole node, and a line of content has its pair or header in front and
perhaps a comment behind it. Between the parts stand spaces and tabs only. Every node below the
document ends in a character that is no blank (`Made.endsVisible`).
-/

namespace Verbatim.Toml

open Peg Grammar Text

variable {depth : Nat} {mode : Mode} {pos : Nat} {s : List Char} {m : Match Rule}

/-- A node as the grammar makes it. -/
abbrev Made (n : Peg.Tree Rule) : Prop := grammar.Makes production n

/-- The only node of a match: it takes up the whole match, which starts at an offset. -/
structure IsNode (m : Match Rule) (pos : Nat) (rule : Rule) (t : Peg.Tree Rule) : Prop where
  trees : m.trees = [t]
  rule : t.rule = rule
  start : t.start = pos
  text : t.text = m.text

/-! ### From nodes to matches -/

/-- What the body of a node's rule matched. -/
theorem Made.body {n : Peg.Tree Rule} (made : Made n) {kind : RuleKind} {body : Production}
    (h : production n.rule = .rule n.rule kind body) : ∃ depth mode rest,
      kind.makesNode mode = true ∧ matcher depth body (kind.inside mode) n.start (n.text ++ rest) =
        some ⟨n.text, n.children, rest⟩ := by
  obtain ⟨kind', body', depth, mode, rest, named, makes, parsed⟩ := made
  rw [h] at named
  cases named
  exact ⟨depth, mode, rest, makes, parsed⟩

/-- What the body of a plain rule matched, where rules make nodes. -/
theorem Made.plain {n : Peg.Tree Rule} (made : Made n) {body : Production}
    (h : production n.rule = .rule n.rule .plain body) : ∃ depth mode rest,
      RuleKind.plain.makesNode mode = true ∧ matcher depth body mode n.start (n.text ++ rest) =
        some ⟨n.text, n.children, rest⟩ :=
  made.body h

/-- The production of a node's rule makes the node where it stands. -/
theorem Made.whole {n : Peg.Tree Rule} (made : Made n) : ∃ depth mode rest,
    matcher depth (production n.rule) mode n.start (n.text ++ rest) = some ⟨n.text, [n], rest⟩ := by
  obtain ⟨kind, body, depth, mode, rest, named, makes, parsed⟩ := made
  refine ⟨depth, mode, rest, ?_⟩
  rw [named, matcher, Expr.parseWith_rule]
  cases n
  exact ⟨_, parsed, by rw [if_pos makes]; rfl⟩

/-- A production that is a rule makes one node. -/
theorem one_node {name : Rule} {kind : RuleKind} {body : Production}
    (h : matcher depth (.rule name kind body) mode pos s = some m)
    (makes : kind.makesNode mode = true) : ∃ t, IsNode m pos name t := by
  obtain ⟨found, matched, rfl⟩ := Expr.parseWith_rule.mp h
  rw [if_pos makes]
  exact ⟨.node name pos found.text found.trees, rfl, rfl, rfl, rfl⟩

/-- The recursive expression makes one value node. -/
theorem nested_node (h : matcher depth .nested mode pos s = some m)
    (makes : RuleKind.plain.makesNode mode = true) : ∃ t, IsNode m pos .value t := by
  cases depth with
  | zero => cases h
  | succ depth => exact one_node h makes

/-! ### Last characters -/

theorem nested_endsVisible (depth : Nat) (mode : Mode) (pos : Nat) (s : List Char)
    (m : Match Rule) (h : grammar.nestedMatcher depth mode pos s = some m) :
    EndsIn Visible m.text := by
  induction depth generalizing mode pos s m with
  | zero => cases h
  | succ depth ih =>
    have value : value.EndsIn Visible mode false := endsIn_value
    rcases Expr.text_endsIn ih value h with visible | ⟨impossible, _⟩
    · exact visible
    · cases impossible

theorem matcher_endsVisible {e : Production} (ends : e.EndsIn Visible mode false)
    (h : matcher depth e mode pos s = some m) : EndsIn Visible m.text := by
  rcases Expr.text_endsIn (nested_endsVisible depth) ends h with visible | ⟨impossible, _⟩
  · exact visible
  · cases impossible

theorem expression_endsVisible (h : matcher depth expression mode pos s = some m) :
    EndsIn Visible m.text := by
  obtain ⟨found, matched, rfl⟩ := Expr.parseWith_rule.mp h
  have visible : EndsIn Visible found.text := by
    rcases Expr.parseWith_alt.mp matched with commented | ⟨_, plain⟩
    · obtain ⟨first, second, _, behind, rfl⟩ := Expr.parseWith_seq.mp commented
      exact (comment_match behind).2.1.append
    · exact matcher_endsVisible (e := .alt keyValue table) ⟨endsIn_keyValue, endsIn_table⟩ plain
  split <;> exact visible

/-- Every node inside a document ends in a character that is no blank. -/
theorem Made.endsVisible {n : Peg.Tree Rule} (made : Made n) : EndsIn Visible n.text := by
  obtain ⟨depth, mode, rest, parsed⟩ := made.whole
  by_cases known : n.rule ∈ [.endOfInput, .document, .expression, .comment]
  · simp only [List.mem_cons, List.not_mem_nil, or_false] at known
    rcases known with landmark | whole | content | comment
    · have shape : production n.rule = .rule n.rule .landmark (.absent .any) := by
        rw [landmark]
        rfl
      obtain ⟨_, _, _, makes, _⟩ := made.body shape
      cases makes
    · obtain ⟨_, _, _, _, _, named, _, _⟩ := made
      rw [whole] at named
      cases named
    · rw [content] at parsed
      exact expression_endsVisible parsed
    · rw [comment] at parsed
      exact (comment_match parsed).2.1
  · exact matcher_endsVisible (endsIn_production known mode) parsed

/-- A node that is made by its rule, as are all nodes in it. -/
def Sound (t : Peg.Tree Rule) : Prop := ∀ n : Peg.Tree Rule, n.Within t → Made n

theorem Sound.made {t : Peg.Tree Rule} (h : Sound t) : Made t := h t (.self t)

theorem Sound.child {t c : Peg.Tree Rule} (h : Sound t) (member : c ∈ t.children) : Sound c :=
  fun _ within => h _ (.child member within)

/-! ### Parts -/

/-- The parts of a pair: a key, an equals sign and a value, with gaps between them. -/
structure PairParts (t k e v : Peg.Tree Rule) (g₁ g₂ : List Char) : Prop where
  children : t.children = [k, e, v]
  rules : k.rule = .key ∧ e.rule = .equals ∧ v.rule = .value
  sign : e.text = ['=']
  text : t.text = k.text ++ g₁ ++ e.text ++ g₂ ++ v.text
  key_start : k.start = t.start
  equals_start : e.start = t.start + byteLength (k.text ++ g₁)
  value_start : v.start = t.start + byteLength (k.text ++ g₁ ++ e.text ++ g₂)
  indents : Indents g₁ ∧ Indents g₂

theorem equals_text (h : matcher depth equals mode pos s = some m) : m.text = ['='] := by
  obtain ⟨found, sign, rfl⟩ := Expr.parseWith_rule.mp h
  obtain ⟨_, _, rfl⟩ := Expr.parseWith_word.mp sign
  split <;> rfl

theorem Made.pairParts {t : Peg.Tree Rule} (made : Made t) (h : t.rule = .keyValue) :
    ∃ k e v g₁ g₂, PairParts t k e v g₁ g₂ := by
  have shape : production t.rule = .rule t.rule .plain (.seq key (.seq equals .nested)) := by
    rw [h]
    rfl
  obtain ⟨depth, mode, rest, makes, parsed⟩ := made.plain shape
  obtain ⟨first, behindKey, keyMatch, others, joined⟩ := Expr.parseWith_seq.mp parsed
  obtain ⟨second, third, equalsMatch, valueMatch, rfl⟩ := Expr.parseWith_seq.mp others
  obtain ⟨k, key⟩ := one_node keyMatch makes
  obtain ⟨e, equals⟩ := one_node equalsMatch makes
  obtain ⟨v, value⟩ := nested_node valueMatch makes
  simp only [Match.mk.injEq] at joined
  obtain ⟨text, children, _⟩ := joined
  refine ⟨k, e, v, (skip grammar.blank mode first.rest).1, (skip grammar.blank mode second.rest).1,
    ?_⟩
  constructor
  case children => rw [children, key.trees, equals.trees, value.trees]; rfl
  case rules => exact ⟨key.rule, equals.rule, value.rule⟩
  case sign => rw [equals.text, equals_text equalsMatch]
  case text => rw [text, key.text, equals.text, value.text]; simp
  case key_start => exact key.start
  case equals_start => rw [equals.start, key.text]; simp; omega
  case value_start => rw [value.start, key.text, equals.text]; simp; omega
  case indents => exact ⟨indents_skip _ _, indents_skip _ _⟩

/-- A node over one other node that takes up all of it. -/
structure Wraps (t c : Peg.Tree Rule) : Prop where
  children : t.children = [c]
  start : c.start = t.start
  text : c.text = t.text

theorem Wraps.stop {t c : Peg.Tree Rule} (h : Wraps t c) : c.stop = t.stop := by
  simp only [Tree.stop, h.start, h.text]

/-- A body that makes one node as its only part. -/
theorem IsNode.wraps {t c : Peg.Tree Rule} {rule : Rule} {rest : List Char}
    (h : IsNode ⟨t.text, t.children, rest⟩ t.start rule c) : Wraps t c :=
  ⟨h.trees, h.start, h.text⟩

theorem Made.valuePart {t : Peg.Tree Rule} (made : Made t) (h : t.rule = .value) :
    ∃ c, Wraps t c ∧ c.rule ∈ Build.valueRules := by
  have shape : production t.rule = .rule t.rule .plain (.alt string (.alt dateTime
      (.alt floatingPoint (.alt integer (.alt boolean (.alt array inlineTable)))))) := by
    rw [h]
    rfl
  obtain ⟨depth, mode, rest, makes, parsed⟩ := made.plain shape
  simp only [matcher, Expr.parseWith_alt] at parsed
  rcases parsed with found | ⟨_, found | ⟨_, found | ⟨_, found | ⟨_, found | ⟨_, found |
    ⟨_, found⟩⟩⟩⟩⟩⟩
  all_goals
    obtain ⟨c, node⟩ := one_node found makes
    exact ⟨c, node.wraps, by rw [node.rule]; decide⟩

theorem Made.tablePart {t : Peg.Tree Rule} (made : Made t) (h : t.rule = .table) :
    ∃ c, Wraps t c ∧ c.rule ∈ [Rule.standardTable, .arrayTable] := by
  have shape : production t.rule = .rule t.rule .plain (.alt arrayTable standardTable) := by
    rw [h]
    rfl
  obtain ⟨depth, mode, rest, makes, parsed⟩ := made.plain shape
  rcases Expr.parseWith_alt.mp parsed with found | ⟨_, found⟩
  all_goals
    obtain ⟨c, node⟩ := one_node found makes
    exact ⟨c, node.wraps, by rw [node.rule]; decide⟩

/-- The parts of a line with a comment: a pair or a header, a gap, and the comment. -/
structure CommentedParts (t i c : Peg.Tree Rule) (gap : List Char) : Prop where
  children : t.children = [i, c]
  rule : c.rule = .comment
  item_start : i.start = t.start
  comment_start : c.start = i.stop + byteLength gap
  text : t.text = i.text ++ gap ++ c.text
  indents : Indents gap

/-- The parts of a line of content: a pair or a header, and perhaps a comment behind it. -/
inductive LineParts (t i : Peg.Tree Rule) : Prop where
  | plain (h : Wraps t i)
  | commented (c : Peg.Tree Rule) (gap : List Char) (h : CommentedParts t i c gap)

/-- The pair or the header of a line makes one node. -/
theorem content_node (h : matcher depth (.alt keyValue table) mode pos s = some m)
    (makes : RuleKind.plain.makesNode mode = true) :
    ∃ rule i, IsNode m pos rule i ∧ rule ∈ [Rule.keyValue, .table] := by
  rcases Expr.parseWith_alt.mp h with found | ⟨_, found⟩
  · obtain ⟨i, node⟩ := one_node found makes
    exact ⟨_, i, node, by decide⟩
  · obtain ⟨i, node⟩ := one_node found makes
    exact ⟨_, i, node, by decide⟩

theorem Made.lineParts {t : Peg.Tree Rule} (made : Made t) (h : t.rule = .expression) :
    ∃ i, i.rule ∈ [Rule.keyValue, .table] ∧ LineParts t i := by
  have shape : production t.rule = .rule t.rule .plain
      (.alt (.seq (.alt keyValue table) comment) (.alt keyValue table)) := by
    rw [h]
    rfl
  obtain ⟨depth, mode, rest, makes, parsed⟩ := made.plain shape
  rcases Expr.parseWith_alt.mp parsed with commented | ⟨_, alone⟩
  · obtain ⟨first, second, content, behind, joined⟩ := Expr.parseWith_seq.mp commented
    obtain ⟨rule, i, item, known⟩ := content_node content makes
    obtain ⟨c, comment⟩ := one_node behind makes
    simp only [Match.mk.injEq] at joined
    obtain ⟨text, children, _⟩ := joined
    refine ⟨i, item.rule ▸ known, .commented c (skip grammar.blank mode first.rest).1 ?_⟩
    constructor
    case children =>
      rw [children, item.trees, comment.trees]
      rfl
    case rule => exact comment.rule
    case item_start => exact item.start
    case comment_start => rw [comment.start, Tree.stop, item.start, item.text]
    case text => rw [text, item.text, comment.text]
    case indents => exact indents_skip _ _
  · obtain ⟨rule, i, item, known⟩ := content_node alone makes
    exact ⟨i, item.rule ▸ known, .plain item.wraps⟩

end Verbatim.Toml
