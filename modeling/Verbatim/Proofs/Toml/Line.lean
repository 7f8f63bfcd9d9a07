import Verbatim.Proofs.Toml.Layout
import Verbatim.Proofs.Toml.Values

/-!
# Lines of content, part by part

A production `Spells` a text as a tree if it matches the whole of it. What a line of content is made
of is said in these terms, without the place where the line stands and without the text behind it:
`PairText`, `IsContent`, `IsComment` and `IsLine` are the texts of pairs, of content, of comments
and of lines. What the grammar takes is such a text, and such a text is taken in front of any other
that cannot go on with it.
-/

namespace Verbatim.Toml

open Peg Grammar Text

variable {depth : Nat} {mode : Mode} {pos : Nat} {s w x y : List Char} {m : Match Rule}
  {ts : List (Peg.Tree Rule)} {t tk tv : Peg.Tree Rule} {e : Production}
  {P : List Char → Prop}

/-! ### Spelling -/

/-- A production matches the whole of a text and makes one node, which is given as it is when the
text stands at the start. -/
def Spells (e : Production) (w : List Char) (t : Peg.Tree Rule) : Prop :=
  grammar.parse e .spaced 0 w = some ⟨w, [t], []⟩

/-- Values contain values only behind some other text. -/
theorem guarded_value : grammar.nested.Guarded := by
  decide

/-- From the length of a text on, what a production makes of it depends on nothing else. -/
theorem matcher_eq_parse (e : Production) (enough : w.length ≤ depth) (pos : Nat) :
    matcher depth e .spaced pos w = (grammar.parse e .spaced 0 w).map (·.move pos) := by
  have moved := grammar.parseWith_move guarded_value rfl e le_rfl enough .spaced 0 pos
  rwa [Nat.zero_add] at moved

/-- At the start of a text nothing has to be moved. -/
theorem parse_eq_matcher (e : Production) (enough : w.length ≤ depth) :
    grammar.parse e .spaced 0 w = matcher depth e .spaced 0 w := by
  have still : (fun m : Match Rule => m.move 0) = id := by
    funext m
    rw [Match.move, Tree.moveAll_zero]
    rfl
  rw [matcher_eq_parse e enough, still, Option.map_id_fun, id]

/-- What is spelled alone is taken in front of all text that the production keeps. -/
theorem Spells.takes (h : Spells e w t) (keeps : (matcher depth e).Keeps .spaced (Both P))
    (alone : P []) (behind : P x) (enough : w.length ≤ depth) (pos : Nat) :
    (matcher depth e).Takes .spaced pos w x [t.move pos] := by
  refine keeps ⟨alone, behind⟩ ?_
  rw [Spells] at h
  rw [Matcher.Takes, List.append_nil, matcher_eq_parse e enough, h]
  rfl

/-- What is taken in front of such a text is spelled alone. -/
theorem Spells.of_takes (h : (matcher depth e).Takes .spaced pos w x [t])
    (keeps : (matcher depth e).Keeps .spaced (Both P)) (alone : P []) (behind : P x)
    (enough : w.length ≤ depth) : ∃ t₀, Spells e w t₀ ∧ t = t₀.move pos := by
  have here := keeps ⟨behind, alone⟩ h
  rw [Matcher.Takes, List.append_nil, matcher_eq_parse e enough, Option.map_eq_some_iff] at here
  obtain ⟨⟨text, trees, rest⟩, found, same⟩ := here
  simp only [Match.move, Match.mk.injEq] at same
  obtain ⟨rfl, moved, rfl⟩ := same
  cases trees with
  | nil => cases moved
  | cons t₀ others =>
    cases others with
    | nil => exact ⟨t₀, found, by simpa using moved.symm⟩
    | cons => simp at moved

/-- The node of a spelled text takes up the text. -/
theorem Spells.text {name : Rule} {kind : RuleKind} {body : Production}
    (h : Spells (.rule name kind body) w t) (makes : kind.makesNode .spaced = true) :
    t.rule = name ∧ t.start = 0 ∧ t.text = w := by
  obtain ⟨t', node⟩ := one_node h makes
  obtain rfl : t = t' := by simpa using node.trees
  exact ⟨node.rule, node.start, node.text⟩

theorem Spells.nested_text (h : Spells .nested w t) :
    t.rule = .value ∧ t.start = 0 ∧ t.text = w := by
  obtain ⟨t', node⟩ := nested_node h rfl
  obtain rfl : t = t' := by simpa using node.trees
  exact ⟨node.rule, node.start, node.text⟩

theorem takes_one_node {name : Rule} {kind : RuleKind} {body : Production}
    (h : (matcher depth (.rule name kind body)).Takes .spaced pos w x ts)
    (makes : kind.makesNode .spaced = true) : ∃ t, ts = [t] := by
  obtain ⟨t, node⟩ := one_node h makes
  exact ⟨t, node.trees⟩

/-! ### Pairs -/

/-- The parts of a pair: a key, the gaps around the equals sign, and a value. -/
structure PairText (k g₁ g₂ v : List Char) (tk tv : Peg.Tree Rule) : Prop where
  key : Spells Grammar.key k tk
  value : Spells .nested v tv
  indents : Indents g₁ ∧ Indents g₂

/-- The text of a pair. -/
def pairText (k g₁ g₂ v : List Char) : List Char := k ++ (g₁ ++ (['='] ++ (g₂ ++ v)))

/-- The node of a pair that stands at an offset. -/
def pairNode (pos : Nat) (k g₁ g₂ v : List Char) (tk tv : Peg.Tree Rule) : Peg.Tree Rule :=
  .node .keyValue pos (pairText k g₁ g₂ v)
    [tk.move pos, .node .equals (pos + byteLength k + byteLength g₁) ['='] [],
      tv.move (pos + byteLength k + byteLength g₁ + byteLength ['='] + byteLength g₂)]

/-- What is taken as a pair consists of a key and a value that are spelled alone. -/
theorem exists_pairText (h : (matcher depth keyValue).Takes .spaced pos w x ts)
    (behind : ValueEnd x) (enough : w.length ≤ depth) : ∃ k g₁ g₂ v tk tv,
      PairText k g₁ g₂ v tk tv ∧ w = pairText k g₁ g₂ v ∧ ts = [pairNode pos k g₁ g₂ v tk tv] := by
  obtain ⟨_, body, rfl⟩ := Expr.takes_rule.mp h
  obtain ⟨k, g₁, rest, _, _, rfl, rfl, cut₁, keyTaken, restTaken⟩ :=
    (Expr.takes_seq (covers depth)).mp body
  obtain ⟨sign, g₂, v, _, _, rfl, rfl, cut₂, signTaken, valueTaken⟩ :=
    (Expr.takes_seq (covers depth)).mp restTaken
  obtain ⟨_, word, rfl⟩ := Expr.takes_rule.mp signTaken
  obtain ⟨rfl, rfl⟩ := Expr.takes_word.mp word
  obtain ⟨_, rfl⟩ := takes_one_node keyTaken rfl
  obtain ⟨_, node⟩ := nested_node valueTaken rfl
  obtain rfl := node.trees
  have lengths : k.length + (g₁.length + (g₂.length + v.length + 1)) ≤ depth := by
    simpa using enough
  have blanks := indents_of_skip cut₁
  have keyEnd : KeyEnd (g₁ ++ ("=".toList ++ (g₂ ++ v) ++ x)) :=
    KeyEnd.of_cons blanks _ (Or.inl rfl)
  obtain ⟨tk, key, rfl⟩ := Spells.of_takes keyTaken keeps_key Ahead.nil keyEnd (by omega)
  obtain ⟨tv, value, rfl⟩ :=
    Spells.of_takes valueTaken (keeps_nested depth) Unjoined.nil behind.unjoined (by omega)
  exact ⟨k, g₁, g₂, v, tk, tv, ⟨key, value, blanks, indents_of_skip cut₂⟩, rfl, rfl⟩

/-- A key and a value that are spelled alone are taken as a pair. -/
theorem PairText.takes {k g₁ g₂ v : List Char} (h : PairText k g₁ g₂ v tk tv) (behind : Unjoined x)
    (enough : (pairText k g₁ g₂ v).length ≤ depth) (pos : Nat) :
    (matcher depth keyValue).Takes .spaced pos (pairText k g₁ g₂ v) x
      [pairNode pos k g₁ g₂ v tk tv] := by
  have lengths : k.length + (g₁.length + (g₂.length + v.length + 1)) ≤ depth := by
    simpa [pairText] using enough
  have keyEnd : KeyEnd (g₁ ++ (['='] ++ (g₂ ++ v) ++ x)) :=
    KeyEnd.of_cons h.indents.1 _ (Or.inl rfl)
  have keyTaken : (matcher depth Grammar.key).Takes .spaced pos k _ _ :=
    h.key.takes keeps_key Ahead.nil keyEnd (by omega) pos
  have valueTaken := h.value.takes (keeps_nested depth) Unjoined.nil behind (by omega)
    (pos + byteLength k + byteLength g₁ + byteLength ['='] + byteLength g₂)
  have cut₁ : skip grammar.blank .spaced (g₁ ++ (['='] ++ (g₂ ++ v) ++ x)) =
      (g₁, ['='] ++ (g₂ ++ v) ++ x) := by
    refine skip_indents h.indents.1 fun c first => ?_
    obtain rfl : '=' = c := Option.some.inj first
    decide
  have cut₂ : skip grammar.blank .spaced (g₂ ++ (v ++ x)) = (g₂, v ++ x) := by
    refine skip_indents h.indents.2 fun c first => ?_
    obtain ⟨d, head, opens⟩ := (nested_startsIn valueTaken).append (t := x)
    rw [show (⟨v, _, x⟩ : Match Rule).text = v from rfl, first] at head
    obtain rfl := Option.some.inj head
    exact not_isIndent_of_closesValue opens
  refine Expr.takes_rule.mpr ⟨_, (Expr.takes_seq (covers depth)).mpr
    ⟨k, g₁, ['='] ++ (g₂ ++ v), _, _, rfl, rfl, cut₁, keyTaken, (Expr.takes_seq (covers depth)).mpr
      ⟨['='], g₂, v, _, _, rfl, rfl, cut₂, Expr.takes_rule.mpr ⟨[], ?_, rfl⟩, valueTaken⟩⟩, rfl⟩
  exact Expr.takes_word.mpr ⟨rfl, rfl⟩

/-! ### Pairs and headers -/

/-- The text of a pair or a header, with the node that it becomes at each place. -/
inductive IsContent : List Char → (Nat → Peg.Tree Rule) → Prop where
  | pair {k g₁ g₂ v : List Char} {tk tv : Peg.Tree Rule} (parts : PairText k g₁ g₂ v tk tv) :
      IsContent (pairText k g₁ g₂ v) fun pos => pairNode pos k g₁ g₂ v tk tv
  | header {w : List Char} {t : Peg.Tree Rule} (spelled : Spells table w t) :
      IsContent w fun pos => t.move pos

/-- The node of content stands where the content stands and takes it up. -/
theorem IsContent.place {node : Nat → Peg.Tree Rule} (h : IsContent w node) (pos : Nat) :
    (node pos).start = pos ∧ (node pos).text = w := by
  cases h with
  | pair => exact ⟨rfl, rfl⟩
  | header spelled =>
    obtain ⟨_, start, text⟩ := spelled.text rfl
    exact ⟨by simp [start], by simp [text]⟩

/-- A pair, or else a header. -/
abbrev lineContent : Production := .alt keyValue table

variable {node : Nat → Peg.Tree Rule}

theorem exists_isContent (h : (matcher depth lineContent).Takes .spaced pos w x ts)
    (behind : ValueEnd x) (enough : w.length ≤ depth) :
    ∃ node, IsContent w node ∧ ts = [node pos] := by
  rcases Expr.takes_alt.mp h with pair | ⟨_, header⟩
  · obtain ⟨k, g₁, g₂, v, tk, tv, parts, rfl, rfl⟩ := exists_pairText pair behind enough
    exact ⟨_, .pair parts, rfl⟩
  · obtain ⟨_, rfl⟩ := takes_one_node header rfl
    obtain ⟨t, spelled, rfl⟩ :=
      Spells.of_takes (P := fun _ => True) header keeps_table trivial trivial enough
    exact ⟨_, .header spelled, rfl⟩

theorem IsContent.takes (h : IsContent w node) (behind : Unjoined x) (enough : w.length ≤ depth)
    (pos : Nat) : (matcher depth lineContent).Takes .spaced pos w x [node pos] := by
  cases h with
  | pair parts => exact Expr.takes_alt.mpr (Or.inl (parts.takes behind enough pos))
  | @header _ t spelled =>
    have taken : (matcher depth table).Takes .spaced pos w x [t.move pos] :=
      spelled.takes (P := fun _ => True) keeps_table trivial trivial enough pos
    have bracket : table.StartsIn (· = '[') := ⟨⟨'[', rfl, rfl⟩, ⟨'[', rfl, rfl⟩⟩
    obtain ⟨c, first, rfl⟩ := (Expr.text_startsIn bracket taken).append (t := x)
    have noKey : matcher depth keyValue .spaced pos (w ++ x) = none := by
      refine Expr.eq_none_of_startsIn (covers depth) keyValue_startsIn fun d same => ?_
      rw [first] at same
      obtain rfl := Option.some.inj same
      decide
    exact Expr.takes_alt.mpr (Or.inr ⟨noKey, taken⟩)

/-! ### Comments -/

/-- A comment behind content: the number sign and the rest of its line, without blanks at the
end. -/
structure IsComment (c : List Char) : Prop where
  hash : ∃ body, c = '#' :: body ∧ OneLine body
  last : EndsIn Visible c

theorem comment_node (h : (matcher depth comment).Takes mode pos w x ts)
    (makes : RuleKind.token.makesNode mode = true) : ts = [.node .comment pos w []] := by
  obtain ⟨us, body, rfl⟩ := Expr.takes_rule.mp h
  obtain ⟨_, gap, _, _, inside, _, rfl, _, hash, turns⟩ := (Expr.takes_seq (covers depth)).mp body
  obtain ⟨rfl, rfl⟩ := Expr.takes_word.mp hash
  have repeats := star_repeats (e := .seq (.absent commentBlanks) .any) rfl rfl turns
  have single := repeats.of_single (p := fun _ => true) fun pos s m front found => by
    rw [matcher, Expr.parseWith_absent_seq rfl] at found
    split at found
    · cases found
    · obtain ⟨c, rest, split, _, rfl⟩ := Expr.parseWith_char.mp found
      exact ⟨c, rest, split, rfl, rfl⟩
  have bare : inside = [] := single.1
  rw [if_pos makes, bare]
  rfl

/-- Text in a line that ends in a visible character does not lead to the end of the line. -/
theorem endsLine_eq_false {u : List Char} (inside : OneLine u) (last : EndsIn Visible u)
    (z : List Char) : endsLine (u ++ z) = false := by
  induction u with
  | nil => exact absurd rfl last.ne_nil
  | cons c u ih =>
    have notEnd := inside c (List.mem_cons_self ..)
    cases u with
    | nil =>
      obtain ⟨d, same, visible⟩ := last
      obtain rfl : c = d := by simpa using same
      simp [endsLine, notEnd, visible]
    | cons d u =>
      have later : EndsIn Visible (d :: u) := by
        obtain ⟨e, same, visible⟩ := last
        exact ⟨e, by simpa using same, visible⟩
      have more := ih (fun e member => inside e (List.mem_cons_of_mem c member)) later
      rw [List.cons_append, endsLine, notEnd, more]
      simp

/-- Where a number sign stands, there is a comment. -/
theorem isSome_comment (depth : Nat) (mode : Mode) (pos : Nat) (s : List Char) :
    (matcher depth comment mode pos ('#' :: s)).isSome = true := by
  simp [comment, Expr.all, lit, Expr.parseWith, thenMatch]

/-- A comment reaches as far as it can: up to the blanks that lead to the end of the line. -/
theorem IsComment.takes (h : IsComment w) (behind : endsLine x = true) (depth pos : Nat) :
    (matcher depth comment).Takes .spaced pos w x [.node .comment pos w []] := by
  obtain ⟨body, rfl, inside⟩ := h.hash
  obtain ⟨m, found⟩ : ∃ m, matcher depth comment .spaced pos ('#' :: body ++ x) = some m :=
    Option.isSome_iff_exists.mp (isSome_comment depth .spaced pos (body ++ x))
  have split := (matcher_covers found).split
  obtain ⟨⟨body', text, inside'⟩, last, ended⟩ := comment_match found
  have oneLine : OneLine ('#' :: body) := by simpa [OneLine, isLineEnd] using inside
  have oneLine' : OneLine m.text := by
    rw [text]
    simpa [OneLine, isLineEnd] using inside'
  -- of two ends of the comment, the text between them would lead to the end of the line
  have stuck : ∀ {u e z}, OneLine (u ++ e) → EndsIn Visible (u ++ e) → endsLine (e ++ z) = true →
      e = [] := by
    intro u e z inLine last leads
    by_contra some_text
    have apart := endsLine_eq_false (fun c member => inLine c (List.mem_append_right u member))
      (last.of_append some_text) z
    rw [leads] at apart
    cases apart
  have same : m.text = '#' :: body ∧ m.rest = x := by
    rcases List.append_eq_append_iff.mp split with ⟨e, longer, rest⟩ | ⟨e, longer, rest⟩
    · obtain rfl := stuck (longer ▸ oneLine) (longer ▸ h.last) (rest ▸ ended)
      simpa using And.intro longer.symm rest
    · obtain rfl := stuck (longer ▸ oneLine') (longer ▸ last) (rest ▸ behind)
      simpa using And.intro longer rest.symm
  have taken : (matcher depth comment).Takes .spaced pos ('#' :: body) x m.trees := by
    rw [Matcher.Takes, found, ← same.1, ← same.2]
  rw [comment_node taken rfl] at taken
  exact taken

/-! ### Lines -/

/-- A line of content that stands at an offset, and its node: a pair or a header, and perhaps a
comment behind it. -/
inductive IsLine (pos : Nat) : (commented : Bool) → List Char → Peg.Tree Rule → Prop where
  | plain {w : List Char} {node : Nat → Peg.Tree Rule} (inside : IsContent w node) :
      IsLine pos false w (.node .expression pos w [node pos])
  | commented {w gap note : List Char} {node : Nat → Peg.Tree Rule} (inside : IsContent w node)
      (indents : Indents gap) (comment : IsComment note) :
      IsLine pos true (w ++ (gap ++ note)) (.node .expression pos (w ++ (gap ++ note))
        [node pos, .node .comment (pos + byteLength w + byteLength gap) note []])

theorem IsLine.place {commented : Bool} (h : IsLine pos commented w t) :
    t.rule = .expression ∧ t.start = pos ∧ t.text = w := by
  cases h <;> exact ⟨rfl, rfl, rfl⟩

/-- What may stand behind a line of content. Behind a comment only blanks lead to the end of its
line. Without a comment there is a blank, so that no comment follows. -/
def LineEnd : (commented : Bool) → List Char → Prop
  | false, x => Ahead (isBlank · = true) x
  | true, x => endsLine x = true

/-- Blanks that do not break the line may stand in front. -/
theorem Ahead.inlineBlanks {P : Char → Prop} {blanks : List Char} (inline : InlineBlanks blanks)
    (allowed : ∀ c, isBlank c = true → P c) (h : Ahead P x) : Ahead P (blanks ++ x) := by
  induction blanks with
  | nil => exact h
  | cons c blanks ih =>
    have later := ih fun d member => inline d (List.mem_cons_of_mem c member)
    cases indent : isIndent c with
    | true =>
      have single : Indents [c] := by
        intro d member
        obtain rfl := List.mem_singleton.mp member
        exact indent
      have front : Ahead P ([c] ++ (blanks ++ x)) := Ahead.indents single later
      exact front
    | false =>
      refine Ahead.of_head? fun d first => ?_
      obtain rfl : c = d := Option.some.inj first
      exact ⟨allowed c (inline c (List.mem_cons_self ..)).1, indent⟩

/-- A line break stands in front. -/
theorem Ahead.lineBreak {P : Char → Prop} {b : List Char} (broken : IsLineBreak b)
    (allowed : ∀ c, isBlank c = true → P c) (x : List Char) : Ahead P (b ++ x) := by
  refine Ahead.of_head? fun c first => ?_
  rcases broken with rfl | rfl | rfl
  all_goals
    obtain rfl := Option.some.inj first
    exact ⟨allowed _ (by decide), by decide⟩

/-- What stands behind a separator does not belong to the line in front of it. -/
theorem lineEnd_of_separator {gap : List Char} (h : Separator gap) (commented : Bool)
    (x : List Char) : LineEnd commented (gap ++ x) := by
  obtain ⟨blanks, b, filler, rfl, inline, broken, _⟩ := h
  simp only [List.append_assoc]
  cases commented with
  | false =>
    have behind : Ahead (isBlank · = true) (b ++ (filler ++ x)) :=
      Ahead.lineBreak broken (fun _ blank => blank) _
    exact Ahead.inlineBlanks inline (fun _ blank => blank) behind
  | true =>
    rw [LineEnd, endsLine_append inline]
    rcases broken with rfl | rfl | rfl <;> simp [endsLine, isLineEnd]

theorem closes_of_hash {gap note : List Char} (indents : Indents gap) (comment : IsComment note)
    (x : List Char) : ValueEnd (gap ++ (note ++ x)) := by
  obtain ⟨body, rfl, _⟩ := comment.hash
  refine Ahead.indents indents (Ahead.of_head? fun c first => ?_)
  obtain rfl : '#' = c := Option.some.inj first
  decide

theorem IsLine.takes {commented : Bool} (h : IsLine pos commented w t)
    (behind : LineEnd commented x) (enough : w.length ≤ depth) :
    (matcher depth expression).Takes .spaced pos w x [t] := by
  cases h with
  | @plain _ node inside =>
    have ends : ValueEnd x := behind.mono fun c blank => closesValue_of_isBlank blank
    have taken := inside.takes ends.unjoined enough pos
    have noComment : matcher depth (.seq lineContent comment) .spaced pos (w ++ x) = none := by
      rw [Option.eq_none_iff_forall_ne_some]
      intro m found
      obtain ⟨first, _, matched, note, _⟩ := Expr.parseWith_seq.mp found
      obtain rfl := Option.some.inj (taken.symm.trans matched)
      have hash : comment.StartsIn (· = '#') := ⟨'#', rfl, rfl⟩
      rw [Expr.eq_none_of_startsIn (covers depth) hash] at note
      · cases note
      · rintro c first rfl
        cases behind _ first
    exact Expr.takes_rule.mpr ⟨_, Expr.takes_alt.mpr (Or.inr ⟨noComment, taken⟩), rfl⟩
  | @commented w gap note node inside indents comment =>
    have lengths : w.length ≤ depth := by
      simp only [List.length_append] at enough
      omega
    have taken := inside.takes (closes_of_hash indents comment x).unjoined lengths pos
    have noted := comment.takes behind depth (pos + byteLength w + byteLength gap)
    have cut : skip grammar.blank .spaced (gap ++ (note ++ x)) = (gap, note ++ x) := by
      obtain ⟨body, rfl, _⟩ := comment.hash
      refine skip_indents indents fun c first => ?_
      obtain rfl : '#' = c := Option.some.inj first
      decide
    exact Expr.takes_rule.mpr ⟨_, Expr.takes_alt.mpr (Or.inl ((Expr.takes_seq (covers depth)).mpr
      ⟨w, gap, note, _, _, rfl, rfl, cut, taken, noted⟩)), rfl⟩

theorem exists_isLine (h : (matcher depth expression).Takes .spaced pos w x ts)
    (behind : Ahead (fun c => isBlank c = true ∨ c = '#') x) (enough : w.length ≤ depth) :
    ∃ commented t, IsLine pos commented w t ∧ LineEnd commented x ∧ ts = [t] := by
  obtain ⟨us, body, rfl⟩ := Expr.takes_rule.mp h
  rcases Expr.takes_alt.mp body with commented | ⟨nothing, plain⟩
  · obtain ⟨c, gap, note, _, _, rfl, rfl, cut, contentTaken, noteTaken⟩ :=
      (Expr.takes_seq (covers depth)).mp commented
    obtain ⟨hash, last, ended⟩ := comment_match noteTaken
    have isComment : IsComment note := ⟨hash, last⟩
    have indents := indents_of_skip cut
    have lengths : c.length ≤ depth := by
      simp only [List.length_append] at enough
      omega
    obtain ⟨node, inside, rfl⟩ :=
      exists_isContent contentTaken (closes_of_hash indents isComment x) lengths
    obtain rfl := comment_node noteTaken rfl
    exact ⟨true, _, .commented inside indents isComment, ended, rfl⟩
  · have ends : ValueEnd x := behind.mono fun c first => by
      rcases first with blank | rfl
      · exact closesValue_of_isBlank blank
      · rfl
    obtain ⟨node, inside, rfl⟩ := exists_isContent plain ends enough
    refine ⟨false, _, .plain inside, fun c first => (behind c first).resolve_right ?_, rfl⟩
    rintro rfl
    obtain ⟨rest, split⟩ := List.head?_eq_some_iff.mp first
    obtain ⟨note, noted⟩ := Option.isSome_iff_exists.mp (isSome_comment depth .spaced
      (pos + byteLength w + byteLength (skip grammar.blank .spaced x).1) rest)
    rw [← split] at noted
    exact Option.some_ne_none _
      ((Expr.parseWith_seq.mpr ⟨_, _, plain, noted, rfl⟩).symm.trans nothing)

end Verbatim.Toml
