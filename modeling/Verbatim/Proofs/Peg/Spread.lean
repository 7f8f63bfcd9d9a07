import Verbatim.Proofs.Peg.Match

/-!
# Where the nodes of a match lie

The nodes of a match are spread over the text it consumed: each starts at its own offset, has its
own text, and leaves the text before, between and behind the nodes to nobody. That every match of an
expression is like this (`parseWith_covers`) is what lets a reader of the tree cut the text again.
-/

namespace Verbatim.Peg

variable {ρ : Type} {blank : Char → Bool} {inner : Matcher ρ} {mode : Mode} {pos : Nat}
  {s : List Char} {m : Match ρ}

/-- Nodes lie one after another in a text that stands at an offset. -/
inductive Spread : Nat → List Char → List (Tree ρ) → Prop where
  | nil (pos : Nat) (gap : List Char) : Spread pos gap []
  | cons {pos : Nat} (gap : List Char) {t : Tree ρ} {rest : List Char} {ts : List (Tree ρ)}
      (start : t.start = pos + Text.byteLength gap) (more : Spread t.stop rest ts) :
      Spread pos (gap ++ t.text ++ rest) (t :: ts)

namespace Spread

/-- One node that takes up a whole text. -/
theorem single (t : Tree ρ) : Spread t.start t.text [t] := by
  have alone : Spread t.start ([] ++ t.text ++ []) [t] := .cons [] rfl (.nil t.stop [])
  simpa using alone

theorem after_gap {gap text : List Char} {ts : List (Tree ρ)}
    (h : Spread (pos + Text.byteLength gap) text ts) : Spread pos (gap ++ text) ts := by
  cases h with
  | nil => exact .nil _ _
  | @cons _ inside t rest ts start more =>
    have moved : Spread pos (gap ++ inside ++ t.text ++ rest) (t :: ts) :=
      .cons (gap ++ inside) (by simp [start, Nat.add_assoc]) more
    simpa only [List.append_assoc] using moved

theorem append {u v : List Char} {ts us : List (Tree ρ)} (left : Spread pos u ts)
    (right : Spread (pos + Text.byteLength u) v us) : Spread pos (u ++ v) (ts ++ us) := by
  induction left with
  | nil pos gap => exact right.after_gap
  | @cons pos gap t rest ts start more ih =>
    have next : t.stop + Text.byteLength rest =
        pos + Text.byteLength (gap ++ t.text ++ rest) := by
      simp only [Tree.stop, start, Text.byteLength_append]
      omega
    rw [← next] at right
    have joined := Spread.cons gap start (ih right)
    simpa only [List.append_assoc, List.cons_append] using joined

/-- One of the nodes, with the text in front of it and behind it. -/
theorem exists_split {text : List Char} {ts : List (Tree ρ)} {t : Tree ρ}
    (h : Spread pos text ts) (member : t ∈ ts) :
    ∃ before behind, text = before ++ t.text ++ behind ∧
      t.start = pos + Text.byteLength before := by
  induction h with
  | nil => cases member
  | @cons pos gap u rest us start more ih =>
    rcases List.mem_cons.mp member with rfl | later
    · exact ⟨gap, rest, rfl, start⟩
    · obtain ⟨before, behind, rfl, place⟩ := ih later
      refine ⟨gap ++ u.text ++ before, behind, by simp, ?_⟩
      rw [place, Tree.stop, start]
      simp only [Text.byteLength_append]
      omega

/-- No node starts before the one in front of it has ended. -/
theorem ordered {text : List Char} {ts : List (Tree ρ)} (h : Spread pos text ts) :
    ts.Pairwise fun a b => a.stop ≤ b.start := by
  induction h with
  | nil => exact .nil
  | @cons pos gap t rest ts start more ih =>
    refine .cons (fun u later => ?_) ih
    obtain ⟨before, _, _, place⟩ := more.exists_split later
    omega

end Spread

/-- A match splits the text it was given, and its nodes are spread over the consumed part. -/
structure Match.Covers (m : Match ρ) (pos : Nat) (s : List Char) : Prop where
  /-- Nothing of the text is lost. -/
  split : m.text ++ m.rest = s
  /-- The nodes lie in the consumed part. -/
  spread : Spread pos m.text m.trees

namespace Match.Covers

theorem empty (pos : Nat) (s : List Char) : (Match.empty s : Match ρ).Covers pos s :=
  ⟨rfl, .nil pos []⟩

/-- One match behind another, with a gap between them that has no nodes. -/
theorem join {first second : Match ρ} (gap : List Char) {s' : List Char} (left : first.Covers pos s)
    (split : gap ++ s' = first.rest)
    (right : second.Covers (pos + Text.byteLength first.text + Text.byteLength gap) s') :
    (⟨first.text ++ gap ++ second.text, first.trees ++ second.trees, second.rest⟩ :
      Match ρ).Covers pos s := by
  constructor
  · rw [← left.split, ← split, ← right.split]
    simp only [List.append_assoc]
  · have behind := left.spread.append right.spread.after_gap
    simpa only [List.append_assoc] using behind

end Match.Covers

/-- What every match of a matcher in one mode is like. -/
def Matcher.CoversIn (a : Matcher ρ) (mode : Mode) : Prop :=
  ∀ pos s m, a mode pos s = some m → m.Covers pos s

theorem repeatMatch_covers (blank : Char → Bool) {a : Matcher ρ} (part : a.CoversIn mode)
    (bound pos : Nat) (s : List Char) : (repeatMatch blank a mode bound pos s).Covers pos s := by
  induction bound generalizing pos s with
  | zero => exact .empty pos s
  | succ bound ih =>
    simp only [repeatMatch]
    split
    · exact .empty pos s
    next here found =>
      have gap : (⟨(skip blank mode s).1, [], (skip blank mode s).2⟩ : Match ρ).Covers pos s :=
        ⟨skip_append blank mode s, .nil _ _⟩
      have once := gap.join [] rfl (by simpa using part _ _ _ found)
      have more := once.join [] rfl (by
        simpa [Nat.add_assoc] using ih (pos + Text.byteLength (skip blank mode s).1 +
          Text.byteLength here.text) here.rest)
      simpa [Nat.add_assoc] using more

theorem starMatch_covers {a : Matcher ρ} (part : a.CoversIn mode) (pos : Nat) (s : List Char) :
    (starMatch blank a mode pos s).Covers pos s := by
  simp only [starMatch]
  split
  · exact .empty pos s
  next here found =>
    have more := (part _ _ _ found).join [] rfl (by
      simpa using repeatMatch_covers blank part s.length
        (pos + Text.byteLength here.text) here.rest)
    simpa using more

/-- Every match of an expression covers its text, if every match of the recursive one does. -/
theorem Expr.parseWith_covers (recursive : ∀ mode, inner.CoversIn mode) (e : Expr ρ) (mode : Mode) :
    Matcher.CoversIn (e.parseWith blank inner) mode := by
  induction e generalizing mode with
  | char member =>
    intro pos s m h
    obtain ⟨c, rest, rfl, _, rfl⟩ := parseWith_char.mp h
    exact ⟨rfl, .nil _ _⟩
  | word text =>
    intro pos s m h
    obtain ⟨rest, rfl, rfl⟩ := parseWith_word.mp h
    exact ⟨rfl, .nil _ _⟩
  | seq a b left right =>
    intro pos s m h
    obtain ⟨first, second, matched, followed, rfl⟩ := parseWith_seq.mp h
    exact (left mode _ _ _ matched).join _ (skip_append blank mode _) (right mode _ _ _ followed)
  | alt a b left right =>
    intro pos s m h
    obtain found | ⟨_, found⟩ := parseWith_alt.mp h
    · exact left mode _ _ _ found
    · exact right mode _ _ _ found
  | opt a part =>
    intro pos s m h
    obtain found | ⟨_, rfl⟩ := parseWith_opt.mp h
    · exact part mode _ _ _ found
    · exact .empty pos s
  | star a part =>
    intro pos s m h
    rw [parseWith_star] at h
    subst h
    exact starMatch_covers (part mode) pos s
  | absent a _ =>
    intro pos s m h
    obtain ⟨_, rfl⟩ := parseWith_absent.mp h
    exact .empty pos s
  | rule name kind body inside =>
    intro pos s m h
    obtain ⟨found, matched, rfl⟩ := parseWith_rule.mp h
    have covers := inside _ _ _ _ matched
    split
    · exact ⟨covers.split, .single (.node name pos found.text found.trees)⟩
    · exact covers
  | nested => exact recursive mode

theorem Grammar.nestedMatcher_covers (g : Grammar ρ) (depth : Nat) (mode : Mode) :
    (g.nestedMatcher depth).CoversIn mode := by
  induction depth generalizing mode with
  | zero =>
    intro pos s m h
    cases h
  | succ depth ih => exact Expr.parseWith_covers ih g.nested mode

end Verbatim.Peg
