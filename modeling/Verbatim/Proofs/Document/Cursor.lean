import Verbatim.Document.Build
import Verbatim.Proofs.Peg.Node
import Verbatim.Proofs.Toml.Production

/-!
# What building steps do to the cursor

`Yields b c a c'` says that a step succeeds from one cursor with a result and another cursor. Each
step has one lemma of this form, for a source that is cut in front of the node and behind it, and
later modules never run a step. A node is left exactly at its end (`yields_around`): its last
character is no blank, and nothing inside moves the cursor further. That holds as well for a node
that is used up part by part, whatever it contains (`consume_yields`).
-/

namespace Verbatim.Build

open Peg Text

variable {α β : Type} {c c' c'' : Nat} {a : α} {b : β} {source before gap text behind : List Char}
  {t : Node}

/-- A step of building succeeds with a result and moves the cursor from an offset to another. -/
def Yields (step : Build α) (c : Nat) (a : α) (c' : Nat) : Prop :=
  step.run.run ⟨c⟩ = (.ok a, ⟨c'⟩)

/-! ### Single steps -/

theorem yields_pure (c : Nat) (a : α) : Yields (pure a) c a c := rfl

theorem Yields.bind {first : Build α} {next : α → Build β} (here : Yields first c a c')
    (there : Yields (next a) c' b c'') : Yields (first >>= next) c b c'' := by
  unfold Yields at *
  rw [ExceptT.run_bind, StateT.run_bind, here]
  exact there

theorem Yields.map {step : Build α} (h : Yields step c a c') (f : α → β) :
    Yields (f <$> step) c (f a) c' := by
  unfold Yields at *
  rw [ExceptT.run_map, StateT.run_map, h]
  rfl

theorem yields_get (c : Nat) : Yields (get : Build Cursor) c ⟨c⟩ c := rfl

theorem yields_advanceTo (c offset : Nat) : Yields (advanceTo offset) c () (max c offset) := rfl

/-- The space in front of an offset that the cursor has not passed. -/
theorem yields_spaceBefore (split : source = before ++ gap ++ behind) :
    Yields (spaceBefore source (byteLength (before ++ gap))) (byteLength before)
      (Space.ofList gap) (byteLength (before ++ gap)) := by
  have ahead : ¬ byteLength (before ++ gap) < byteLength before := by simp
  have cut : slice? source (byteLength before) (byteLength (before ++ gap)) = some gap := by
    rw [split, byteLength_append]
    exact slice?_append before gap behind
  have moved : max (byteLength before) (byteLength (before ++ gap)) =
      byteLength (before ++ gap) := by simp
  rw [spaceBefore]
  refine (yields_get _).bind ?_
  simp only [if_neg ahead, cut]
  refine (yields_advanceTo _ _).bind ?_
  rw [moved]
  exact yields_pure _ _

/-- The last character of a text, whose size is taken off the end of the text. -/
theorem dropBytes?_last {last : Char} (ends : text.getLast? = some last)
    (split : source = before ++ text ++ behind) :
    dropBytes? (byteLength (before ++ text) - last.utf8Size) source = some (last :: behind) ∧
      last.utf8Size ≤ byteLength (before ++ text) := by
  obtain ⟨front, rfl⟩ := List.getLast?_eq_some_iff.mp ends
  have size : byteLength (before ++ (front ++ [last])) =
      byteLength (before ++ front) + last.utf8Size := by
    simp only [byteLength_append, byteLength_cons, byteLength_nil]
    omega
  have cut : source = (before ++ front) ++ (last :: behind) := by simp [split]
  rw [size, Nat.add_sub_cancel, cut]
  exact ⟨dropBytes?_append _ _, Nat.le_add_left _ _⟩

/-- The cursor passes a last character that is no blank. -/
theorem yields_advancePast {last : Char} (ends : text.getLast? = some last)
    (visible : Visible last) (split : source = before ++ text ++ behind) (c : Nat) :
    Yields (advancePast source (byteLength (before ++ text) - last.utf8Size)) c ()
      (max c (byteLength (before ++ text))) := by
  have size : 0 < last.utf8Size := Char.utf8Size_pos last
  obtain ⟨found, inside⟩ := dropBytes?_last ends split
  have short : ¬ byteLength source ≤ byteLength (before ++ text) - last.utf8Size := by
    rw [split, byteLength_append]
    omega
  rw [advancePast, if_neg short, found]
  simp only [visible, Bool.false_eq_true, if_false, Nat.sub_add_cancel inside]
  exact yields_advanceTo _ _

/-- At the end of the source, the cursor stays. -/
theorem yields_advancePast_end {last : Char} (ends : source.getLast? = some last) :
    Yields (advancePast source (byteLength source - last.utf8Size)) (byteLength source) ()
      (byteLength source) := by
  have size : 0 < last.utf8Size := Char.utf8Size_pos last
  have split : source = [] ++ source ++ [] := by simp
  obtain ⟨found, inside⟩ := dropBytes?_last ends split
  rw [List.nil_append] at found inside
  have short : ¬ byteLength source ≤ byteLength source - last.utf8Size := by omega
  rw [advancePast, if_neg short, found]
  have stays : max (byteLength source) (if isBlank last then byteLength source - last.utf8Size
      else byteLength source - last.utf8Size + last.utf8Size) = byteLength source := by
    split <;> omega
  have moved := yields_advanceTo (byteLength source) (if isBlank last then
    byteLength source - last.utf8Size else byteLength source - last.utf8Size + last.utf8Size)
  rwa [stays] at moved

/-- All that is left behind the cursor. -/
theorem yields_remainingSpace (split : source = before ++ behind) :
    Yields (remainingSpace source) (byteLength before) (Space.ofList behind)
      (byteLength source) := by
  have cut : dropBytes? (byteLength before) source = some behind := by
    rw [split]
    exact dropBytes?_append _ _
  have moved : max (byteLength before) (byteLength source) = byteLength source := by simp [split]
  rw [remainingSpace]
  refine (yields_get _).bind ?_
  simp only [cut]
  refine (yields_advanceTo _ _).bind ?_
  rw [moved]
  exact yields_pure _ _

/-! ### Whole nodes -/

/-- A node stands in a source, with text in front of it that is cut in two. -/
structure Placed (source before gap : List Char) (t : Node) (behind : List Char) : Prop where
  split : source = before ++ gap ++ t.text ++ behind
  start : t.start = byteLength (before ++ gap)

theorem Placed.stop (h : Placed source before gap t behind) :
    t.stop = byteLength (before ++ gap ++ t.text) := by
  rw [Tree.stop, h.start, ← byteLength_append]

/-- Building from a node leaves the cursor at the end of the node, unless what is built inside moves
it further. -/
theorem yields_around (placed : Placed source before gap t behind) (visible : EndsIn Visible t.text)
    {make : Space → Build α} (inside : Yields (make (Space.ofList gap)) t.start a c')
    (bound : c' ≤ t.stop) : Yields (around source t make) (byteLength before) a t.stop := by
  obtain ⟨last, ends, notBlank⟩ := visible
  have cut : source = before ++ gap ++ (t.text ++ behind) := by
    rw [placed.split, List.append_assoc]
  have front := yields_spaceBefore cut
  rw [← placed.start] at front
  have passed := yields_advancePast ends notBlank placed.split c'
  have place : byteLength (before ++ gap ++ t.text) - last.utf8Size = t.stop - last.utf8Size := by
    rw [placed.stop]
  have moved : max c' (byteLength (before ++ gap ++ t.text)) = t.stop := by
    rw [← placed.stop]
    omega
  rw [place, moved] at passed
  rw [around]
  refine front.bind (inside.bind ?_)
  simp only [Tree.last?, ends, Option.map_some]
  exact passed.bind (yields_pure _ _)

/-- A node that can be used up part by part: the nodes in it lie in order, and end in characters
that are no blanks. -/
def Cuttable (t : Node) : Prop :=
  ∀ n : Node, n.Within t → EndsIn Visible n.text ∧ Spread n.start n.text n.children

theorem Cuttable.child {n : Node} (h : Cuttable t) (member : n ∈ t.children) : Cuttable n :=
  fun inner within => h inner (.child member within)

mutual

/-- Using up a node leaves the cursor at its end. -/
theorem consume_yields : ∀ (t : Node), Cuttable t → ∀ before gap behind,
    Placed source before gap t behind → Yields (consume source t) (byteLength before) () t.stop
  | .node rule start text children, h, before, gap, behind, placed => by
    obtain ⟨visible, spread⟩ := h _ (.self _)
    have begins : start = byteLength (before ++ gap) := placed.start
    have inside : ∀ t ∈ children, Cuttable t := fun _ member => h.child member
    obtain ⟨c, bound, all⟩ := consumeAll_yields children inside (before ++ gap) text behind
      placed.split (begins ▸ spread)
    rw [consume]
    refine yields_around placed visible ?_ (placed.stop ▸ bound)
    exact placed.start ▸ all

/-- Using up nodes that are spread over a text leaves the cursor in it. -/
theorem consumeAll_yields : ∀ (ts : List Node), (∀ t ∈ ts, Cuttable t) → ∀ before text behind,
    source = before ++ text ++ behind → Spread (byteLength before) text ts →
      ∃ c ≤ byteLength (before ++ text), Yields (consumeAll source ts) (byteLength before) () c
  | [], _, before, text, behind, _, _ => ⟨byteLength before, by simp, yields_pure _ _⟩
  | t :: ts, h, before, _, behind, split, spread => by
    cases spread with
    | @cons _ gap _ rest _ start more =>
      have placed : Placed source before gap t (rest ++ behind) :=
        ⟨by simp [split], by rw [start, byteLength_append]⟩
      have here := consume_yields t (h t (by simp)) before gap (rest ++ behind) placed
      obtain ⟨c, bound, later⟩ := consumeAll_yields ts (fun u member => h u (by simp [member]))
        (before ++ gap ++ t.text) rest behind (by simp [split]) (placed.stop ▸ more)
      rw [← placed.stop] at later
      refine ⟨c, by simpa using bound, ?_⟩
      rw [consumeAll]
      exact here.bind later

end

end Verbatim.Build
