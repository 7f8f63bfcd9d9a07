import Verbatim.Proofs.Document.Progress

/-!
# One builder for several trees

A builder keeps its cursor between two trees, also after a fault. Whatever trees it is given, the
cursor only moves on, a fault is one of the cursor, and a document that is built takes the rest of
the source (`Builder.build_orderly` for one tree, `Builder.steps_orderly` for any number of them).
So no byte of the source is in two documents.
-/

namespace Verbatim

open Text

/-- What becomes of one tree that is given to a builder: the cursor before, the result, and the
cursor afterwards. -/
structure Builder.Step where
  before : Nat
  result : Except BuildFault Document
  after : Nat

/-- A builder is given trees one after another, each with the first identity for its document. -/
def Builder.steps (b : Builder) : List (Build.Node × Nat) → List Builder.Step
  | [] => []
  | (t, firstId) :: more =>
    ⟨b.cursor.offset, (b.build t firstId).1, (b.build t firstId).2.cursor.offset⟩ ::
      (b.build t firstId).2.steps more

namespace Builder

/-- The cursor moves on, and either a fault of the cursor is met or a document takes the rest of the
source: its spaces, in the order in which they are printed, are slices from the old cursor to the
end. -/
structure Step.Orderly (source : List Char) (s : Step) : Prop where
  onward : s.before ≤ s.after
  fails : ∀ f, s.result = .error f → f.OfCursor
  builds : ∀ d, s.result = .ok d → s.after = byteLength source ∧
    Slices source s.before (Piece.spaces d.pieces) (byteLength source)

variable {b : Builder} {t : Build.Node} {text : List Char} {trees : List (Build.Node × Nat)}

theorem build_orderly (b : Builder) (parsed : Toml.parse text = .ok t) (firstId : Nat) :
    Step.Orderly b.source
      ⟨b.cursor.offset, (b.build t firstId).1, (b.build t firstId).2.cursor.offset⟩ := by
  have ends : Build.Ends (Build.document b.source b.origin t) b.cursor.offset _ :=
    Build.ends_document parsed b.origin b.cursor.offset
  cases ends with
  | @yields d c' result onward holds =>
    obtain ⟨ended, slices⟩ := holds
    have built : b.build t firstId = (.ok (d.number firstId), { b with cursor := ⟨c'⟩ }) := by
      rw [build, result]
      rfl
    rw [built]
    constructor
    case onward => exact onward
    case fails =>
      intro f failed
      cases failed
    case builds =>
      intro d' same
      obtain rfl := Except.ok.inj same
      rw [Document.pieces_number]
      exact ⟨ended, slices⟩
  | @fails f c' result onward fault =>
    have failed : b.build t firstId = (.error f, { b with cursor := ⟨c'⟩ }) := by
      rw [build, result]
      rfl
    rw [failed]
    constructor
    case onward => exact onward
    case fails =>
      intro f' same
      obtain rfl := Except.error.inj same
      exact fault
    case builds =>
      intro d built
      cases built

/-- No tree that is given to a builder finds the cursor in front of the place where it was at the
start. -/
theorem le_before_of_mem_steps {s : Step}
    (parsed : ∀ given ∈ trees, ∃ text, Toml.parse text = .ok given.1) (member : s ∈ b.steps trees) :
    b.cursor.offset ≤ s.before ∧ s.Orderly b.source := by
  induction trees generalizing b with
  | nil => cases member
  | cons given more ih =>
    obtain ⟨t, firstId⟩ := given
    obtain ⟨text, accepted⟩ := parsed (t, firstId) (List.mem_cons_self ..)
    have here := b.build_orderly accepted firstId
    rcases List.mem_cons.mp member with rfl | later
    · exact ⟨Nat.le_refl _, here⟩
    · have others := fun given inMore => parsed given (List.mem_cons_of_mem _ inMore)
      obtain ⟨ahead, orderly⟩ := ih others later
      exact ⟨Nat.le_trans here.onward ahead, orderly⟩

/-- Behind a document that was built, all spaces of a later document are empty. -/
theorem Step.Orderly.eq_nil_of_built {source : List Char} {s s' : Step} (h : s.Orderly source)
    (h' : s'.Orderly source) (ahead : s.after ≤ s'.before) {d d' : Document}
    (built : s.result = .ok d) (built' : s'.result = .ok d') :
    ∀ text ∈ Piece.spaces d'.pieces, text = [] := by
  obtain ⟨ended, _⟩ := h.builds d built
  obtain ⟨_, slices⟩ := h'.builds d' built'
  apply slices.eq_nil
  omega

/-- A builder is given the trees of any texts, one after another. Each step is orderly, no step
finds the cursor in front of the place where an earlier one has left it, and once a document has
been built, all spaces of later documents are empty. -/
theorem steps_orderly (b : Builder) (trees : List (Build.Node × Nat))
    (parsed : ∀ given ∈ trees, ∃ text, Toml.parse text = .ok given.1) :
    (∀ s ∈ b.steps trees, s.Orderly b.source) ∧
      (b.steps trees).Pairwise fun s s' => s.after ≤ s'.before ∧
        ∀ d d', s.result = .ok d → s'.result = .ok d' →
          ∀ text ∈ Piece.spaces d'.pieces, text = [] := by
  constructor
  · intro s member
    exact (le_before_of_mem_steps parsed member).2
  · induction trees generalizing b with
    | nil => exact .nil
    | cons given more ih =>
      obtain ⟨t, firstId⟩ := given
      obtain ⟨text, accepted⟩ := parsed (t, firstId) (List.mem_cons_self ..)
      have here := b.build_orderly accepted firstId
      have others := fun given inMore => parsed given (List.mem_cons_of_mem _ inMore)
      apply List.Pairwise.cons _ (ih (b.build t firstId).2 others)
      intro s' later
      obtain ⟨ahead, orderly⟩ := le_before_of_mem_steps others later
      refine ⟨ahead, fun d d' built built' => ?_⟩
      exact here.eq_nil_of_built orderly ahead built built'

/-- The tree of another text leaves the cursor inside a character. The tree of the source is built
from there all the same, and is built once more without any space. -/
theorem steps_orderly_unrelated :
    ∃ other own, Toml.parse "a=1".toList = .ok other ∧ Toml.parse "'é'=1".toList = .ok own ∧
      let b : Builder := ⟨"'é'=1".toList, { path := "", charset := "", marked := false }, {}⟩
      let steps := b.steps [(other, 1), (own, 1), (own, 1)]
      steps.map (fun s => (s.after, s.result.isOk)) = [(2, false), (6, true), (6, true)] ∧
        (∀ s ∈ steps, s.Orderly b.source) ∧
        steps.Pairwise fun s s' => s.after ≤ s'.before ∧
          ∀ d d', s.result = .ok d → s'.result = .ok d' →
            ∀ text ∈ Piece.spaces d'.pieces, text = [] := by
  let b : Builder := ⟨"'é'=1".toList, { path := "", charset := "", marked := false }, {}⟩
  have ran : ((Toml.document? "a=1".toList).bind fun other =>
      (Toml.document? "'é'=1".toList).map fun own =>
        (b.steps [(other, 1), (own, 1), (own, 1)]).map fun s => (s.after, s.result.isOk)) =
      some [(2, false), (6, true), (6, true)] := by decide +kernel
  obtain ⟨other, foundOther, ran⟩ := Option.bind_eq_some_iff.mp ran
  obtain ⟨own, foundOwn, ran⟩ := Option.map_eq_some_iff.mp ran
  have parsedOther := Toml.parse_eq_ok.mpr foundOther
  have parsedOwn := Toml.parse_eq_ok.mpr foundOwn
  have parsed : ∀ given ∈ [(other, 1), (own, 1), (own, 1)],
      ∃ text, Toml.parse text = .ok given.1 := by
    intro given member
    simp only [List.mem_cons, List.not_mem_nil, or_false] at member
    rcases member with rfl | rfl | rfl
    · exact ⟨_, parsedOther⟩
    · exact ⟨_, parsedOwn⟩
    · exact ⟨_, parsedOwn⟩
  exact ⟨other, own, parsedOther, parsedOwn, ran, steps_orderly b _ parsed⟩

end Builder

end Verbatim
