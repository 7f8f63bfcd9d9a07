import Mathlib.Data.List.Infix
import Verbatim.Failure

/-!
# How far two texts agree

Two texts are compared character by character, and the place of the first difference is counted in
the bytes of one of them. Up to that place both texts are the same (`split_of_difference?`), and
without a difference one of them starts with the other (`prefix_of_difference?_eq_none`). So the
place is the end of the longest text with which both start (`exists_longestCommonPrefix`), however
wide the characters behind it are.
-/

namespace Verbatim.Text

variable {w s t u v : List Char} {c d : Char} {start place : Nat}

/-- The longest text with which two texts start. -/
structure LongestCommonPrefix (w s t : List Char) : Prop where
  left : w <+: s
  right : w <+: t
  longest : ∀ x, x <+: s → x <+: t → x <+: w

theorem byteLength_le_of_front (h : w <+: s) : byteLength w ≤ byteLength s := by
  obtain ⟨rest, rfl⟩ := h
  rw [byteLength_append]
  exact Nat.le_add_right _ _

theorem isBoundary_of_front (h : w <+: s) : IsBoundary s (byteLength w) := by
  obtain ⟨rest, rfl⟩ := h
  exact ⟨w, rest, rfl, rfl⟩

theorem utf8ByteSize_ofList (s : List Char) : (String.ofList s).utf8ByteSize = byteLength s := by
  induction s with
  | nil => rfl
  | cons c s ih =>
    rw [String.ofList_cons, String.utf8ByteSize_append, ih, String.utf8ByteSize_singleton,
      byteLength_cons]

theorem byteLength_toList (text : String) : byteLength text.toList = text.utf8ByteSize := by
  rw [← utf8ByteSize_ofList, String.ofList_toList]

/-! ### The first difference -/

theorem difference?_nil (start : Nat) (s : List Char) : difference? start s [] = none := by
  simp [difference?]

theorem difference?_cons (start : Nat) (c d : Char) (s t : List Char) :
    difference? start (c :: s) (d :: t) =
      if c = d then difference? (start + c.utf8Size) s t else some start := by
  by_cases same : c = d
  · simp [difference?, charOffsets, same]
  · simp [difference?, charOffsets, same]

/-- Up to the first difference, both texts are the same. -/
theorem split_of_difference? (h : difference? start s t = some place) :
    ∃ w c u d v, s = w ++ c :: u ∧ t = w ++ d :: v ∧ c ≠ d ∧ place = start + byteLength w := by
  induction s generalizing start t with
  | nil => cases h
  | cons c s ih =>
    cases t with
    | nil =>
      rw [difference?_nil] at h
      cases h
    | cons d t =>
      rw [difference?_cons] at h
      by_cases same : c = d
      · rw [if_pos same] at h
        obtain ⟨w, c', u, d', v, rfl, rfl, differ, here⟩ := ih h
        refine ⟨c :: w, c', u, d', v, rfl, by rw [same]; rfl, differ, ?_⟩
        rw [here, byteLength_cons, Nat.add_assoc]
      · rw [if_neg same] at h
        cases h
        exact ⟨[], c, s, d, t, rfl, rfl, same, rfl⟩

/-- Without a difference, one text starts with the other. -/
theorem prefix_of_difference?_eq_none (h : difference? start s t = none) : s <+: t ∨ t <+: s := by
  induction s generalizing start t with
  | nil => exact Or.inl List.nil_prefix
  | cons c s ih =>
    cases t with
    | nil => exact Or.inr List.nil_prefix
    | cons d t =>
      rw [difference?_cons] at h
      by_cases same : c = d
      · rw [if_pos same] at h
        subst same
        simpa using ih h
      · rw [if_neg same] at h
        cases h

/-! ### The longest common prefix -/

theorem longestCommonPrefix_of_split (differ : c ≠ d) :
    LongestCommonPrefix w (w ++ c :: u) (w ++ d :: v) := by
  refine ⟨List.prefix_append _ _, List.prefix_append _ _, fun x left right => ?_⟩
  obtain shorter | ⟨rest, rfl⟩ := List.prefix_or_prefix_of_prefix left (List.prefix_append w _)
  · exact shorter
  cases rest with
  | nil => simp
  | cons e rest =>
    -- a longer text would go on with both of the characters
    obtain ⟨rfl, _⟩ : e = c ∧ rest <+: u := by simpa using left
    obtain ⟨rfl, _⟩ : e = d ∧ rest <+: v := by simpa using right
    exact absurd rfl differ

theorem longestCommonPrefix_of_front (h : s <+: t) : LongestCommonPrefix s s t :=
  ⟨List.prefix_rfl, h, fun _ left _ => left⟩

theorem LongestCommonPrefix.symm (h : LongestCommonPrefix w s t) : LongestCommonPrefix w t s :=
  ⟨h.right, h.left, fun x left right => h.longest x right left⟩

/-- Two texts agree on the bytes of the longest text with which both start. -/
theorem exists_longestCommonPrefix (s t : List Char) :
    ∃ w, LongestCommonPrefix w s t ∧ agreement s t = byteLength w := by
  rw [agreement]
  cases found : difference? 0 s t with
  | some place =>
    obtain ⟨w, c, u, d, v, rfl, rfl, differ, here⟩ := split_of_difference? found
    exact ⟨w, longestCommonPrefix_of_split differ, by simp [here]⟩
  | none =>
    obtain front | front := prefix_of_difference?_eq_none found
    · refine ⟨s, longestCommonPrefix_of_front front, ?_⟩
      exact Nat.min_eq_left (byteLength_le_of_front front)
    · refine ⟨t, (longestCommonPrefix_of_front front).symm, ?_⟩
      exact Nat.min_eq_right (byteLength_le_of_front front)

end Verbatim.Text
