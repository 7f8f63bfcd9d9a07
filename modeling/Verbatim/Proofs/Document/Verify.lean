import Verbatim.Proofs.Text.Agreement
import Verbatim.Reader

/-!
# Where a document differs from a text

A document is compared with a text as it prints, whether it was read from the text or edited since.
If it prints as another text, the failure points behind the longest text with which both start
(`verify_locates`).
-/

namespace Verbatim.Document

open Text

theorem verify_eq_ok_iff (d : Document) (source name : String) :
    d.verify source name = .ok () ↔ d.print = source := by
  rw [verify]
  by_cases same : d.print = source
  · simp [same]
  · simp [same]

/-- A document is verified exactly if it prints as the text. Otherwise the failure is a mismatch that
points at a place between two characters of either text: the end of the longest text with which the
printed text and the other one start, counted in bytes. -/
theorem verify_locates (d : Document) (source name : String) :
    (d.verify source name = .ok () ↔ d.print = source) ∧
    (d.print ≠ source → ∃ f common, d.verify source name = .error f ∧
      f.diagnostic.kind = .roundTrip ∧
      LongestCommonPrefix common d.print.toList source.toList ∧
      f.diagnostic.span = some ⟨byteLength common, byteLength common⟩ ∧
      byteLength common ≤ d.print.utf8ByteSize ∧ byteLength common ≤ source.utf8ByteSize ∧
      IsBoundary d.print.toList (byteLength common) ∧
      IsBoundary source.toList (byteLength common)) := by
  refine ⟨verify_eq_ok_iff d source name, fun differ => ?_⟩
  obtain ⟨common, longest, place⟩ := exists_longestCommonPrefix d.print.toList source.toList
  have failed : d.verify source name = .error (.mismatch name source d.print) := if_neg differ
  refine ⟨_, common, failed, rfl, longest, ?_, ?_, ?_, ?_, ?_⟩
  · rw [← place]
    rfl
  · rw [← byteLength_toList]
    exact byteLength_le_of_front longest.left
  · rw [← byteLength_toList]
    exact byteLength_le_of_front longest.right
  · exact isBoundary_of_front longest.left
  · exact isBoundary_of_front longest.right

/-- The first byte of the two last characters is the same, but the characters are not. And a text
with nothing but more line breaks at its end differs where the shorter one ends. -/
theorem verify_locates_shared_byte :
    let d : Document :=
      { path := "t.toml", charset := Charset.utf8, marked := false, checksum := none
        attributes := none, expressions := [], trailing := ⟨"#é"⟩ }
    (∃ f common, d.verify "#è" "t.toml" = .error f ∧
      LongestCommonPrefix common "#é".toList "#è".toList ∧
      f.diagnostic.span = some ⟨byteLength common, byteLength common⟩ ∧
      f.diagnostic.span = some ⟨1, 1⟩) ∧
    ∃ f common, d.verify "#é\n\n" "t.toml" = .error f ∧
      LongestCommonPrefix common "#é".toList "#é\n\n".toList ∧
      f.diagnostic.span = some ⟨byteLength common, byteLength common⟩ ∧
      f.diagnostic.span = some ⟨3, 3⟩ := by
  intro d
  have printed : d.print = "#é" := by decide +kernel
  have locates (source : String) (differ : "#é" ≠ source) :=
    (verify_locates d source "t.toml").2 (printed ▸ differ)
  have mismatch (source : String) (differ : "#é" ≠ source) :
      d.verify source "t.toml" = .error (.mismatch "t.toml" source "#é") := by
    rw [verify, printed, if_neg differ]
  rw [printed] at locates
  constructor
  · obtain ⟨f, common, failed, _, longest, span, _⟩ := locates "#è" (by decide)
    obtain rfl := Except.error.inj (failed.symm.trans (mismatch "#è" (by decide)))
    exact ⟨_, common, failed, longest, span, by decide +kernel⟩
  · obtain ⟨f, common, failed, _, longest, span, _⟩ := locates "#é\n\n" (by decide)
    obtain rfl := Except.error.inj (failed.symm.trans (mismatch "#é\n\n" (by decide)))
    exact ⟨_, common, failed, longest, span, by decide +kernel⟩

end Verbatim.Document
