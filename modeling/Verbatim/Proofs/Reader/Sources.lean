import Verbatim.Proofs.Charset.Canonical
import Verbatim.Proofs.Reader.Accepted

/-!
# Where a text comes from

A path is carried along and never looked at: reading the same input under another path gives the
same document or failure, with the other path in it (`read_relocate`). So a text is read alike from
the bytes of a file, from memory, and without any file (`read_alike`).
-/

namespace Verbatim

open Charset (utf8Bytes StartsWithMark)

/-- The document under another path. -/
def Document.relocate (path : String) (d : Document) : Document := { d with path }

/-- The failure with another path for the text that it points into. -/
def Failure.relocate (path : String) : Failure → Failure
  | notToml _ text error => notToml path text error
  | build _ text fault => build path text fault
  | mismatch _ text printed => mismatch path text printed
  | failure => failure

/-! ### Building under another path -/

namespace Build

variable {α β : Type}

theorem around_map (source : List Char) (t : Node) (make : Space → Build α) (f : α → β) :
    around source t (fun before => f <$> make before) = f <$> around source t make := by
  rw [around, around]
  cases t.last? <;> simp

theorem document_relocate (source : List Char) (origin : Origin) (t : Node) (path : String) :
    document source { origin with path } t =
      Document.relocate path <$> document source origin t := by
  rw [document, document, ← around_map]
  simp [Document.relocate]

end Build

namespace Reader

/-- What is read, under another path. -/
def relocate (path : String) : Except Failure Document → Except Failure Document
  | .ok d => .ok (d.relocate path)
  | .error f => .error (f.relocate path)

variable {path : String}

theorem tree_relocate (name text path : String) :
    tree path text = (tree name text).mapError (Failure.relocate path) := by
  rw [tree, tree]
  cases Toml.parse text.toList <;> rfl

theorem checksum_relocate (decoded : Charset.Decoded) (path : String) :
    checksum decoded = (checksum decoded).mapError (Failure.relocate path) := by
  rw [checksum]
  cases Charset.encode decoded.text decoded.charset decoded.marked <;> rfl

theorem build_relocate (text : String) (origin : Origin) (t : Peg.Tree Toml.Rule) (path : String) :
    build text { origin with path } t = relocate path (build text origin t) := by
  rw [build, build, Builder.build, Builder.build, Build.document_relocate]
  simp only [ExceptT.run_map, StateT.run_map]
  rcases (Build.document text.toList origin t).run.run {} with ⟨fault | d, cursor⟩ <;> rfl

theorem verify_relocate (d : Document) (text name path : String) :
    (d.relocate path).verify text path = (d.verify text name).mapError (Failure.relocate path) := by
  have printed : (d.relocate path).print = d.print := rfl
  rw [Document.verify, Document.verify, printed]
  split <;> rfl

/-- What is done with a document that was built. -/
theorem verified_relocate (options : Options) (d : Document) (text name path : String) :
    (do
      if options.verifyRoundTrip then (d.relocate path).verify text path
      return d.relocate path) =
    relocate path (do
      if options.verifyRoundTrip then d.verify text name
      return d) := by
  cases options.verifyRoundTrip with
  | false => rfl
  | true =>
    simp only [verify_relocate d text name path, if_true]
    cases d.verify text name <;> rfl

/-- Reading looks at no path. -/
theorem read_relocate (options : Options) (input : Input) (path : String) :
    read options { input with path } = relocate path (read options input) := by
  obtain ⟨name, ⟨text, charset, marked⟩, attributes⟩ := input
  have built : ∀ t checksum, (do
        let d ← build text { path, charset, marked, checksum, attributes } t
        if options.verifyRoundTrip then d.verify text path
        return d) =
      relocate path (do
        let d ← build text { path := name, charset, marked, checksum, attributes } t
        if options.verifyRoundTrip then d.verify text name
        return d) := by
    intro t checksum
    have moved := build_relocate text { path := name, charset, marked, checksum, attributes } t path
    simp only [moved]
    cases build text { path := name, charset, marked, checksum, attributes } t with
    | error f => rfl
    | ok d => exact verified_relocate options d text name path
  have parsed := tree_relocate name text path
  rw [read, read]
  simp only [parsed]
  cases tree name text with
  | error f => rfl
  | ok t =>
    cases options.computeChecksum with
    | false => exact built t none
    | true =>
      cases counted : checksum ⟨text, charset, marked⟩ with
      | error f =>
        have same := checksum_relocate ⟨text, charset, marked⟩ path
        rw [counted] at same
        exact congrArg Except.error (Except.error.inj same)
      | ok c => exact built t (some c)

/-- A text is read alike wherever it comes from. Its bytes in UTF-8 are decoded as the text is taken
when it is already decoded, so that a file and a text give the same document or the same failure.
A text that does not start with the character of a mark is also read alike without a file, but for
the path. -/
theorem read_alike (options : Options) (path : String) (attributes : Option FileAttributes)
    (text : String) :
    Charset.decode (utf8Bytes text) = Charset.ofText text ∧
    read options { Input.ofBytes path (utf8Bytes text) with attributes } =
      read options { Input.ofText path text with attributes } ∧
    (¬ StartsWithMark text →
      read options (Input.ofText path text) = relocate path (readString options text)) := by
  have decoded := Charset.decode_utf8Bytes text
  refine ⟨decoded, ?_, fun unmarked => ?_⟩
  · rw [Input.ofBytes, Input.ofText, decoded]
  · rw [Input.ofText, Charset.ofText_of_unmarked unmarked, readString, ← read_relocate]

/-- Of two characters of the mark one is taken off, and the other one is no blank: the text is
rejected from a file and from memory. A text with such a character further behind is the same
everywhere. -/
theorem read_alike_marks :
    Charset.decode (utf8Bytes "\uFEFF\uFEFFa = 1") = ⟨"\uFEFFa = 1", Charset.utf8, true⟩ ∧
    (∃ f, read {} (Input.ofBytes "a.toml" (utf8Bytes "\uFEFF\uFEFFa = 1")) = .error f ∧
      read {} (Input.ofText "a.toml" "\uFEFF\uFEFFa = 1") = .error f) ∧
    ∃ d, readString {} "a = '\uFEFF'" = .ok d ∧
      read {} (Input.ofText "a.toml" "a = '\uFEFF'") = .ok { d with path := "a.toml" } := by
  obtain ⟨decoded, alike, _⟩ := read_alike {} "a.toml" none "\uFEFF\uFEFFa = 1"
  refine ⟨decoded.trans (by decide +kernel), ?_, ?_⟩
  · cases found : read {} (Input.ofText "a.toml" "\uFEFF\uFEFFa = 1") with
    | ok d =>
      have rejected : (read {} (Input.ofText "a.toml" "\uFEFF\uFEFFa = 1")).isOk = false := by
        decide +kernel
      rw [found] at rejected
      cases rejected
    | error f => exact ⟨f, alike.trans found, rfl⟩
  · obtain ⟨d, found⟩ := exists_ok_of_isOk (x := readString {} "a = '\uFEFF'") (by decide +kernel)
    refine ⟨d, found, ?_⟩
    rw [(read_alike {} "a.toml" none "a = '\uFEFF'").2.2 (by decide), found]
    rfl

end Reader

end Verbatim
