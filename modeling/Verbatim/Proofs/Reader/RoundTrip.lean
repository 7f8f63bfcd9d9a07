import Verbatim.Proofs.Reader.Accepted

/-!
# Nothing is lost

A text that is read prints as itself, and the bytes of a file come back as they were. The reader's
own check of this never finds a difference.
-/

namespace Verbatim.Reader

/-- The comparison with the printed document changes nothing. -/
theorem read_verify (options : Options) {input : Input} {bytes : List UInt8}
    (encodes : input.decoded.encode = .ok bytes) :
    read { options with verifyRoundTrip := true } input =
      read { options with verifyRoundTrip := false } input := by
  cases parsed : Toml.parse input.decoded.text.toList with
  | error e => rw [read_of_rejected parsed, read_of_rejected parsed]
  | ok t =>
    obtain ⟨d, _, built, found⟩ :=
      @read_of_accepted { options with verifyRoundTrip := true } input bytes t encodes parsed
    obtain ⟨d', _, built', found'⟩ :=
      @read_of_accepted { options with verifyRoundTrip := false } input bytes t encodes parsed
    have same : Except.ok d = Except.ok d' := built.symm.trans built'
    rw [found, found', same]

/-- Reading a text and printing it gives the text back. So the comparison that the options may ask
for changes nothing: with it and without it, the same texts give the same documents and the same
failures. -/
theorem readString_lossless (options : Options) (text : String) :
    (∀ d, readString options text = .ok d → d.print = text) ∧
    (∀ f, readString options text = .error f → f.diagnostic.kind ≠ .roundTrip) ∧
    readString { options with verifyRoundTrip := true } text =
      readString { options with verifyRoundTrip := false } text := by
  have encodes := Charset.encode_utf8 text false
  refine ⟨?_, ?_, ?_⟩
  · intro d found
    exact (fresh_of_read encodes found).prints
  · intro f failed
    obtain ⟨e, rfl⟩ := notToml_of_read encodes failed
    simp [Failure.diagnostic]
  · exact read_verify options encodes

theorem readString_lossless_nested_values :
    ∃ d, readString {} "a = [1, \x7bb = '''x'''\x7d] # é\r\n\n[t.'u']\u3000" = .ok d ∧
      d.print = "a = [1, \x7bb = '''x'''\x7d] # é\r\n\n[t.'u']\u3000" := by
  obtain ⟨d, found⟩ := exists_ok_of_isOk (x := readString {}
    "a = [1, \x7bb = '''x'''\x7d] # é\r\n\n[t.'u']\u3000") (by decide +kernel)
  exact ⟨d, found, (readString_lossless _ _).1 d found⟩

/-- The bytes of a file come back as they were, whichever charset they are read in, and their
checksum is recorded if the options ask for it. -/
theorem read_bytes_lossless (options : Options) (path : String)
    (attributes : Option FileAttributes) (bytes : List UInt8) :
    (∀ d, read options { Input.ofBytes path bytes with attributes } = .ok d →
      d.toBytes = .ok bytes ∧
      d.checksum = if options.computeChecksum then some (Checksum.ofBytes bytes) else none) ∧
    ∀ f, read options { Input.ofBytes path bytes with attributes } = .error f →
      f.diagnostic.kind ≠ .encoding := by
  have encodes := Charset.encode_decode bytes
  constructor
  · intro d found
    have fresh := fresh_of_read encodes found
    refine ⟨?_, fresh.checksum⟩
    rw [Document.toBytes, fresh.prints, fresh.charset, fresh.marked]
    unfold Charset.Decoded.encode at encodes
    exact congrArg (Except.mapError Failure.charset) encodes
  · intro f failed
    obtain ⟨e, rfl⟩ := notToml_of_read encodes failed
    simp [Failure.diagnostic]

/-- In UTF-8 no byte `0xE9` stands in front of a quote, so these bytes are ISO-8859-1. -/
theorem read_bytes_lossless_latin1 :
    ∃ d, read {} (.ofBytes "a.toml" [0x61, 0x20, 0x3D, 0x20, 0x27, 0xE9, 0x27]) = .ok d ∧
      d.toBytes = .ok [0x61, 0x20, 0x3D, 0x20, 0x27, 0xE9, 0x27] := by
  obtain ⟨d, found⟩ := exists_ok_of_isOk (x := read {}
    (.ofBytes "a.toml" [0x61, 0x20, 0x3D, 0x20, 0x27, 0xE9, 0x27])) (by decide +kernel)
  exact ⟨d, found, ((read_bytes_lossless {} "a.toml" none _).1 d found).1⟩

end Verbatim.Reader
