import Verbatim.Proofs.Document.Dump
import Verbatim.Proofs.Reader.Accepted

/-!
# A dump in JSON loses nothing of the text

The dump of a document that is read from a text is JSON, and the text is put together again from
the value it stands for (`readString_dump`). Hence texts that are dumped alike are the same.
-/

namespace Verbatim.Reader

variable {options : Options} {text : String} {d : Document}

/-- A text is rebuilt from the dump of its document, and no other text has this dump. -/
theorem readString_dump (found : readString options text = .ok d) :
    (∃ v, Json.read (d.dump .json) = some v ∧ Rebuild.document? v = some text) ∧
      ∀ (options' : Options) (text' : String) (d' : Document),
        readString options' text' = .ok d' → d'.dump .json = d.dump .json → text' = text := by
  have prints := (fresh_of_readString found).1
  constructor
  · refine ⟨_, d.read_dump_json, ?_⟩
    rw [Dump.Data.document?_ofDocument, prints]
  · intro options' text' d' found' same
    rw [← prints, ← (fresh_of_readString found').1]
    exact Document.print_of_dump_json same

/-- An infinity is dumped as nothing, and quotes, backslashes and control characters are escaped. -/
theorem readString_dump_escapes :
    let text := "\"\\\"é\" = inf #\t'\\ \x01\r\n"
    let d := singleLine (pairLine "\"\\\"é\"" "inf" .float (some (.float (.infinite false)))
      (some { before := ⟨" "⟩, text := "#\t'\\ \x01" })) ⟨"\r\n"⟩
    readString { computeChecksum := false } text = .ok d ∧
      ∃ v, Json.read (d.dump .json) = some v ∧ Rebuild.document? v = some text := by
  intro text d
  have found : readString { computeChecksum := false } text = .ok d :=
    ok_of_toOption (by decide +kernel)
  exact ⟨found, (readString_dump found).1⟩

end Verbatim.Reader
