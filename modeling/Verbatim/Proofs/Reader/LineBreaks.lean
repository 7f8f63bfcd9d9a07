import Verbatim.Proofs.Document.LineBreaks
import Verbatim.Proofs.Reader.Accepted

/-!
# Line endings do not matter

A text with carriage returns and line feeds is read if and only if the text with line feeds alone is
read, and as the same document but for the line breaks in it (`readString_crlf`). What a backslash
does in front of a line break is left out: it protects a line feed, but of a pair the carriage
return only.
-/

namespace Verbatim

open Text

namespace Reader

/-- Line endings do not matter. Where lines are broken by line feeds that no backslash protects, the
text with pairs for line feeds is accepted exactly if the text is. Then both have the same lines,
keys, headers and comments, and values of the same kinds: the second document is the first one with
pairs for line feeds in its spaces, its values and the contents of its strings, but for identities
and the checksum. -/
theorem readString_crlf (options : Options) (s : String) (plain : PlainBreaks s.toList) :
    (readString options (String.ofList (crlf s.toList))).isOk = (readString options s).isOk ∧
    ∀ d d', readString options s = .ok d →
      readString options (String.ofList (crlf s.toList)) = .ok d' → d'.bare = d.crlf.bare := by
  constructor
  · rw [isOk_readString, isOk_readString, String.toList_ofList, Toml.isOk_parse_crlf plain]
  · intro d d' found found'
    obtain ⟨prints, legible⟩ := fresh_of_readString found
    obtain ⟨legible', printed⟩ := legible.crlf (by rwa [prints])
    have origin : d.crlf.origin = textOrigin := show d.origin = _ from origin_of_readString found
    obtain ⟨d'', again, same⟩ := readString_print options legible' origin
    have text : d.crlf.print = String.ofList (crlf s.toList) := by
      rw [← String.toList_inj, printed, prints, String.toList_ofList]
    rw [text, found'] at again
    obtain rfl := Except.ok.inj again
    exact same

/-- A string of two lines, an array of two lines, a comment line and an inline comment. -/
theorem readString_crlf_mixed :
    let s := "a = \"\"\"\nx\"\"\" # c\n# d\n[t]\nb = [\n1]\n"
    PlainBreaks s.toList ∧ ∃ d d', readString {} s = .ok d ∧
      readString {} "a = \"\"\"\r\nx\"\"\" # c\r\n# d\r\n[t]\r\nb = [\r\n1]\r\n" = .ok d' ∧
      d'.bare = d.crlf.bare := by
  intro s
  have plain : PlainBreaks s.toList := by decide +kernel
  have pairs : String.ofList (crlf s.toList) =
      "a = \"\"\"\r\nx\"\"\" # c\r\n# d\r\n[t]\r\nb = [\r\n1]\r\n" := by decide +kernel
  obtain ⟨accepts, same⟩ := readString_crlf {} s plain
  rw [pairs] at accepts same
  obtain ⟨d, found⟩ := exists_ok_of_isOk (x := readString {} s)
    (by rw [isOk_readString]; decide +kernel)
  obtain ⟨d', found'⟩ := exists_ok_of_isOk (accepts.trans (by rw [found]; rfl))
  exact ⟨plain, d, d', found, found', same d d' found found'⟩

end Reader

end Verbatim
