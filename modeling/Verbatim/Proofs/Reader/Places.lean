import Verbatim.Proofs.Document.Places
import Verbatim.Proofs.Reader.Accepted

/-!
# Tokens keep their positions

That a document prints as its text does not say that each token is where it was: a byte could have
moved from a token into the space beside it. `readString_inPlace` says that no byte has: line by
line, the tokens that are printed are the nodes of the parse tree, with the bytes that these cover.
-/

namespace Verbatim.Reader

open Text Toml

variable {options : Options} {s : String} {d : Document} {t : Build.Node}

/-- What is read from an accepted text is built from the lines of its tree. -/
theorem exists_linesOf_of_readString (found : readString options s = .ok d)
    (accepted : Toml.parse s.toList = .ok t) :
    ∃ es left, Build.LinesOf 0 s.toList t.children es left ∧ d.before = {} ∧
      d.expressions = numberAll 2 es ∧ d.trailing = .ofList left := by
  have whole := parse_isDocument accepted
  obtain ⟨es, left, lines, _, _⟩ := exists_legible whole.lines whole.sound le_rfl
    (show Filler = Before none from rfl) whole.bare
  let input : Input := ⟨"<string>", { text := s }, none⟩
  obtain ⟨d', _, built, read⟩ : ∃ d', Fresh s _ d' ∧ build s _ t = .ok d' ∧
      readString options s = .ok d' :=
    @read_of_accepted options input _ t (Charset.encode_utf8 s false) accepted
  rw [found] at read
  obtain rfl := Except.ok.inj read
  rw [build, build_of_lines accepted lines] at built
  obtain rfl := Except.ok.inj built
  exact ⟨es, left, lines, rfl, rfl, rfl⟩

/-- The document that is read from a text has one line for each line of the parse tree, with the
same content. What is printed falls into pieces, and the pieces that are tokens take up the bytes
that their nodes cover in the text: the tokens of each line those of the parts of its node, and so
all tokens of the document. -/
theorem readString_inPlace (found : readString options s = .ok d)
    (accepted : Toml.parse s.toList = .ok t) :
    d.expressions.length = (t.childrenOf .expression).length ∧
      (∀ i e n, d.expressions[i]? = some e → (t.childrenOf .expression)[i]? = some n →
        d.LineInPlace i e n) ∧
      Piece.tokens 0 d.pieces = (t.childrenOf .expression).flatMap Build.lineTokens ∧
      ∀ p ∈ Piece.places 0 d.pieces,
        slice? d.print.toList p.2.start p.2.stop = some p.1.text.toList := by
  have whole := parse_isDocument accepted
  obtain ⟨es, left, lines, before, numbered, _⟩ := exists_linesOf_of_readString found accepted
  obtain ⟨lengths, inPlace, tokens⟩ := lines.lineInPlace 2 before numbered
  rw [Build.childrenOf_expression whole.lines]
  refine ⟨lengths, inPlace, tokens, fun p member => ?_⟩
  have cut := Piece.slice_of_mem_places [] [] member
  rwa [List.nil_append, List.append_nil, ← Piece.toList_join] at cut

theorem readString_inPlace_commented :
    ∃ d t, readString {} "a.b = [1]\n [t] # x" = .ok d ∧
      Toml.parse "a.b = [1]\n [t] # x".toList = .ok t ∧
      (∀ i e n, d.expressions[i]? = some e → (t.childrenOf .expression)[i]? = some n →
        d.LineInPlace i e n) ∧
      Piece.tokens 0 d.pieces = (t.childrenOf .expression).flatMap Build.lineTokens := by
  have isOk : (Toml.parse "a.b = [1]\n [t] # x".toList).isOk = true := by decide +kernel
  obtain ⟨t, accepted⟩ := exists_ok_of_isOk isOk
  rw [← isOk_readString {}] at isOk
  obtain ⟨d, found⟩ := exists_ok_of_isOk isOk
  obtain ⟨_, inPlace, tokens, _⟩ := readString_inPlace found accepted
  exact ⟨d, t, found, accepted, inPlace, tokens⟩

end Verbatim.Reader
