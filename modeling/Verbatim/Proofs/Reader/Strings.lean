import Verbatim.Proofs.Reader.Forms

/-!
# Strings that are read

The hint of a string takes the string apart without loss: its delimiter, its content and its
delimiter again are the source (`readString_strings`). A string of one line, be it a value or a key,
holds a line break in one way only, behind a backslash that protects it
(`readString_string_lines`). The grammar lets a backslash protect any character, so that in a basic
string of one line this does happen (`readString_not_oneLine`).
-/

namespace Verbatim.Reader

open Peg Text Toml

variable {options : Options} {s : String} {d : Document} {kv : KeyValue} {style : StringStyle}
  {content : String}

/-- The content of a string, as its hint has it. -/
theorem writes_of_hint (found : readString options s = .ok d) (member : kv ∈ d.keyValues)
    (hint : kv.value.hint = some (.string style content)) :
    style.Writes kv.value.source.toList content.toList := by
  have legible := legible_of_read found member
  obtain ⟨f, _, whole, describes⟩ := legible.exists_form
  have kind : LiteralKind.string = kv.value.kind := legible.kind_of_hint hint
  obtain ⟨style', styled⟩ := exists_style (describes.kind.symm.trans kind.symm)
  obtain ⟨content', told, writes⟩ := describes.writes whole styled
  rw [hint] at told
  cases told
  simpa using writes

/-- Every string has a hint. The source is the content between two delimiters of the style, the
style is that of the form in which the source is written, and the content holds no delimiter that
could end the string earlier: none at all if backslashes do not escape, and else none that begins
with a character which no backslash protects. -/
theorem readString_strings (options : Options) (s : String) (d : Document)
    (found : readString options s = .ok d) (kv : KeyValue) (member : kv ∈ d.keyValues)
    (kind : kv.value.kind = .string) : ∃ style content,
      kv.value.hint = some (.string style content) ∧
      kv.value.source.toList = style.delimiter ++ (content.toList ++ style.delimiter) ∧
      ¬ Occurs style.escapes style.delimiter content.toList ∧
      ∃ f, Build.stringStyle? f = some style ∧ MatchesAll f kv.value.source.toList := by
  obtain ⟨f, _, whole, describes⟩ := (legible_of_read found member).exists_form
  obtain ⟨style, styled⟩ := exists_style (describes.kind.symm.trans kind)
  obtain ⟨content, told, writes⟩ := describes.writes whole styled
  refine ⟨style, String.ofList content, told, ?_, ?_, f, styled, whole⟩
  · simpa using writes.delimited
  · simpa using writes.delimiter

/-- Three quotes behind a backslash do not end the string, and of the five quotes at the end the
first two belong to the content. -/
theorem readString_strings_quotes : ∃ d kv style content,
    readString { computeChecksum := false } "k = \"\"\"a\\\"\"\"b\"\"\"\"\"" = .ok d ∧ kv ∈ d.keyValues ∧
      kv.value.kind = .string ∧ kv.value.hint = some (.string style content) ∧
      content = "a\\\"\"\"b\"\"" ∧ ¬ Occurs style.escapes style.delimiter content.toList := by
  let e := pairLine "k" "\"\"\"a\\\"\"\"b\"\"\"\"\"" .string
    (some (.string .multiLineBasic "a\\\"\"\"b\"\"")) none
  let d := singleLine e {}
  have found : readString { computeChecksum := false } "k = \"\"\"a\\\"\"\"b\"\"\"\"\"" = .ok d :=
    ok_of_toOption (by decide +kernel)
  obtain ⟨kv, pair⟩ : ∃ kv, kv ∈ d.keyValues := ⟨_, List.mem_singleton.mpr rfl⟩
  obtain rfl := List.mem_singleton.mp pair
  obtain ⟨style, content, hint, _, delimiter, _⟩ := readString_strings _ _ d found _ pair rfl
  refine ⟨d, _, style, content, found, pair, rfl, hint, ?_, delimiter⟩
  cases hint
  rfl

/-- A string that spans lines is written in one of the two styles for that, or it is a basic string
of one line in which each line break is escaped. The same holds of every string and every key in
quotes that stands anywhere in the text: a basic one may have escaped line breaks, a literal one has
none. -/
theorem readString_string_lines (options : Options) (s : String) (d : Document)
    (found : readString options s = .ok d) :
    (∀ kv ∈ d.keyValues, ∀ style content, kv.value.hint = some (.string style content) →
      ¬ OneLine kv.value.source.toList →
        style.onOneLine = false ∨ style = .basic ∧ BreaksEscaped content.toList) ∧
    ∀ t (n : Peg.Tree Rule), Toml.parse s.toList = .ok t → n.Within t →
      n.rule ∈ [Rule.basicString, .literalString, .quotedKey] →
        StringStyle.HoldsLine n.text := by
  refine ⟨?_, ?_⟩
  · intro kv member style content hint spans
    have writes := writes_of_hint found member hint
    cases style with
    | basic => exact Or.inr ⟨rfl, writes.breaksEscaped⟩
    | literal => exact absurd writes.oneLine spans
    | multiLineBasic => exact Or.inl rfl
    | multiLineLiteral => exact Or.inl rfl
  · intro t n accepted within known
    have whole := parse_isDocument accepted
    have made : Made n := by
      cases within with
      | self =>
        rw [whole.rule] at known
        exact absurd known (by decide)
      | child below inside => exact whole.sound _ below n inside
    obtain ⟨depth, mode, rest, taken⟩ := made.whole
    simp only [List.mem_cons, List.not_mem_nil, or_false] at known
    rcases known with rule | rule | rule
    · rw [rule] at taken
      obtain ⟨content, writes⟩ := writes_of_form (f := .basicString) rfl taken
      exact writes.holdsLine rfl
    · rw [rule] at taken
      obtain ⟨content, writes⟩ := writes_of_form (f := .literalString) rfl taken
      exact writes.holdsLine rfl
    · rw [rule] at taken
      obtain ⟨style, content, line, writes⟩ := writes_of_quotedKey taken
      exact writes.holdsLine line

theorem readString_string_lines_continued : ∃ d, readString {}
    "a = \"x\\\ny\"\n'b'.\"\\\\\" = '''\n'''" = .ok d ∧
      ∀ kv ∈ d.keyValues, ∀ style content, kv.value.hint = some (.string style content) →
        ¬ OneLine kv.value.source.toList →
          style.onOneLine = false ∨ style = .basic ∧ BreaksEscaped content.toList := by
  obtain ⟨d, found⟩ := exists_ok_of_isOk
    (x := readString {} "a = \"x\\\ny\"\n'b'.\"\\\\\" = '''\n'''") (by decide +kernel)
  exact ⟨d, found, (readString_string_lines {} _ d found).1⟩

/-- A basic string and a key in double quotes, both of one line, with a line break in them. -/
theorem readString_not_oneLine : (∃ d kv content,
    readString { computeChecksum := false } "a = \"x\\\ny\"" = .ok d ∧ kv ∈ d.keyValues ∧
      kv.value.hint = some (.string .basic content) ∧ ¬ OneLine kv.value.source.toList) ∧
    ∃ d kv, readString { computeChecksum := false } "\"x\\\ny\" = 1" = .ok d ∧
      kv ∈ d.keyValues ∧ kv.key.name = "\"x\\\ny\"" ∧ ¬ OneLine kv.key.name.toList := by
  have broken : ¬ OneLine "\"x\\\ny\"".toList := fun inside => by
    cases inside '\n' (by decide)
  constructor
  · let d := singleLine (pairLine "a" "\"x\\\ny\"" .string (some (.string .basic "x\\\ny")) none) {}
    have found : readString { computeChecksum := false } "a = \"x\\\ny\"" = .ok d :=
      ok_of_toOption (by decide +kernel)
    exact ⟨d, _, _, found, List.mem_singleton.mpr rfl, rfl, broken⟩
  · let d := singleLine (pairLine "\"x\\\ny\"" "1" .integer (some (.integer 1)) none) {}
    have found : readString { computeChecksum := false } "\"x\\\ny\" = 1" = .ok d :=
      ok_of_toOption (by decide +kernel)
    exact ⟨d, _, found, List.mem_singleton.mpr rfl, rfl, broken⟩

end Verbatim.Reader
