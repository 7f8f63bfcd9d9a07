import Verbatim.Proofs.Reader.Lines
import Verbatim.Proofs.Text.Agreement
import Verbatim.Proofs.Toml.Adjoined

/-!
# Two lines of content on one line of a text

Texts that are read alone as one line of content are rejected with spaces or tabs between them, in
front of the second (`readString_adjoined`). What is said then is that the text should end there or
go on with a comment. There is an advice for this case, but no failure is told to be about a line
break: line breaks are no rule of the grammar, and no phrase speaks of them
(`SyntaxError.not_newline`).
-/

namespace Verbatim

open Text Toml

/-! ### What is said of a syntax error -/

namespace Toml.SyntaxError

/-- A literal is a list of characters that is spelled out. -/
theorem not_mem_ofList {c : Char} {l : List Char} (apart : l.contains c = false) :
    c ∉ (String.ofList l).toList := by
  rw [String.toList_ofList]
  simpa using apart

/-- No rule is described by words with this letter. -/
theorem not_mem_phrase (r : Rule) : 'w' ∉ r.phrase.toList := by
  have named : 'w' ∉ r.name.toList := by cases r <;> exact not_mem_ofList rfl
  have spelled : 'w' ∉ (r.name.map fun c => if c = '_' then ' ' else c).toList := by
    rw [String.toList_map, List.mem_map]
    rintro ⟨c, member, same⟩
    split at same
    · cases same
    · exact named (same ▸ member)
  cases r <;> first | exact spelled | exact not_mem_ofList rfl

theorem not_mem_intercalate {c : Char} {sep : List Char} {words : List (List Char)}
    (apart : c ∉ sep) (others : ∀ w ∈ words, c ∉ w) : c ∉ sep.intercalate words := by
  induction words with
  | nil => simp [List.intercalate]
  | cons w words ih =>
    have first := others w List.mem_cons_self
    have more := ih fun w member => others w (List.mem_cons_of_mem _ member)
    cases words with
    | nil => simpa using first
    | cons v words =>
      rw [List.intercalate_cons_cons]
      simp [first, apart, more]

/-- A message never speaks of line breaks. -/
theorem not_newline (e : SyntaxError) : e.message.contains "newline" = false := by
  have letter : 'w' ∉ e.message.toList := by
    unfold message
    split
    · decide
    · rw [String.toList_append, String.toList_intercalate, List.mem_append, not_or]
      refine ⟨by decide, not_mem_intercalate (by decide) ?_⟩
      simp only [List.map_map, List.mem_map, forall_exists_index, and_imp]
      rintro _ r _ rfl
      exact not_mem_phrase r
  rw [← Bool.not_eq_true, String.contains_string_iff]
  intro inside
  exact letter (inside.subset (by decide))

/-- So the only advice is the one about a missing key. -/
theorem help?_eq (e : SyntaxError) (s : List Char) : e.help? s =
    if (dropBytes? e.offset s).bind List.head? = some '=' then
      some "a key is required before '='"
    else none := by
  simp [help?, not_newline]

end Toml.SyntaxError

namespace Reader

variable {options : Options} {text : String} {e : Expression}

/-- A text that is read alone as one line of content is content. -/
theorem ReadsAlone.isContent (h : ReadsAlone options text e) :
    ∃ node, IsContent text.toList node := by
  obtain ⟨legible, body⟩ := h.legible
  obtain ⟨_, _, _, bare, _⟩ := h
  obtain ⟨i, item, inside⟩ := legible.item
  obtain ⟨node, content, _⟩ := inside.exists_isContent
  refine ⟨node, ?_⟩
  rwa [← body, Expression.body, item, bare, Option.map_none, Option.getD_none, List.append_nil]

/-- Two texts that are read alone as one line of content are rejected on one line, in front of the
second, and without the advice to put each on its own line. -/
theorem readString_adjoined (options : Options) (x b y : String) (e e' : Expression)
    (first : ReadsAlone options x e) (second : ReadsAlone options y e')
    (blanks : ∀ c ∈ b.toList, c = ' ' ∨ c = '\t') (apart : b ≠ "") :
    ∃ f, readString options (x ++ b ++ y) = .error f ∧
      f = .notToml "<string>" (x ++ b ++ y)
        ⟨(x ++ b).utf8ByteSize, [.endOfInput, .comment]⟩ ∧
      f.diagnostic.kind = .parse ∧ f.diagnostic.message = "expected end of file, comment" ∧
      f.diagnostic.span = some ⟨(x ++ b).utf8ByteSize, (x ++ b).utf8ByteSize⟩ ∧
      f.diagnostic.help = none := by
  have ⟨node, content⟩ := first.isContent
  have ⟨node', content'⟩ := second.isContent
  have indents : Indents b.toList := fun c member => by
    rcases blanks c member with rfl | rfl <;> rfl
  have adjoined : Adjoined x.toList b.toList y.toList :=
    ⟨⟨node, content⟩, ⟨node', content'⟩, indents, by simpa using apart⟩
  have place : byteLength (x.toList ++ b.toList) = (x ++ b).utf8ByteSize := by
    rw [← String.toList_append, byteLength_toList]
  have parsed := parse_adjoined adjoined
  rw [← List.append_assoc, place, ← String.toList_append, ← String.toList_append] at parsed
  let input : Input := ⟨"<string>", { text := x ++ b ++ y }, none⟩
  have rejected : readString options (x ++ b ++ y) = .error (.notToml input.path (x ++ b ++ y) _) :=
    @read_of_rejected options input _ parsed
  have noEquals : (dropBytes? (x ++ b).utf8ByteSize (x ++ b ++ y).toList).bind List.head? ≠
      some '=' := by
    obtain ⟨c, head, opens⟩ := adjoined.opens
    rw [String.toList_append, ← place, String.toList_append, dropBytes?_append, Option.bind_some,
      head]
    rintro same
    obtain rfl := Option.some.inj same
    revert opens
    decide
  refine ⟨_, rejected, rfl, rfl, rfl, rfl, ?_⟩
  rw [Failure.diagnostic, SyntaxError.help?_eq, if_neg noEquals]

theorem readString_adjoined_header :
    let options : Options := { computeChecksum := false }
    let a :=
      pairLine "a" "1979-05-27" .dateTime (some (.dateTime .localDate "1979-05-27")) none
    let t : Expression :=
      { item := some (.table { kind := .standard, source := "[t]" }), comment := none }
    ReadsAlone options "a = 1979-05-27" (a.number 2) ∧ ReadsAlone options "[t]" (t.number 2) ∧
      ∃ f, readString options "a = 1979-05-27 \t[t]" = .error f ∧
        f = .notToml "<string>" "a = 1979-05-27 \t[t]" ⟨16, [.endOfInput, .comment]⟩ ∧
        f.diagnostic.kind = .parse ∧ f.diagnostic.message = "expected end of file, comment" ∧
        f.diagnostic.span = some ⟨16, 16⟩ ∧ f.diagnostic.help = none := by
  intro options a t
  have pair : ReadsAlone options "a = 1979-05-27" (a.number 2) :=
    ⟨singleLine a {}, ok_of_toOption (by decide +kernel), rfl, rfl, rfl, rfl⟩
  have header : ReadsAlone options "[t]" (t.number 2) :=
    ⟨singleLine t {}, ok_of_toOption (by decide +kernel), rfl, rfl, rfl, rfl⟩
  exact ⟨pair, header, readString_adjoined options "a = 1979-05-27" " \t" "[t]" _ _ pair header
    (by simp) (by simp)⟩

/-- Two pairs are not told to be put on lines of their own. -/
theorem readString_adjoined_not_advised :
    let options : Options := { computeChecksum := false }
    let a := pairLine "a" "1" .integer (some (.integer 1)) none
    let b := pairLine "b" "2" .integer (some (.integer 2)) none
    ReadsAlone options "a = 1" (a.number 2) ∧ ReadsAlone options "b = 2" (b.number 2) ∧
      ∃ f, readString options ("a = 1" ++ " " ++ "b = 2") = .error f ∧
        f.diagnostic.help ≠
          some "each key/value pair and table header must be on its own line" := by
  intro options a b
  have first : ReadsAlone options "a = 1" (a.number 2) :=
    ⟨singleLine a {}, ok_of_toOption (by decide +kernel), rfl, rfl, rfl, rfl⟩
  have second : ReadsAlone options "b = 2" (b.number 2) :=
    ⟨singleLine b {}, ok_of_toOption (by decide +kernel), rfl, rfl, rfl, rfl⟩
  obtain ⟨f, rejected⟩ : ∃ f, readString options ("a = 1" ++ " " ++ "b = 2") = .error f :=
    exists_error_of_isOk (by decide +kernel)
  obtain ⟨e, rfl⟩ := notToml_of_read (Charset.encode_utf8 _ false) rejected
  refine ⟨first, second, _, rejected, ?_⟩
  show e.help? _ ≠ _
  rw [SyntaxError.help?_eq]
  split <;> simp

end Reader

end Verbatim
