import Verbatim.Proofs.Document.Edit
import Verbatim.Proofs.Document.Forms
import Verbatim.Proofs.Document.Join
import Verbatim.Proofs.Reader.Accepted

/-!
# Values are read in the form in which they are written

The choice among the forms of values is faithful (`readString_forms`): a text that one of the forms
matches as a whole is read as a value of that form, no other form matches it as a whole, and every
value that is read has a form.
-/

namespace Verbatim

open Text Toml

namespace Reader

/-- A literal is what a form says about its source. -/
def Writes (f : Rule) (t : String) (l : Literal) : Prop :=
  l.source = t ∧ Describes f t.toList l.kind l.hint

/-- A text is read as one pair, without a comment and with nothing behind it. -/
def ReadsAsPair (options : Options) (s : String) (kv : KeyValue) : Prop :=
  ∃ d e, readString options s = .ok d ∧ d.expressions = [e] ∧ e.comment = none ∧
    d.trailing = {} ∧ e.keyValue? = some kv

variable {options : Options} {t : String} {f : Rule} {kind : LiteralKind} {hint : Option Hint}

/-- A spelled value behind a bare key is a whole document. -/
theorem legible_singleLine
    (spelled : ∃ v, Spells .nested t.toList v ∧ Build.meaning? v = some (kind, hint)) :
    (singleLine (pairLine "k" t kind hint none) {}).Legible := by
  -- the key and the spaces are those of another document
  have known : readString { computeChecksum := false } "k = 1" =
      .ok (singleLine (pairLine "k" "1" .integer (some (.integer 1)) none) {}) :=
    ok_of_toOption (by decide +kernel)
  have other := (legible_of_single known rfl).pair rfl
  have pair : KeyValue.Legible
      { key := { name := "k" }
        afterKey := ⟨" "⟩
        value := { before := ⟨" "⟩, source := t, kind := kind, hint := hint } } :=
    ⟨rfl, rfl, ⟨rfl, rfl, other.key.spelled⟩, other.afterKey, ⟨other.value.before, rfl, spelled⟩⟩
  have line : (pairLine "k" t kind hint none).Legible := ⟨rfl, ⟨_, rfl, pair⟩, by rintro c ⟨⟩⟩
  refine Document.Legible.number ⟨rfl, rfl, ?_⟩ 1
  exact ⟨Filler.nil, line, after_blanks inlineBlanks_nil false⟩

theorem print_singleLine :
    (singleLine (pairLine "k" t kind hint none) {}).print = "k = " ++ t := by
  rw [singleLine, Document.print, Document.pieces_number, ← String.toList_inj, Piece.toList_join]
  simp [Document.pieces, Expression.pieces, pairLine, Item.pieces, KeyValue.pieces, Key.pieces,
    Literal.pieces, Piece.ofSpace]

/-- A line that is a pair up to identities. -/
theorem exists_pair_of_bare {e : Expression} {kv : KeyValue}
    (same : e.item.map Item.bare = some (.keyValue kv)) : ∃ kv', e.keyValue? = some kv' ∧
      kv'.bare = kv := by
  obtain ⟨i, content, bare⟩ := Option.map_eq_some_iff.mp same
  cases i with
  | keyValue kv' => exact ⟨kv', by rw [Expression.keyValue?, content], Item.keyValue.inj bare⟩
  | table t => cases bare

/-- The value of a pair that is read is legible. -/
theorem legible_of_read {s : String} {d : Document} {kv : KeyValue}
    (found : readString options s = .ok d) (member : kv ∈ d.keyValues) : kv.value.Legible := by
  obtain ⟨e, line, pair⟩ := List.mem_filterMap.mp member
  obtain ⟨i, here⟩ := List.mem_iff_getElem?.mp line
  exact (((fresh_of_readString found).2.lines.line here).2.pair pair).value

/-- What a form matches as a whole is read as a value of this form. -/
theorem readsAsPair_of_form (form : f ∈ valueForms) (h : MatchesAll f t.toList)
    (options : Options) :
    ∃ kv, ReadsAsPair options ("k = " ++ t) kv ∧ Writes f t kv.value := by
  obtain ⟨v, kind, hint, spelled, means, describes⟩ := exists_spelled_of_form form h
  have legible := legible_singleLine ⟨v, spelled, means⟩
  obtain ⟨d, found, same⟩ := readString_print options legible rfl
  rw [print_singleLine] at found
  rw [singleLine, Document.bare_number] at same
  obtain ⟨e, lines, line⟩ :=
    List.map_eq_singleton_iff.mp (congrArg Document.expressions same)
  obtain ⟨kv, pair, bare⟩ := exists_pair_of_bare (congrArg Expression.item line)
  have value := congrArg KeyValue.value bare
  refine ⟨kv, ⟨d, e, found, lines, congrArg Expression.comment line,
    congrArg Document.trailing same, pair⟩, congrArg Literal.source value, ?_⟩
  have kinds := congrArg Literal.kind value
  have hints := congrArg Literal.hint value
  simp only [KeyValue.bare] at kinds hints
  rwa [kinds, hints]

/-- The choice among the forms of values is faithful. At most one form matches a text as a whole. A
text that one of them matches as a whole is read as a value of this form behind a key, and no
earlier form matches any front part of it. And every value that is read is written in one of the
forms. -/
theorem readString_forms (options : Options) (t : String) :
    (∀ f ∈ valueForms, ∀ g ∈ valueForms, MatchesAll f t.toList → MatchesAll g t.toList → f = g) ∧
    (∀ f ∈ valueForms, MatchesAll f t.toList →
      (∃ kv, ReadsAsPair options ("k = " ++ t) kv ∧ Writes f t kv.value) ∧
      ∀ g, [g, f].Sublist valueForms →
        grammar.parse (Grammar.production g) .spaced 0 t.toList = none) ∧
    ∀ s d kv, readString options s = .ok d → kv ∈ d.keyValues → kv.value.source = t →
      ∃ f ∈ valueForms, MatchesAll f t.toList ∧ Writes f t kv.value := by
  refine ⟨?_, ?_, ?_⟩
  · intro f form g form' whole whole'
    exact form_unique form form' whole whole'
  · intro f form whole
    exact ⟨readsAsPair_of_form form whole options, fun g earlier =>
      parse_eq_none_of_later earlier whole⟩
  · rintro s d kv found member rfl
    obtain ⟨f, form, whole, describes⟩ := (legible_of_read found member).exists_form
    exact ⟨f, form, whole, rfl, describes⟩

/-- A date and a time joined by a blank are one value: the date in front of the blank is not taken
for a value of its own, and the form with an offset is refused. -/
theorem readString_forms_blank :
    MatchesAll .localDateTime "1979-05-27 07:32:00".toList ∧
      (∃ kv, ReadsAsPair {} "k = 1979-05-27 07:32:00" kv ∧
        Writes .localDateTime "1979-05-27 07:32:00" kv.value) ∧
      grammar.parse (Grammar.production .offsetDateTime) .spaced 0 "1979-05-27 07:32:00".toList =
        none := by
  have whole : MatchesAll .localDateTime "1979-05-27 07:32:00".toList := by
    unfold MatchesAll
    decide +kernel
  obtain ⟨read, earlier⟩ :=
    (readString_forms {} "1979-05-27 07:32:00").2.1 .localDateTime (by decide) whole
  exact ⟨whole, read, earlier .offsetDateTime (by decide)⟩

end Reader

end Verbatim
