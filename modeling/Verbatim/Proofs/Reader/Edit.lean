import Mathlib.Data.List.Basic
import Verbatim.Proofs.Document.Edit
import Verbatim.Proofs.Reader.Accepted

/-!
# What is read after an edit

An edit is what it looks like: after a value, a key or a space is replaced by another text for its
place, the printed document is the old text but for these bytes, and reading it gives the old
document but for this part (`readString_token_edit`, `readString_space_edit`).
-/

namespace Verbatim

open Text Toml

namespace Reader

variable {options : Options} {s : String} {d d' : Document} {i : Nat} {e e' : Expression}
  {kv : KeyValue}

/-- A line that was read can be replaced by a legible one that has a comment if the line had one. -/
theorem readString_print_setLine (found : readString options s = .ok d)
    (line : d.expressions[i]? = some e) (legible : e'.Legible)
    (front : Before (if i = 0 then none else some true) e'.before.chars)
    (noted : e'.comment.isSome = e.comment.isSome) :
    ∃ d', readString options (d.setLine i e').print = .ok d' ∧ d'.bare = (d.setLine i e').bare := by
  obtain ⟨_, whole⟩ := fresh_of_readString found
  have origin := origin_of_readString found
  exact readString_print options (whole.setLine line front legible noted) origin

/-! ### Tokens -/

/-- A text that is read as a value behind a key, without anything behind it. -/
def ReadsAsValue (options : Options) (v : String) (alone : Literal) : Prop :=
  ∃ d e kv, readString options ("k = " ++ v) = .ok d ∧ d.expressions = [e] ∧ e.comment = none ∧
    d.trailing = {} ∧ e.keyValue? = some kv ∧ kv.value = alone ∧ alone.source = v

/-- A text that is read as a key in front of a value. -/
def ReadsAsKey (options : Options) (n : String) : Prop :=
  ∃ d e kv, readString options (n ++ " = 1") = .ok d ∧ d.expressions = [e] ∧
    e.keyValue? = some kv ∧ kv.key.name = n

/-- What an edit of one token does to a text and to what is read from it: the token is replaced
where it stands, and the printed document is read as another one. -/
structure TokenEdit (options : Options) (s front old new back : String)
    (edited reread : Document) : Prop where
  source : s = front ++ old ++ back
  print : edited.print = front ++ new ++ back
  reads : ∃ d, readString options edited.print = .ok d ∧ d.bare = reread.bare

/-- One token of a pair is replaced in a text that was read. The new value is one that is read
behind a key, and brings its kind and hint along; the new key is one that is read in front of a
value. In the printed document nothing else has changed, and it is read with nothing else
changed. -/
theorem readString_token_edit (options : Options) (s : String) (d : Document) (i : Nat)
    (e : Expression) (kv : KeyValue) (found : readString options s = .ok d)
    (line : d.expressions[i]? = some e) (pair : e.keyValue? = some kv) :
    (∀ v alone, ReadsAsValue options v alone → ∃ edited reread,
      d.setLiteralSource? i v = some edited ∧
      d.mapLine? i (Expression.mapKeyValue? fun kv => { kv with value :=
        { kv.value with source := v, kind := alone.kind, hint := alone.hint } }) = some reread ∧
      TokenEdit options s
        (Piece.join (d.piecesBefore i ++ kv.piecesBeforeKey e ++ ⟨.key, kv.key.name⟩ ::
          kv.piecesBetween)) kv.value.source v
        (Piece.join (e.commentPieces ++ d.piecesBehind i)) edited reread) ∧
    ∀ n, ReadsAsKey options n → ∃ edited, d.setKeyName? i n = some edited ∧
      TokenEdit options s (Piece.join (d.piecesBefore i ++ kv.piecesBeforeKey e)) kv.key.name n
        (Piece.join (kv.piecesBetween ++ ⟨.literal, kv.value.source⟩ :: e.commentPieces ++
          d.piecesBehind i)) edited edited := by
  obtain ⟨prints, lines⟩ := fresh_of_readString found
  obtain ⟨front, legible⟩ := lines.lines.line line
  have pairLegible := legible.pair pair
  have whole : s = Piece.join (d.piecesBefore i ++ kv.piecesBeforeKey e) ++ kv.key.name ++
      Piece.join kv.piecesBetween ++ kv.value.source ++
        Piece.join (e.commentPieces ++ d.piecesBehind i) := by
    have same : { e with item := some (.keyValue kv) } = e := by
      rw [← Expression.item_of_keyValue? pair]
    have printed := Document.print_setPair line kv
    rw [same, Document.setLine_self line, prints] at printed
    exact printed
  constructor
  · rintro v alone ⟨a, x, kv', readAlone, single, _, _, pairAlone, rfl, rfl⟩
    have value := ((legible_of_single readAlone single).pair pairAlone).value
    refine ⟨_, _, Document.mapKeyValue?_eq_some line pair _,
      Document.mapKeyValue?_eq_some line pair _, ?_, ?_, ?_⟩
    · rw [whole]
      simp [String.append_assoc]
    · rw [Document.print_setPair line]
      simp [KeyValue.piecesBeforeKey, KeyValue.piecesBetween, String.append_assoc]
    · have replaced : KeyValue.Legible { kv with value := { kv.value with
          source := kv'.value.source, kind := kv'.value.kind, hint := kv'.value.hint } } :=
        ⟨pairLegible.before, pairLegible.markers, pairLegible.key, pairLegible.afterKey,
          ⟨pairLegible.value.before, pairLegible.value.markers, value.spelled⟩⟩
      have reread := readString_print_setLine found line (legible.setPair replaced) front rfl
      rw [Document.print_setPair line] at reread ⊢
      exact reread
  · rintro n ⟨a, x, kv', readAlone, single, pairAlone, rfl⟩
    have key := ((legible_of_single readAlone single).pair pairAlone).key
    refine ⟨_, Document.mapKeyValue?_eq_some line pair _, ?_, ?_, ?_⟩
    · rw [whole]
      simp [String.append_assoc]
    · rw [Document.print_setPair line]
      simp [KeyValue.piecesBeforeKey, KeyValue.piecesBetween, String.append_assoc]
    · have replaced : KeyValue.Legible { kv with key := { kv.key with name := kv'.key.name } } :=
        ⟨pairLegible.before, pairLegible.markers,
          ⟨pairLegible.key.before, pairLegible.key.markers, key.spelled⟩, pairLegible.afterKey,
          pairLegible.value⟩
      exact readString_print_setLine found line (legible.setPair replaced) front rfl

theorem readString_token_edit_commented :
    let options : Options := { computeChecksum := false }
    let d := singleLine (pairLine "a" "1" .integer (some (.integer 1)) (some { text := "#c" })) {}
    readString options "a = 1#c" = .ok d ∧
      (∃ edited, d.setLiteralSource? 0 "[2]" = some edited ∧ edited.print = "a = [2]#c" ∧
        ∃ r, readString options "a = [2]#c" = .ok r ∧
          r.bare = (singleLine (pairLine "a" "[2]" .array none (some { text := "#c" })) {}).bare) ∧
      ∃ edited, d.setKeyName? 0 "x.'y'" = some edited ∧ edited.print = "x.'y' = 1#c" ∧
        ∃ r, readString options "x.'y' = 1#c" = .ok r ∧ r.bare = edited.bare := by
  intro options d
  have found : readString options "a = 1#c" = .ok d := ok_of_toOption (by decide +kernel)
  have value : ReadsAsValue options "[2]" _ := ⟨singleLine (pairLine "k" "[2]" .array none none) {},
    _, _, ok_of_toOption (by decide +kernel), rfl, rfl, rfl, rfl, rfl, rfl⟩
  have key : ReadsAsKey options "x.'y'" :=
    ⟨singleLine (pairLine "x.'y'" "1" .integer (some (.integer 1)) none) {}, _, _,
      ok_of_toOption (by decide +kernel), rfl, rfl, rfl⟩
  have edits := readString_token_edit options "a = 1#c" d 0 _ _ found rfl rfl
  obtain ⟨edited, reread, set, mapped, token⟩ := edits.1 _ _ value
  obtain ⟨renamed, set', token'⟩ := edits.2 _ key
  refine ⟨found, ⟨edited, set, token.print, ?_⟩, renamed, set', token'.print, ?_⟩
  · obtain ⟨r, reads, same⟩ := token.reads
    rw [token.print] at reads
    obtain rfl := Option.some.inj mapped
    exact ⟨r, reads, same⟩
  · obtain ⟨r, reads, same⟩ := token'.reads
    rw [token'.print] at reads
    exact ⟨r, reads, same⟩

/-! ### Spaces -/

/-- A space of a document: in front of a line, between the key of a line and its equals sign, in
front of the value of a line, or in front of its comment. -/
inductive Slot where
  | expression (line : Nat)
  | afterKey (line : Nat)
  | literal (line : Nat)
  | comment (line : Nat)

namespace Slot

/-- The texts that may stand in a slot: spaces and tabs inside a line, filler in front of the first
line, and a line break with filler behind it in front of the others. -/
def Allows : Slot → List Char → Prop
  | expression 0 => Filler
  | expression (_ + 1) => Separator
  | afterKey _ | literal _ | comment _ => Indents

/-- The line of a slot. -/
def line : Slot → Nat
  | expression i | afterKey i | literal i | comment i => i

/-- The space in a slot. -/
def space? (d : Document) : Slot → Option Space
  | expression i => d.expressions[i]?.map (·.before)
  | afterKey i => (d.expressions[i]?.bind (·.keyValue?)).map (·.afterKey)
  | literal i => (d.expressions[i]?.bind (·.keyValue?)).map (·.value.before)
  | comment i => (d.expressions[i]?.bind (·.comment)).map (·.before)

/-- The document that an edit of a slot gives. -/
def replace? (d : Document) (new : Space) : Slot → Option Document
  | expression i => d.setBefore? (.expression i) new
  | afterKey i => d.setAfterKey? i new
  | literal i => d.setBefore? (.literal i) new
  | comment i => d.setBefore? (.comment i) new

/-- A line with a change made to its pair, if it has one. -/
def onPair (f : KeyValue → KeyValue) (e : Expression) : Expression :=
  match e.item with
  | some (.keyValue kv) => { e with item := some (.keyValue (f kv)) }
  | _ => e

/-- A line with another space in the slot. -/
def change (new : Space) : Slot → Expression → Expression
  | expression _, e => { e with before := new }
  | afterKey _, e => onPair (fun kv => { kv with afterKey := new }) e
  | literal _, e => onPair (fun kv => { kv with value := { kv.value with before := new } }) e
  | comment _, e => { e with comment := e.comment.map fun c => { c with before := new } }

/-- The document with another space in a slot and with everything else as it is. -/
def put (d : Document) (new : Space) (slot : Slot) : Document :=
  { d with expressions := d.expressions.modify slot.line (slot.change new) }

/-- Another space in a slot changes only the line of the slot, and the line stays legible if the new
text may stand there. -/
structure Edits (slot : Slot) (d : Document) (new : Space) (e e' : Expression) : Prop where
  line : d.expressions[slot.line]? = some e
  changed : slot.change new e = e'
  replaced : slot.replace? d new = some (d.setLine slot.line e')
  stands : slot.space? (d.setLine slot.line e') = some new
  noted : e'.comment.isSome = e.comment.isSome
  legible : slot.Allows new.chars → e.Legible → e'.Legible
  front : slot.Allows new.chars →
    Before (if slot.line = 0 then none else some true) e.before.chars →
      Before (if slot.line = 0 then none else some true) e'.before.chars

variable {slot : Slot} {old new : Space} {d : Document} {e e' : Expression} {kv : KeyValue}

theorem onPair_eq (pair : e.keyValue? = some kv) (f : KeyValue → KeyValue) :
    onPair f e = { e with item := some (.keyValue (f kv)) } := by
  simp only [onPair, Expression.item_of_keyValue? pair]

theorem Edits.put_eq (h : Edits slot d new e e') : slot.put d new = d.setLine slot.line e' := by
  simp [put, Document.setLine, List.modify_eq_set_getElem?, h.line, h.changed]

theorem exists_edits (here : slot.space? d = some old) (new : Space) :
    ∃ e e', Edits slot d new e e' := by
  cases slot with
  | expression i =>
    obtain ⟨e, line, _⟩ := Option.map_eq_some_iff.mp here
    refine ⟨e, { e with before := new }, line, rfl, ?_, ?_, rfl, ?_, ?_⟩
    · simp [replace?, Document.setBefore?, Document.surroundings?, line, Document.setSurroundings?,
        Document.mapLine?, Document.setLine, Slot.line]
    · simp [space?, Slot.line, Document.getElem?_setLine line]
    · exact fun _ legible => ⟨legible.markers, legible.item, legible.comment⟩
    · intro legal _
      cases i with
      | zero => exact legal
      | succ i => exact legal
  | afterKey i =>
    simp only [space?, Option.map_eq_some_iff, Option.bind_eq_some_iff] at here
    obtain ⟨kv, ⟨e, line, pair⟩, _⟩ := here
    refine ⟨e, _, line, onPair_eq pair _, Document.mapKeyValue?_eq_some line pair _, ?_, rfl, ?_,
      fun _ h => h⟩
    · simp [space?, Slot.line, Document.getElem?_setLine line, Expression.keyValue?]
    · intro legal legible
      have inside := legible.pair pair
      exact legible.setPair
        ⟨inside.before, inside.markers, inside.key, legal, inside.value⟩
  | literal i =>
    simp only [space?, Option.map_eq_some_iff, Option.bind_eq_some_iff] at here
    obtain ⟨kv, ⟨e, line, pair⟩, _⟩ := here
    refine ⟨e, _, line, onPair_eq pair _, ?_, ?_, rfl, ?_, fun _ h => h⟩
    · simp [replace?, Document.setBefore?, Document.surroundings?, line, pair,
        Document.setSurroundings?, Document.mapKeyValue?_eq_some line pair, Slot.line]
    · simp [space?, Slot.line, Document.getElem?_setLine line, Expression.keyValue?]
    · intro legal legible
      have inside := legible.pair pair
      exact legible.setPair ⟨inside.before, inside.markers, inside.key, inside.afterKey,
        ⟨legal, inside.value.markers, inside.value.spelled⟩⟩
  | comment i =>
    simp only [space?, Option.map_eq_some_iff, Option.bind_eq_some_iff] at here
    obtain ⟨c, ⟨e, line, noted⟩, _⟩ := here
    refine ⟨e, { e with comment := some { c with before := new } }, line, ?_, ?_, ?_, ?_, ?_,
      fun _ h => h⟩
    · simp [change, noted]
    · simp [replace?, Document.setBefore?, Document.surroundings?, line, noted,
        Document.setSurroundings?, Document.mapLine?, Document.setLine, Slot.line]
    · simp [space?, Slot.line, Document.getElem?_setLine line]
    · simp [noted]
    · intro legal legible
      have inside := legible.comment c noted
      refine ⟨legible.markers, legible.item, ?_⟩
      rintro _ ⟨⟩
      exact ⟨legal, inside.markers, inside.text⟩

end Slot

/-- A space of a document that was read can be replaced by any text for its place. Nothing else
changes in the edited document, and the printed document is read as the edited one. -/
theorem readString_space_edit (options : Options) (s : String) (d : Document) (slot : Slot)
    (old new : Space) (found : readString options s = .ok d) (here : slot.space? d = some old)
    (legal : slot.Allows new.chars) : ∃ edited d', slot.replace? d new = some edited ∧
      edited = slot.put d new ∧ slot.space? edited = some new ∧
      readString options edited.print = .ok d' ∧ d'.bare = edited.bare := by
  obtain ⟨e, e', edits⟩ := Slot.exists_edits here new
  obtain ⟨_, whole⟩ := fresh_of_readString found
  obtain ⟨front, legible⟩ := whole.lines.line edits.line
  obtain ⟨d', reread, same⟩ := readString_print_setLine found edits.line
    (edits.legible legal legible) (edits.front legal front) edits.noted
  exact ⟨_, d', edits.replaced, edits.put_eq.symm, edits.stands, reread, same⟩

theorem readString_space_edit_comment_line :
    let options : Options := { computeChecksum := false }
    let d := singleLine (pairLine "a" "1" .integer (some (.integer 1)) none) {}
    readString options "a = 1" = .ok d ∧
      ∃ edited r, d.setBefore? (.expression 0) ⟨"#b\n\t"⟩ = some edited ∧
        edited.print = "#b\n\ta = 1" ∧ readString options edited.print = .ok r ∧
        r.bare = edited.bare := by
  intro options d
  have found : readString options "a = 1" = .ok d := ok_of_toOption (by decide +kernel)
  have legal : (Slot.expression 0).Allows (Space.chars ⟨"#b\n\t"⟩) := by
    have line : Filler ('#' :: ['b'] ++ ['\n'] ++ ['\t']) :=
      .comment (by simp [OneLine, isLineEnd]) (Or.inl rfl) (.indent rfl .nil)
    exact line
  obtain ⟨edited, r, set, _, _, reads, same⟩ :=
    readString_space_edit options "a = 1" d (.expression 0) {} ⟨"#b\n\t"⟩ found rfl legal
  obtain rfl := Option.some.inj set
  exact ⟨found, _, r, rfl, by decide +kernel, reads, same⟩

end Reader

end Verbatim
