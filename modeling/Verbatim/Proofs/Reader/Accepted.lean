import Verbatim.Proofs.Charset
import Verbatim.Proofs.Document.Legible
import Verbatim.Reader

/-!
# What becomes of a text

Reading comes down to two cases. A text that the grammar rejects fails as such
(`read_of_rejected`). An accepted text whose charset has all its characters is built, and nothing
else that the reader does can fail: the checksum has bytes to count, and the comparison with the
printed document succeeds (`read_of_accepted`). Every decoded text is of this kind.
-/

namespace Verbatim

open Charset (Decoded)

variable {options : Options} {input : Input} {text : String} {bytes : List UInt8}
  {t : Peg.Tree Toml.Rule} {d : Document}

theorem exists_ok_of_isOk {ε α : Type} {x : Except ε α} (h : x.isOk = true) : ∃ a, x = .ok a := by
  cases x with
  | error e => cases h
  | ok a => exact ⟨a, rfl⟩

theorem exists_error_of_isOk {ε α : Type} {x : Except ε α} (h : x.isOk = false) :
    ∃ e, x = .error e := by
  cases x with
  | error e => exact ⟨e, rfl⟩
  | ok a => cases h

theorem ok_of_toOption {ε α : Type} {x : Except ε α} {a : α} (h : x.toOption = some a) :
    x = .ok a := by
  cases x with
  | error e => cases h
  | ok b => exact congrArg Except.ok (Option.some.inj h)

namespace Reader

/-- A document as it is read from a text. -/
structure Fresh (text : String) (origin : Origin) (d : Document) : Prop where
  prints : d.print = text
  legible : d.Legible
  checksum : d.checksum = origin.checksum
  origin : d.origin = { origin with checksum := none }

theorem Fresh.spaced {origin : Origin} (h : Fresh text origin d) : d.WellSpaced :=
  h.legible.wellSpaced

theorem Fresh.charset {origin : Origin} (h : Fresh text origin d) : d.charset = origin.charset :=
  congrArg Origin.charset h.origin

theorem Fresh.marked {origin : Origin} (h : Fresh text origin d) : d.marked = origin.marked :=
  congrArg Origin.marked h.origin

/-- The lines of an accepted text are built, with any origin and any identities. -/
theorem build_of_lines (accepted : Toml.parse text.toList = .ok t) {es : List Expression}
    {left : List Char} (lines : Build.LinesOf 0 text.toList t.children es left) (origin : Origin)
    (firstId : Nat) : ((Builder.mk text.toList origin {}).build t firstId).1 =
      .ok (Document.number firstId
        { origin with before := {}, expressions := es, trailing := Space.ofList left }) := by
  rw [Builder.build, Build.yields_document (Toml.parse_isDocument accepted) lines origin]
  rfl

/-- The tree of an accepted text is built, with any origin and any identities. -/
theorem build_of_accepted (accepted : Toml.parse text.toList = .ok t) (origin : Origin)
    (firstId : Nat) : ∃ d, ((Builder.mk text.toList origin {}).build t firstId).1 = .ok d ∧
      Fresh text origin d := by
  have whole := Toml.parse_isDocument accepted
  obtain ⟨es, left, lines, continues, printed⟩ :=
    exists_legible whole.lines whole.sound le_rfl (show Text.Filler = Before none from rfl)
      whole.bare
  have legible : Document.Legible
      { origin with before := {}, expressions := es, trailing := Space.ofList left } :=
    ⟨rfl, rfl, by simpa using continues⟩
  refine ⟨_, build_of_lines accepted lines origin firstId, ?_⟩
  constructor
  case prints =>
    rw [← String.toList_inj, Document.print, Document.pieces_number, ← Document.print,
      legible.toList_print]
    simpa using printed
  case legible => exact legible.number firstId
  all_goals rfl

/-- What is known of a document that is read, besides its text. -/
def originOf (options : Options) (input : Input) (bytes : List UInt8) : Origin where
  path := input.path
  charset := input.decoded.charset
  marked := input.decoded.marked
  checksum := if options.computeChecksum then some (Checksum.ofBytes bytes) else none
  attributes := input.attributes

theorem read_of_rejected {e : Toml.SyntaxError}
    (rejected : Toml.parse input.decoded.text.toList = .error e) :
    read options input = .error (.notToml input.path input.decoded.text e) := by
  simp [read, tree, rejected, Except.mapError, bind, Except.bind]

/-- An accepted text is built and comes back, whatever the options ask for. -/
theorem read_of_accepted (encodes : input.decoded.encode = .ok bytes)
    (accepted : Toml.parse input.decoded.text.toList = .ok t) :
    ∃ d, Fresh input.decoded.text (originOf options input bytes) d ∧
      build input.decoded.text (originOf options input bytes) t = .ok d ∧
      read options input = .ok d := by
  obtain ⟨d, built, fresh⟩ := build_of_accepted accepted (originOf options input bytes) 1
  have parsed : tree input.path input.decoded.text = .ok t := by
    rw [tree, accepted]
    rfl
  have counted : checksum input.decoded = .ok (Checksum.ofBytes bytes) := by
    unfold Decoded.encode at encodes
    rw [checksum, encodes]
    rfl
  have made : build input.decoded.text (originOf options input bytes) t = .ok d := by
    rw [build, built]
    rfl
  have verified : d.verify input.decoded.text input.path = .ok () := by
    rw [Document.verify, if_pos fresh.prints]
  refine ⟨d, fresh, made, ?_⟩
  -- the four settings of the options differ only in steps that succeed
  rw [originOf] at made
  cases checked : options.verifyRoundTrip <;> cases summed : options.computeChecksum
  all_goals
    simp only [summed, Bool.false_eq_true, if_false, if_true] at made
    simp [read, checked, summed, parsed, counted, made, verified, bind, Except.bind, pure,
      Except.pure]

/-- The grammar alone decides which texts are read. -/
theorem isOk_readString (options : Options) (text : String) :
    (readString options text).isOk = (Toml.parse text.toList).isOk := by
  let input : Input := ⟨"<string>", { text }, none⟩
  cases parsed : Toml.parse text.toList with
  | error e =>
    have rejected : readString options text = .error (.notToml input.path text e) :=
      @read_of_rejected options input e parsed
    rw [rejected]
    rfl
  | ok t =>
    have encodes : input.decoded.encode = .ok text.toUTF8.data.toList :=
      Charset.encode_utf8 text false
    obtain ⟨d, _, _, accepted⟩ := read_of_accepted encodes parsed
    have found : readString options text = .ok d := accepted
    rw [found]
    rfl

/-- Whatever is read is fresh from the text. -/
theorem fresh_of_read (encodes : input.decoded.encode = .ok bytes)
    (h : read options input = .ok d) :
    Fresh input.decoded.text (originOf options input bytes) d := by
  cases parsed : Toml.parse input.decoded.text.toList with
  | error e =>
    rw [read_of_rejected parsed] at h
    cases h
  | ok t =>
    obtain ⟨d', fresh, _, found⟩ := read_of_accepted encodes parsed
    rw [found] at h
    cases h
    exact fresh

/-- What is known of a text that has no file. -/
def textOrigin : Origin := { path := "<string>", charset := Charset.utf8, marked := false }

theorem fresh_of_readString (found : readString options text = .ok d) :
    d.print = text ∧ d.Legible :=
  have fresh := fresh_of_read (Charset.encode_utf8 text false) found
  ⟨fresh.prints, fresh.legible⟩

/-- The only line of a text is legible. -/
theorem legible_of_single {e : Expression} (found : readString options text = .ok d)
    (single : d.expressions = [e]) : e.Legible := by
  have lines := (fresh_of_readString found).2.lines
  rw [single] at lines
  exact lines.2.1

theorem origin_of_readString (found : readString options text = .ok d) : d.origin = textOrigin :=
  (fresh_of_read (Charset.encode_utf8 text false) found).origin

/-- A legible document is read from its own text, up to identities and the checksum. -/
theorem readString_print (options : Options) (legible : d.Legible)
    (origin : d.origin = textOrigin) :
    ∃ d', readString options d.print = .ok d' ∧ d'.bare = d.bare := by
  have text := legible.toList_print
  obtain ⟨ts, lines, linesOf, nothing⟩ :=
    legible.lines.exists_lines (congrArg List.length text).ge 0
  rw [← text] at lines linesOf
  have bare : ts = [] → Text.Trivia d.print.toList := by
    intro empty
    have blank := legible.lines
    rw [nothing empty] at blank
    rw [text, nothing empty]
    exact blank
  obtain ⟨t, accepted, children⟩ := Toml.parse_of_lines lines bare
  let input : Input := ⟨"<string>", { text := d.print }, none⟩
  have encodes : input.decoded.encode = .ok d.print.toUTF8.data.toList :=
    Charset.encode_utf8 d.print false
  obtain ⟨d', _, built, reread⟩ :
      ∃ d', Fresh d.print _ d' ∧ build d.print _ t = .ok d' ∧ read options input = .ok d' :=
    read_of_accepted encodes accepted
  refine ⟨d', reread, ?_⟩
  rw [← children] at linesOf
  rw [build, build_of_lines accepted linesOf] at built
  obtain rfl := Except.ok.inj built
  rw [Document.bare_number, Document.bare_eq d, origin, legible.before, legible.markers]
  simp [Document.bare, Function.comp_def, Expression.bare_bare, Space.ofList, Space.chars, originOf,
    textOrigin, input]

/-- A line of a pair with a blank on either side of the equals sign. -/
def pairLine (name source : String) (kind : LiteralKind) (hint : Option Hint)
    (comment : Option Comment) : Expression where
  item := some (.keyValue
    { key := { name }, afterKey := ⟨" "⟩, value := { before := ⟨" "⟩, source, kind, hint } })
  comment

/-- A document of one line, as it is read from a text without a checksum. -/
def singleLine (e : Expression) (trailing : Space) : Document :=
  Document.number 1 { textOrigin with before := {}, expressions := [e], trailing }

/-- The grammar alone decides what is not read. -/
theorem notToml_of_read (encodes : input.decoded.encode = .ok bytes) {f : Failure}
    (h : read options input = .error f) :
    ∃ e, f = .notToml input.path input.decoded.text e := by
  cases parsed : Toml.parse input.decoded.text.toList with
  | error e =>
    rw [read_of_rejected parsed] at h
    cases h
    exact ⟨e, rfl⟩
  | ok t =>
    obtain ⟨_, _, _, found⟩ := read_of_accepted encodes parsed
    rw [found] at h
    cases h

end Reader

end Verbatim
