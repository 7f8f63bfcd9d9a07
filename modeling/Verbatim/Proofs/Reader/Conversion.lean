import Verbatim.Proofs.Reader.Accepted

/-!
# Accepted texts become documents

The grammar makes no tree that cannot be built: each node has the parts that its builder asks for,
and every place it is cut at fits the text. So the only failure that a decoded input can meet is
that its text is not TOML. Where an input is read, the text between its tokens has gone to the
spaces that it belongs to.
-/

namespace Verbatim

open Toml (Rule Made)

namespace Build

/-- A node has the alternatives and the parts that a document is built from. -/
structure HasSlots (n : Node) : Prop where
  value : n.rule = .value → ∃ a, valueRules.filterMap n.child? = [a]
  table : n.rule = .table → ∃ a, [Rule.standardTable, .arrayTable].filterMap n.child? = [a]
  expression : n.rule = .expression → ([Rule.keyValue, .table].filterMap n.child?).length ≤ 1
  keyValue : n.rule = .keyValue → ∃ k e v,
    n.child? .key = some k ∧ n.child? .equals = some e ∧ n.child? .value = some v

theorem hasSlots_of_made {n : Node} (made : Made n) : HasSlots n := by
  constructor
  case value =>
    intro rule
    obtain ⟨c, _, one⟩ := value_alternative made rule
    exact ⟨c, one⟩
  case table =>
    intro rule
    obtain ⟨c, _, one⟩ := table_alternative made rule
    exact ⟨c, one⟩
  case expression =>
    intro rule
    obtain ⟨i, known, parts⟩ := made.lineParts rule
    simp [content_alternative parts known]
  case keyValue =>
    intro rule
    obtain ⟨k, e, v, _, _, parts⟩ := made.pairParts rule
    exact ⟨k, e, v, child?_key parts, child?_equals parts, child?_value parts⟩

/-- The document itself is not one of the nodes that have slots, and all others are made. -/
theorem hasSlots_of_accepted {s : List Char} {t n : Node} (accepted : Toml.parse s = .ok t)
    (within : n.Within t) : HasSlots n := by
  have whole := Toml.parse_isDocument accepted
  cases within with
  | self => constructor <;> simp [whole.rule]
  | child member inside => exact hasSlots_of_made (whole.sound _ member n inside)

end Build

namespace Reader

open Build (Node HasSlots)

/-- Every decoded text can be written in its charset. -/
theorem encodes_of_decoded {decoded : Charset.Decoded}
    (h : (∃ bytes, decoded = Charset.decode bytes) ∨ ∃ text, decoded = Charset.ofText text) :
    ∃ bytes, decoded.encode = .ok bytes := by
  rcases h with ⟨bytes, rfl⟩ | ⟨text, rfl⟩
  · exact ⟨bytes, Charset.encode_decode bytes⟩
  · unfold Charset.Decoded.encode
    rw [Charset.ofText_charset]
    exact ⟨_, Charset.encode_utf8 _ _⟩

/-- The tree of an accepted text is built, whatever else is known about the text, and has all slots.
So reading decoded text gives a document, or fails because the grammar rejects the text. -/
theorem conversion_total :
    (∀ (text : String) (t : Node), Toml.parse text.toList = .ok t →
      (∀ origin firstId, ∃ d, ((Builder.mk text.toList origin {}).build t firstId).1 = .ok d) ∧
      ∀ n : Node, n.Within t → HasSlots n) ∧
    ∀ (options : Options) (input : Input),
      (∃ bytes, input.decoded = Charset.decode bytes) ∨
        (∃ text, input.decoded = Charset.ofText text) →
      (∃ d, read options input = .ok d) ∨
        ∃ f, read options input = .error f ∧ f.diagnostic.kind = .parse := by
  constructor
  · intro text t accepted
    refine ⟨fun origin firstId => ?_, fun n within => Build.hasSlots_of_accepted accepted within⟩
    obtain ⟨d, built, _⟩ := build_of_accepted accepted origin firstId
    exact ⟨d, built⟩
  · intro options input decoded
    obtain ⟨bytes, encodes⟩ := encodes_of_decoded decoded
    cases found : read options input with
    | ok d => exact Or.inl ⟨d, rfl⟩
    | error f =>
      obtain ⟨e, rfl⟩ := notToml_of_read encodes found
      exact Or.inr ⟨_, rfl, rfl⟩

theorem conversion_total_header :
    (∃ t, Toml.parse "[a] # b".toList = .ok t ∧ HasSlots t ∧
      ∃ d, ((Builder.mk "[a] # b".toList ⟨"a.toml", "UTF-8", false, none, none⟩ {}).build t 1).1 =
        .ok d) ∧
    ((∃ d, read {} (.ofBytes "a.toml" [0xEF]) = .ok d) ∨
      ∃ f, read {} (.ofBytes "a.toml" [0xEF]) = .error f ∧ f.diagnostic.kind = .parse) := by
  constructor
  · obtain ⟨t, accepted⟩ := exists_ok_of_isOk (x := Toml.parse "[a] # b".toList)
      (by decide +kernel)
    obtain ⟨built, slots⟩ := conversion_total.1 "[a] # b" t accepted
    exact ⟨t, accepted, slots t (.self t), built _ 1⟩
  · exact conversion_total.2 {} (.ofBytes "a.toml" [0xEF]) (Or.inl ⟨[0xEF], rfl⟩)

/-- In a document that was read, every space has the shape of its place: nothing before the
document, a pair, a key or a header; spaces and tabs inside a line; whole lines of filler between
lines; and trivia at the end. -/
theorem readString_wellSpaced (options : Options) (text : String) (d : Document)
    (h : readString options text = .ok d) : d.WellSpaced :=
  (fresh_of_read (Charset.encode_utf8 text false) h).spaced

theorem readString_wellSpaced_commented :
    ∃ d, readString {} "\n# a\r\nb = 1\t# c\u3000\n\n[d]" = .ok d ∧ d.WellSpaced := by
  obtain ⟨d, found⟩ := exists_ok_of_isOk
    (x := readString {} "\n# a\r\nb = 1\t# c\u3000\n\n[d]") (by decide +kernel)
  exact ⟨d, found, readString_wellSpaced {} _ d found⟩

end Reader

end Verbatim
