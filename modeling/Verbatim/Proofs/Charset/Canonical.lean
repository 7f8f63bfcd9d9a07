import Verbatim.Proofs.Charset

/-!
# Texts that come back from their bytes

The charset of bytes is told from the bytes alone, so that a text is not always read from the bytes
it was written as. The bytes of a text in UTF-8 start with a mark exactly if the text starts with
the character of the mark (`mark_prefix_utf8Bytes`), so they are read as the text is taken when it is
already decoded (`decode_utf8Bytes`). With this, the texts that come back are those in whose bytes
no other charset and no other mark can be seen (`decode_encode_iff`).
-/

namespace Verbatim.Charset

variable {text charset : String} {marked : Bool} {bytes : List UInt8} {s : List Char}

/-- The bytes of a text in UTF-8, without a mark. -/
def utf8Bytes (text : String) : List UInt8 := text.toUTF8.data.toList

/-- Bytes that are those of some text in UTF-8. -/
def IsUtf8 (bytes : List UInt8) : Prop := ∃ text, utf8Bytes text = bytes

/-- The bytes behind a mark, or all of them if there is no mark. -/
def behindMark (bytes : List UInt8) : List UInt8 :=
  if [0xEF, 0xBB, 0xBF].isPrefixOf bytes then bytes.drop 3 else bytes

/-- The text starts with the character of the mark. -/
def StartsWithMark (text : String) : Prop := text.toList.head? = some '\uFEFF'

instance : Decidable (StartsWithMark text) :=
  inferInstanceAs (Decidable (text.toList.head? = some '\uFEFF'))

/-! ### Marks -/

theorem behindMark_eq (bytes : List UInt8) :
    behindMark bytes = if mark.isPrefixOf bytes then bytes.drop mark.length else bytes := rfl

theorem startsWithMark_iff : StartsWithMark text ↔ text.toList.head? = some markChar := Iff.rfl

theorem utf8Bytes_append (front rest : String) :
    utf8Bytes (front ++ rest) = utf8Bytes front ++ utf8Bytes rest := by
  simp [utf8Bytes, String.toUTF8_eq_toByteArray, String.toByteArray_append]

theorem utf8Bytes_markChar : utf8Bytes (String.singleton markChar) = mark := by
  decide

theorem StartsWithMark.exists_rest (h : StartsWithMark text) :
    ∃ rest, text = String.singleton markChar ++ rest := by
  obtain ⟨rest, split⟩ := List.head?_eq_some_iff.mp (startsWithMark_iff.mp h)
  refine ⟨String.ofList rest, ?_⟩
  rw [← String.ofList_cons, ← split, String.ofList_toList]

/-- The bytes of a text start with the mark exactly if the text starts with its character. -/
theorem mark_prefix_utf8Bytes : mark <+: utf8Bytes text ↔ StartsWithMark text := by
  constructor
  · rintro ⟨rest, split⟩
    -- no character but that of the mark has an encoding that starts with the mark
    have encoded : [markChar].utf8Encode ++ ByteArray.mk rest.toArray = text.toList.utf8Encode := by
      rw [String.utf8Encode_toList, ← String.toUTF8_eq_toByteArray]
      apply ByteArray.ext
      apply Array.toList_inj.mp
      rw [ByteArray.toList_data_append]
      exact split
    obtain ⟨rest, same⟩ := List.isPrefix_of_utf8Encode_append_eq_utf8Encode _ encoded
    rw [startsWithMark_iff, ← same]
    rfl
  · intro starts
    obtain ⟨rest, rfl⟩ := starts.exists_rest
    rw [utf8Bytes_append, utf8Bytes_markChar]
    exact List.prefix_append _ _

theorem behindMark_append (bytes : List UInt8) : behindMark (mark ++ bytes) = bytes := by
  rw [behindMark_eq, if_pos (List.isPrefixOf_iff_prefix.mpr (List.prefix_append _ _)), List.drop_left]

theorem behindMark_eq_self (h : ¬ mark <+: bytes) : behindMark bytes = bytes := by
  rw [behindMark_eq, if_neg (mt List.isPrefixOf_iff_prefix.mp h)]

/-! ### Reading UTF-8 -/

theorem fromUTF8?_utf8Bytes (text : String) :
    String.fromUTF8? (ByteArray.mk (utf8Bytes text).toArray) = some text := by
  have bytes : ByteArray.mk (utf8Bytes text).toArray = text.toUTF8 := rfl
  rw [bytes, String.toUTF8_eq_toByteArray, String.fromUTF8?, dif_pos text.isValidUTF8]
  rfl

theorem isUtf8_of_fromUTF8? (h : String.fromUTF8? (ByteArray.mk bytes.toArray) = some text) :
    utf8Bytes text = bytes := by
  rw [utf8Bytes, toUTF8_of_fromUTF8? h]

theorem decode_eq (bytes : List UInt8) : decode bytes =
    match String.fromUTF8? (ByteArray.mk (behindMark bytes).toArray) with
    | some text => { text, marked := mark.isPrefixOf bytes }
    | none => { text := String.ofList (bytes.map latin1Char), charset := latin1 } := rfl

theorem isUtf8_iff : IsUtf8 bytes ↔ (ByteArray.mk bytes.toArray).IsValidUTF8 := by
  constructor
  · rintro ⟨text, rfl⟩
    exact text.isValidUTF8
  · intro valid
    exact ⟨String.fromUTF8 _ valid, isUtf8_of_fromUTF8? (dif_pos valid)⟩

instance : Decidable (IsUtf8 bytes) := decidable_of_iff _ isUtf8_iff.symm

/-- Bytes are read as UTF-8 if a text has them behind the mark, or without a mark. -/
theorem decode_of_utf8 (h : utf8Bytes text = behindMark bytes) :
    decode bytes = { text, marked := mark.isPrefixOf bytes } := by
  rw [decode_eq, ← h, fromUTF8?_utf8Bytes]

theorem decode_of_not_utf8 (h : ¬ IsUtf8 (behindMark bytes)) :
    decode bytes = { text := String.ofList (bytes.map latin1Char), charset := latin1 } := by
  rw [decode_eq]
  split
  next text found => exact absurd ⟨text, isUtf8_of_fromUTF8? found⟩ h
  next => rfl

/-- Behind a mark that is written in front, the text is read as it is. -/
theorem decode_mark_append (text : String) :
    decode (mark ++ utf8Bytes text) = { text, marked := true } := by
  rw [decode_of_utf8 (behindMark_append _).symm,
    List.isPrefixOf_iff_prefix.mpr (List.prefix_append _ _)]

theorem decode_utf8Bytes_of_unmarked (h : ¬ StartsWithMark text) :
    decode (utf8Bytes text) = { text } := by
  have front : ¬ mark <+: utf8Bytes text := mt mark_prefix_utf8Bytes.mp h
  rw [decode_of_utf8 (behindMark_eq_self front).symm,
    Bool.eq_false_iff.mpr (mt List.isPrefixOf_iff_prefix.mp front)]

theorem ofText_of_unmarked (h : ¬ StartsWithMark text) : ofText text = { text } := by
  unfold ofText
  split
  next c rest split =>
    refine if_neg ?_
    rintro rfl
    exact h (by rw [startsWithMark_iff, split]; rfl)
  next => rfl

theorem ofText_mark_append (rest : String) :
    ofText (String.singleton markChar ++ rest) = { text := rest, marked := true } := by
  simp [ofText]

/-- The bytes of a text are read as the text is taken when it is already decoded: one character of
the mark is taken off, and no more. -/
theorem decode_utf8Bytes (text : String) : decode (utf8Bytes text) = ofText text := by
  by_cases starts : StartsWithMark text
  · obtain ⟨rest, rfl⟩ := starts.exists_rest
    rw [utf8Bytes_append, utf8Bytes_markChar, decode_mark_append, ofText_mark_append]
  · rw [decode_utf8Bytes_of_unmarked starts, ofText_of_unmarked starts]

/-! ### Writing ISO-8859-1 -/

theorem latin1Char_of_latin1Byte {c : Char} {b : UInt8} (h : latin1Byte c = .ok b) :
    latin1Char b = c := by
  unfold latin1Byte at h
  split at h
  next small =>
    cases h
    have value : (UInt8.ofNat c.toNat).toNat = c.toNat := by
      rw [UInt8.toNat_ofNat']
      exact Nat.mod_eq_of_lt small
    rw [latin1Char, value, Char.ofNat_toNat]
  next => cases h

/-- What is written in ISO-8859-1 comes back character by character. -/
theorem map_latin1Char (h : s.mapM latin1Byte = .ok bytes) : bytes.map latin1Char = s := by
  induction s generalizing bytes with
  | nil =>
    cases h
    rfl
  | cons c s ih =>
    rw [List.mapM_cons] at h
    cases first : latin1Byte c with
    | error e =>
      rw [first] at h
      cases h
    | ok b =>
      cases rest : s.mapM latin1Byte with
      | error e =>
        rw [first, rest] at h
        cases h
      | ok more =>
        rw [first, rest] at h
        cases h
        rw [List.map_cons, latin1Char_of_latin1Byte first, ih rest]

/-- ISO-8859-1 fails at the characters that take more than a byte. -/
theorem mapM_latin1Byte_eq_error_iff :
    (∃ e, s.mapM latin1Byte = .error e) ↔ ∃ c ∈ s, 0xFF < c.toNat := by
  induction s with
  | nil => simp [pure, Except.pure]
  | cons c s ih =>
    simp only [List.mapM_cons, List.mem_cons, exists_eq_or_imp, ← ih]
    by_cases small : c.toNat < 256
    · have first : latin1Byte c = .ok (UInt8.ofNat c.toNat) := if_pos small
      have fits : ¬ 0xFF < c.toNat := by omega
      cases rest : s.mapM latin1Byte <;> simp [first, fits, bind, Except.bind, pure, Except.pure]
    · have first : latin1Byte c = .error (.unencodable c) := if_neg small
      have large : 0xFF < c.toNat := by omega
      simp [first, large, bind, Except.bind]

/-! ### All charsets -/

/-- In UTF-8, a text without a mark of its own comes back if no mark can be seen in it. -/
theorem decode_encode_utf8_iff (h : encode text utf8 marked = .ok bytes) :
    decode bytes = ⟨text, utf8, marked⟩ ↔ marked = true ∨ ¬ StartsWithMark text := by
  rw [encode_utf8] at h
  obtain rfl := Except.ok.inj h
  change decode ((if marked then mark else []) ++ utf8Bytes text) = _ ↔ _
  cases marked with
  | true => simp [decode_mark_append]
  | false =>
    simp only [Bool.false_eq_true, if_false, List.nil_append, false_or]
    constructor
    · intro same starts
      -- the text is read with a mark
      obtain ⟨rest, rfl⟩ := starts.exists_rest
      rw [decode_utf8Bytes, ofText_mark_append] at same
      cases congrArg Decoded.marked same
    · exact decode_utf8Bytes_of_unmarked

/-- In ISO-8859-1, a text comes back if its bytes are not taken for UTF-8. -/
theorem decode_encode_latin1_iff (h : encode text latin1 marked = .ok bytes) :
    decode bytes = ⟨text, latin1, marked⟩ ↔ marked = false ∧ ¬ IsUtf8 (behindMark bytes) := by
  rw [encode_latin1_eq_mapM] at h
  have back : String.ofList (bytes.map latin1Char) = text := by
    rw [map_latin1Char h, String.ofList_toList]
  by_cases valid : IsUtf8 (behindMark bytes)
  · obtain ⟨text', same⟩ := valid
    rw [decode_of_utf8 same]
    constructor
    · intro found
      exact absurd (congrArg Decoded.charset found).symm latin1_ne_utf8
    · rintro ⟨_, invalid⟩
      exact absurd ⟨text', same⟩ invalid
  · rw [decode_of_not_utf8 valid, back]
    simp [valid, eq_comm]

theorem encode_eq_error_iff : (∃ e, encode text charset marked = .error e) ↔
    charset ≠ utf8 ∧ charset ≠ latin1 ∨ charset = latin1 ∧ ∃ c ∈ text.toList, 0xFF < c.toNat := by
  by_cases unicode : charset = utf8
  · subst unicode
    simp [encode, latin1_ne_utf8.symm]
  by_cases single : charset = latin1
  · subst single
    rw [encode_latin1_eq_mapM, mapM_latin1Byte_eq_error_iff]
    simp [latin1_ne_utf8]
  · simp [encode, unicode, single]

theorem utf8_eq : utf8 = "UTF-8" := rfl

theorem latin1_eq : latin1 = "ISO-8859-1" := rfl

/-- Which texts come back from the bytes that they are written as, and which cannot be written. A
text in UTF-8 comes back if it has a mark of its own or does not start with the character of one.
A text in ISO-8859-1 has no mark, and comes back if its bytes, without those of a mark in front, are
not UTF-8. -/
theorem decode_encode_iff (text charset : String) (marked : Bool) :
    (∀ bytes, encode text charset marked = .ok bytes →
      (decode bytes = ⟨text, charset, marked⟩ ↔
        charset = "UTF-8" ∧ (marked = true ∨ ¬ StartsWithMark text) ∨
        charset = "ISO-8859-1" ∧ marked = false ∧ ¬ IsUtf8 (behindMark bytes))) ∧
    ((∃ e, encode text charset marked = .error e) ↔
      charset ≠ "UTF-8" ∧ charset ≠ "ISO-8859-1" ∨
      charset = "ISO-8859-1" ∧ ∃ c ∈ text.toList, 0xFF < c.toNat) := by
  rw [← utf8_eq, ← latin1_eq]
  refine ⟨fun bytes written => ?_, encode_eq_error_iff⟩
  by_cases unicode : charset = utf8
  · subst unicode
    rw [decode_encode_utf8_iff written]
    simp [latin1_ne_utf8.symm]
  by_cases single : charset = latin1
  · subst single
    rw [decode_encode_latin1_iff written]
    simp [latin1_ne_utf8]
  · simp [encode, unicode, single] at written

/-- The bytes of two marks are a mark and its character. The same bytes in front of a byte that is
not UTF-8 are characters of ISO-8859-1, where bytes that are UTF-8 do not come back. -/
theorem decode_encode_iff_marks :
    encode "\uFEFFa" "UTF-8" true = .ok [0xEF, 0xBB, 0xBF, 0xEF, 0xBB, 0xBF, 0x61] ∧
    decode [0xEF, 0xBB, 0xBF, 0xEF, 0xBB, 0xBF, 0x61] = ⟨"\uFEFFa", "UTF-8", true⟩ ∧
    encode "ï»¿é" "ISO-8859-1" false = .ok [0xEF, 0xBB, 0xBF, 0xE9] ∧
    decode [0xEF, 0xBB, 0xBF, 0xE9] = ⟨"ï»¿é", "ISO-8859-1", false⟩ ∧
    encode "Ã©" "ISO-8859-1" false = .ok [0xC3, 0xA9] ∧
    decode [0xC3, 0xA9] ≠ ⟨"Ã©", "ISO-8859-1", false⟩ := by
  have double : encode "\uFEFFa" "UTF-8" true =
      .ok [0xEF, 0xBB, 0xBF, 0xEF, 0xBB, 0xBF, 0x61] := rfl
  have inside : encode "ï»¿é" "ISO-8859-1" false = .ok [0xEF, 0xBB, 0xBF, 0xE9] := rfl
  have mistaken : encode "Ã©" "ISO-8859-1" false = .ok [0xC3, 0xA9] := rfl
  refine ⟨double, ?_, inside, ?_, mistaken, ?_⟩
  · exact ((decode_encode_iff _ _ _).1 _ double).mpr (Or.inl ⟨rfl, Or.inl rfl⟩)
  · exact ((decode_encode_iff _ _ _).1 _ inside).mpr (Or.inr ⟨rfl, rfl, by decide +kernel⟩)
  · rw [Ne, (decode_encode_iff _ _ _).1 _ mistaken]
    decide +kernel

end Verbatim.Charset
