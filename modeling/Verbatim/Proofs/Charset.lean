import Verbatim.Charset

/-!
# Charsets lose nothing

Whatever bytes are read, the text that they give is written back as the same bytes
(`encode_decode`). For UTF-8 this is the mark, which is taken off only in front of valid text, and
the text behind it; bytes that are read as ISO-8859-1 keep the bytes of a mark as characters.
-/

namespace Verbatim.Charset

/-- The bytes of a decoded text. -/
abbrev Decoded.encode (d : Decoded) : Except EncodeError (List UInt8) :=
  Charset.encode d.text d.charset d.marked

/-! ### UTF-8 -/

theorem toUTF8_of_fromUTF8? {b : ByteArray} {s : String} (h : String.fromUTF8? b = some s) :
    s.toUTF8 = b := by
  unfold String.fromUTF8? at h
  split at h
  · cases h
    rfl
  · cases h

theorem encode_utf8 (text : String) (marked : Bool) :
    encode text utf8 marked =
      .ok ((if marked then mark else []) ++ text.toUTF8.data.toList) := by
  simp [encode]

/-! ### ISO-8859-1 -/

theorem latin1_ne_utf8 : latin1 ≠ utf8 := by decide

/-- The flag for the mark is not looked at. -/
theorem encode_latin1_eq_mapM (text : String) (marked : Bool) :
    encode text latin1 marked = text.toList.mapM latin1Byte := by
  rw [encode, if_neg latin1_ne_utf8, if_pos rfl]

/-- Every byte is one character. -/
theorem latin1Byte_latin1Char (b : UInt8) : latin1Byte (latin1Char b) = .ok b := by
  have small : b.toNat < 256 := b.toNat_lt
  have value : (latin1Char b).toNat = b.toNat := by
    have valid : b.toNat.isValidChar := Or.inl (by omega)
    rw [latin1Char, Char.ofNat, dif_pos valid]
    rfl
  rw [latin1Byte, value, if_pos small, UInt8.ofNat_toNat]

theorem mapM_latin1Byte (bytes : List UInt8) :
    (bytes.map latin1Char).mapM latin1Byte = .ok bytes := by
  induction bytes with
  | nil => rfl
  | cons b bytes ih =>
    rw [List.map_cons, List.mapM_cons, latin1Byte_latin1Char, ih]
    rfl

theorem encode_latin1 (bytes : List UInt8) (marked : Bool) :
    encode (String.ofList (bytes.map latin1Char)) latin1 marked = .ok bytes := by
  rw [encode_latin1_eq_mapM, String.toList_ofList]
  exact mapM_latin1Byte bytes

/-! ### All bytes -/

/-- A mark that counts is written back in front of the text. -/
theorem mark_append_body (bytes : List UInt8) :
    (if mark.isPrefixOf bytes then mark else []) ++
      (if mark.isPrefixOf bytes then bytes.drop mark.length else bytes) = bytes := by
  split
  next h =>
    obtain ⟨rest, rfl⟩ := List.isPrefixOf_iff_prefix.mp h
    simp
  · rfl

theorem encode_decode (bytes : List UInt8) : (decode bytes).encode = .ok bytes := by
  rw [Decoded.encode, decode]
  split
  next text valid =>
    have body := congrArg (·.data.toList) (toUTF8_of_fromUTF8? valid)
    rw [encode_utf8, body, mark_append_body]
  · exact encode_latin1 bytes false

/-- A text that is already decoded is UTF-8. -/
theorem ofText_charset (text : String) : (ofText text).charset = utf8 := by
  rw [ofText]
  split
  · split <;> rfl
  · rfl

end Verbatim.Charset
