/-!
# Byte offsets into a text

A text is a list of characters. Places in it are counted in bytes of its UTF-8 form, so a place may
lie inside a character or beyond the end. `dropBytes?`, `takeBytes?` and `slice?` cut a text at such
places and refuse the ones that are not between two characters.
-/

namespace Verbatim.Text

/-- The number of bytes of a text in UTF-8. -/
def byteLength : List Char → Nat
  | [] => 0
  | c :: s => c.utf8Size + byteLength s

@[simp] theorem byteLength_nil : byteLength [] = 0 := rfl

@[simp] theorem byteLength_cons (c : Char) (s : List Char) :
    byteLength (c :: s) = c.utf8Size + byteLength s := rfl

@[simp] theorem byteLength_append (s t : List Char) :
    byteLength (s ++ t) = byteLength s + byteLength t := by
  induction s with
  | nil => simp
  | cons c s ih => simp [ih, Nat.add_assoc]

/-- The text after its first `n` bytes, or `none` if that place is not between two characters. -/
def dropBytes? (n : Nat) : List Char → Option (List Char)
  | [] => if n = 0 then some [] else none
  | c :: s =>
    if n = 0 then some (c :: s)
    else if c.utf8Size ≤ n then dropBytes? (n - c.utf8Size) s
    else none

/-- The first `n` bytes of a text, or `none` if they do not end between two characters. -/
def takeBytes? (n : Nat) : List Char → Option (List Char)
  | [] => if n = 0 then some [] else none
  | c :: s =>
    if n = 0 then some []
    else if c.utf8Size ≤ n then (takeBytes? (n - c.utf8Size) s).map (c :: ·)
    else none

/-- The text between two byte offsets, or `none` if they are out of order or one of them is not
between two characters. -/
def slice? (s : List Char) (start stop : Nat) : Option (List Char) :=
  if start ≤ stop then (dropBytes? start s).bind (takeBytes? (stop - start)) else none

/-- An offset is a boundary of a text if it lies between two characters or at an end. -/
def IsBoundary (s : List Char) (n : Nat) : Prop := ∃ u v, s = u ++ v ∧ byteLength u = n

theorem dropBytes?_append (u v : List Char) : dropBytes? (byteLength u) (u ++ v) = some v := by
  induction u with
  | nil => cases v <;> simp [dropBytes?]
  | cons c u ih =>
    have positive : 0 < c.utf8Size := Char.utf8Size_pos c
    have ne_zero : ¬ c.utf8Size + byteLength u = 0 := by omega
    simp only [List.cons_append, byteLength_cons, dropBytes?, if_neg ne_zero, Nat.le_add_right,
      if_true, Nat.add_sub_cancel_left, ih]

theorem takeBytes?_append (u v : List Char) : takeBytes? (byteLength u) (u ++ v) = some u := by
  induction u with
  | nil => cases v <;> simp [takeBytes?]
  | cons c u ih =>
    have positive : 0 < c.utf8Size := Char.utf8Size_pos c
    have ne_zero : ¬ c.utf8Size + byteLength u = 0 := by omega
    simp only [List.cons_append, byteLength_cons, takeBytes?, if_neg ne_zero, Nat.le_add_right,
      if_true, Nat.add_sub_cancel_left, ih, Option.map_some]

/-- Cutting between two parts of a text gives the part between them. -/
theorem slice?_append (u v w : List Char) :
    slice? (u ++ v ++ w) (byteLength u) (byteLength u + byteLength v) = some v := by
  simp [slice?, List.append_assoc, dropBytes?_append, takeBytes?_append]

end Verbatim.Text
