import Mathlib.Data.List.Forall2
import Mathlib.Data.List.TakeWhile

/-!
# Reading JSON

A reader that takes nothing but well-formed JSON: numbers have no leading zeros, texts hold no bare
control characters and no lone surrogates, the members of an object have names of their own, and
nothing but space stands around a value. `Reads` says of a text that it is taken whole, whatever
space is in front of it. A text in quotes is taken part by part (`parts_append`), and the elements
between two brackets one by one (`enclosed_append`).
-/

namespace Verbatim.Json

/-- What a text in JSON stands for. A number is kept as it is written. -/
inductive Value where
  | null
  | boolean (b : Bool)
  | number (written : String)
  | text (s : String)
  | list (items : List Value)
  | object (members : List (String × Value))
  deriving Repr

/-- Takes something from the front of a text and leaves the rest. -/
abbrev Reader (α : Type) := List Char → Option (α × List Char)

def isSpace (c : Char) : Bool := c = ' ' || c = '\n' || c = '\r' || c = '\t'

/-- What is left behind the space in front. -/
def skipSpace (s : List Char) : List Char := s.dropWhile isSpace

/-! ### Texts in quotes -/

/-- A part of a text in quotes: a character, or 16 bits of one. -/
inductive Part where
  | char (c : Char)
  | unit (n : Nat)

def hexDigit? (c : Char) : Option Nat :=
  if c.isDigit then some (c.toNat - '0'.toNat)
  else if 'a' ≤ c ∧ c ≤ 'f' then some (c.toNat - 'a'.toNat + 10)
  else if 'A' ≤ c ∧ c ≤ 'F' then some (c.toNat - 'A'.toNat + 10)
  else none

/-- The number that hexadecimal digits stand for. -/
def hexNumber? (digits : List Char) : Option Nat :=
  digits.foldlM (fun n c => (hexDigit? c).map (16 * n + ·)) 0

/-- The character that a letter behind a backslash stands for. -/
def escaped? : Char → Option Char
  | '"' => some '"'
  | '\\' => some '\\'
  | '/' => some '/'
  | 'b' => some '\x08'
  | 'f' => some '\x0c'
  | 'n' => some '\n'
  | 'r' => some '\r'
  | 't' => some '\t'
  | _ => none

/-- The parts up to the closing quote. -/
def parts : Reader (List Part)
  | [] => none
  | '"' :: s => some ([], s)
  | '\\' :: 'u' :: a :: b :: c :: d :: s => do
    let n ← hexNumber? [a, b, c, d]
    let (ps, rest) ← parts s
    some (.unit n :: ps, rest)
  | '\\' :: c :: s => do
    let c ← escaped? c
    let (ps, rest) ← parts s
    some (.char c :: ps, rest)
  | c :: s => do
    if c.toNat < 32 then none
    let (ps, rest) ← parts s
    some (.char c :: ps, rest)

/-- The characters of the parts. Two surrogates are one character, and none stands alone. -/
def joinParts : List Part → Option (List Char)
  | [] => some []
  | .char c :: ps => (joinParts ps).map (c :: ·)
  | .unit high :: .unit low :: ps =>
    if 0xD800 ≤ high ∧ high < 0xDC00 ∧ 0xDC00 ≤ low ∧ low < 0xE000 then
      (joinParts ps).map (Char.ofNat (0x10000 + (high - 0xD800) * 0x400 + (low - 0xDC00)) :: ·)
    else if 0xD800 ≤ high ∧ high < 0xE000 then none
    else (joinParts (.unit low :: ps)).map (Char.ofNat high :: ·)
  | .unit n :: ps =>
    if 0xD800 ≤ n ∧ n < 0xE000 then none else (joinParts ps).map (Char.ofNat n :: ·)

/-- The text up to the closing quote. -/
def quoted : Reader String := fun s => do
  let (ps, rest) ← parts s
  let cs ← joinParts ps
  some (String.ofList cs, rest)

/-! ### Numbers and names of constants -/

/-- Some digits, and nothing else. -/
def isDigits (s : List Char) : Bool := s ≠ [] && s.all Char.isDigit

/-- Digits that only start with a zero if there is no other. -/
def isWhole (s : List Char) : Bool := isDigits s && (s.head? ≠ some '0' || s.length = 1)

/-- What is left behind a sign, if there is one. -/
def unsigned : List Char → List Char
  | '+' :: s => s
  | '-' :: s => s
  | s => s

/-- A power of ten with a sign or without, or nothing. -/
def isPower : List Char → Bool
  | [] => true
  | c :: s => (c = 'e' || c = 'E') && isDigits (unsigned s)

/-- A number without a sign in front. -/
def isUnsigned (s : List Char) : Bool :=
  isWhole (s.takeWhile Char.isDigit) &&
    match s.dropWhile Char.isDigit with
    | '.' :: t => isDigits (t.takeWhile Char.isDigit) && isPower (t.dropWhile Char.isDigit)
    | t => isPower t

def isNumber : List Char → Bool
  | '-' :: s => isUnsigned s
  | s => isUnsigned s

/-- The characters of numbers and of the names of constants. -/
def isWordChar (c : Char) : Bool := c.isAlphanum || c = '+' || c = '-' || c = '.'

/-- What a text without quotes and brackets stands for. -/
def word? (s : List Char) : Option Value :=
  if isNumber s then some (.number (String.ofList s))
  else if s = "null".toList then some .null
  else if s = "true".toList then some (.boolean true)
  else if s = "false".toList then some (.boolean false)
  else none

/-! ### Values -/

section

variable {α : Type}

/-- Elements with commas between them, up to the closing bracket. -/
def separated (element : Reader α) (close : Char) : Nat → Reader (List α)
  | 0, _ => none
  | fuel + 1, s => do
    let (a, s) ← element s
    match skipSpace s with
    | [] => none
    | c :: rest =>
      if c = close then some ([a], rest)
      else if c = ',' then
        let (as, rest) ← separated element close fuel rest
        some (a :: as, rest)
      else none

/-- Elements up to the closing bracket, if there are any. -/
def enclosed (element : Reader α) (close : Char) : Reader (List α) := fun s =>
  match skipSpace s with
  | [] => none
  | c :: rest => if c = close then some ([], rest) else separated element close s.length s

end

/-- A name, a colon and a value. -/
def member (value : Reader Value) : Reader (String × Value) := fun s =>
  match skipSpace s with
  | '"' :: s => do
    let (name, s) ← quoted s
    match skipSpace s with
    | ':' :: s => do
      let (v, rest) ← value s
      some ((name, v), rest)
    | _ => none
  | _ => none

/-- A value, with as many brackets inside each other at most. -/
def value : Nat → Reader Value
  | 0, _ => none
  | depth + 1, s =>
    match skipSpace s with
    | '"' :: t => (quoted t).map fun (s, rest) => (.text s, rest)
    | '[' :: t => (enclosed (value depth) ']' t).map fun (vs, rest) => (.list vs, rest)
    | '\x7b' :: t => do
      let (ms, rest) ← enclosed (member (value depth)) '\x7d' t
      if (ms.map Prod.fst).Nodup then some (.object ms, rest) else none
    | t => (word? (t.takeWhile isWordChar)).map fun v => (v, t.dropWhile isWordChar)

attribute [simp] value

/-- The value that a whole text stands for, if it is JSON. -/
def read (s : String) : Option Value := do
  let (v, rest) ← value (s.length + 1) s.toList
  if skipSpace rest = [] then some v else none

/-! ### Texts that are taken whole -/

variable {α : Type} {element : Reader α} {a : α} {s t gap rest w : List Char} {c close : Char}

theorem skipSpace_append (gaps : ∀ c ∈ gap, isSpace c = true) (s : List Char) :
    skipSpace (gap ++ s) = skipSpace s := by
  rw [skipSpace, List.dropWhile_append_of_pos gaps]
  rfl

theorem skipSpace_cons (other : isSpace c = false) (s : List Char) :
    skipSpace (c :: s) = c :: s := by
  rw [skipSpace, List.dropWhile_cons_of_neg (by simp [other])]

/-- No number or name goes on. -/
def EndsWord (rest : List Char) : Prop := ∀ c ∈ rest.head?, isWordChar c = false

theorem EndsWord.cons (other : isWordChar c = false) (s : List Char) : EndsWord (c :: s) := by
  simpa [EndsWord] using other

theorem isWordChar_of_isSpace (space : isSpace c = true) : isWordChar c = false := by
  simp only [isSpace, Bool.or_eq_true, decide_eq_true_eq] at space
  rcases space with ((rfl | rfl) | rfl) | rfl <;> rfl

theorem EndsWord.append (gaps : ∀ c ∈ gap, isSpace c = true) (h : EndsWord s) :
    EndsWord (gap ++ s) := by
  cases gap with
  | nil => exact h
  | cons c gap => exact .cons (isWordChar_of_isSpace (gaps c List.mem_cons_self)) _

/-- A reader takes the whole of a text, behind any space and in front of anything that does not go
on with a word. The text starts like no closing bracket. -/
structure Reads (element : Reader α) (w : List Char) (a : α) : Prop where
  opens : ∃ c t, w = c :: t ∧ isSpace c = false ∧ c ≠ ']' ∧ c ≠ '\x7d'
  takes : ∀ gap rest, (∀ c ∈ gap, isSpace c = true) → EndsWord rest →
    element (gap ++ (w ++ rest)) = some (a, rest)

theorem Reads.ne_nil (h : Reads element w a) : w ≠ [] := by
  obtain ⟨c, t, rfl, _⟩ := h.opens
  exact List.cons_ne_nil c t

/-- What closes a list or an object. -/
structure Closes (close : Char) : Prop where
  bracket : close = ']' ∨ close = '\x7d'

theorem Closes.isSpace (h : Closes close) : isSpace close = false := by
  obtain rfl | rfl := h.bracket <;> rfl

theorem Closes.isWordChar (h : Closes close) : isWordChar close = false := by
  obtain rfl | rfl := h.bracket <;> rfl

theorem Closes.ne_comma (h : Closes close) : close ≠ ',' := by
  obtain rfl | rfl := h.bracket <;> decide

theorem Closes.ne_head (h : Closes close) (reads : Reads element w a) :
    ∃ c t, w = c :: t ∧ Json.isSpace c = false ∧ c ≠ close := by
  obtain ⟨c, t, rfl, other, noList, noObject⟩ := reads.opens
  refine ⟨c, t, rfl, other, ?_⟩
  obtain rfl | rfl := h.bracket
  · exact noList
  · exact noObject

section

variable {sep last : List Char} {ws : List (List Char)} {as : List α}

/-- The elements between brackets are read with any number of turns that is enough. -/
theorem separated_append (closes : Closes close) (seps : ∀ c ∈ sep, isSpace c = true)
    (lasts : ∀ c ∈ last, isSpace c = true) (words : List.Forall₂ (Reads element) ws as)
    (some_words : ws ≠ []) : ∀ {gap : List Char} {fuel : Nat}, (∀ c ∈ gap, isSpace c = true) →
      ws.length ≤ fuel →
      separated element close fuel
        (gap ++ ((',' :: sep).intercalate ws ++ (last ++ close :: rest))) = some (as, rest) := by
  induction words with
  | nil => exact absurd rfl some_words
  | @cons w a ws as reads words ih =>
    intro gap fuel gaps enough
    obtain ⟨fuel, rfl⟩ : ∃ k, fuel = k + 1 := ⟨fuel - 1, by simp at enough; omega⟩
    cases words with
    | nil =>
      have taken := reads.takes gap (last ++ close :: rest) gaps
        (.append lasts (.cons closes.isWordChar rest))
      simp [separated, taken, skipSpace_append lasts, skipSpace_cons closes.isSpace]
    | @cons w' a' ws as reads' words =>
      have taken := reads.takes gap
        (',' :: (sep ++ ((',' :: sep).intercalate (w' :: ws) ++ (last ++ close :: rest)))) gaps
        (.cons rfl _)
      have others := ih (List.cons_ne_nil _ _) seps (Nat.le_of_succ_le_succ enough)
      rw [List.intercalate_cons_cons]
      simp only [List.append_assoc, List.cons_append] at taken ⊢
      simp [separated, taken, skipSpace_cons (show isSpace ',' = false from rfl),
        closes.ne_comma.symm, others]

theorem length_le_intercalate (sep : List Char) (nonempty : ∀ w ∈ ws, w ≠ []) :
    ws.length ≤ (sep.intercalate ws).length := by
  induction ws with
  | nil => simp
  | cons w ws ih =>
    have here := List.length_pos_iff.mpr (nonempty w List.mem_cons_self)
    have others := ih fun w' member => nonempty w' (List.mem_cons_of_mem w member)
    cases ws with
    | nil =>
      simp only [List.length_cons, List.length_nil, List.intercalate_singleton]
      omega
    | cons w' ws =>
      rw [List.intercalate_cons_cons]
      simp only [List.length_cons, List.length_append] at others ⊢
      omega

theorem length_le_of_mem_intercalate (sep : List Char) (member : w ∈ ws) :
    w.length ≤ (sep.intercalate ws).length := by
  induction ws with
  | nil => cases member
  | cons w' ws ih =>
    cases ws with
    | nil => simp_all
    | cons w'' ws =>
      rw [List.intercalate_cons_cons]
      simp only [List.length_append]
      obtain rfl | member := List.mem_cons.mp member
      · omega
      · have := ih member
        omega

theorem ne_nil_of_reads (words : List.Forall₂ (Reads element) ws as) : ∀ w ∈ ws, w ≠ [] := by
  induction words with
  | nil => simp
  | cons reads _ ih => simpa using ⟨reads.ne_nil, ih⟩

/-- Elements are read up to the closing bracket. -/
theorem enclosed_append (closes : Closes close) (seps : ∀ c ∈ sep, isSpace c = true)
    (lasts : ∀ c ∈ last, isSpace c = true) (words : List.Forall₂ (Reads element) ws as)
    (some_words : ws ≠ []) (rest : List Char) :
    enclosed element close (sep ++ ((',' :: sep).intercalate ws ++ (last ++ close :: rest))) =
      some (as, rest) := by
  have enough : ws.length ≤
      (sep ++ ((',' :: sep).intercalate ws ++ (last ++ close :: rest))).length := by
    have fits := length_le_intercalate (',' :: sep) (ne_nil_of_reads words)
    simp only [List.length_append]
    omega
  have found : separated element close _
      (sep ++ ((',' :: sep).intercalate ws ++ (last ++ close :: rest))) = some (as, rest) :=
    separated_append closes seps lasts words some_words seps enough
  unfold enclosed
  rw [skipSpace_append seps]
  cases words with
  | nil => exact absurd rfl some_words
  | @cons w a ws as reads words =>
    obtain ⟨c, t, rfl, other, open_⟩ := closes.ne_head reads
    obtain ⟨more, starts⟩ : ∃ more, (',' :: sep).intercalate ((c :: t) :: ws) = c :: more := by
      cases ws with
      | nil => exact ⟨t, by simp⟩
      | cons w' ws => exact ⟨_, by rw [List.intercalate_cons_cons]; rfl⟩
    rw [starts] at found ⊢
    rw [List.cons_append, skipSpace_cons other]
    simpa [open_] using found

theorem enclosed_nil (closes : Closes close) (rest : List Char) :
    enclosed element close (close :: rest) = some ([], rest) := by
  simp [enclosed, skipSpace_cons closes.isSpace]

end

/-! ### Values that are taken whole -/

variable {depth : Nat} {body : List Char} {x : String} {v : Value}

theorem reads_text (taken : ∀ rest, quoted (body ++ rest) = some (x, rest)) :
    Reads (value (depth + 1)) ('"' :: body) (.text x) where
  opens := ⟨'"', body, rfl, rfl, by decide, by decide⟩
  takes gap rest gaps _ := by
    simp [value, skipSpace_append gaps, skipSpace_cons (show isSpace '"' = false from rfl), taken]

/-- A run of characters ends where one of another class follows. -/
theorem span_append {p : Char → Bool} (inside : ∀ c ∈ w, p c = true)
    (outside : ∀ c ∈ rest.head?, p c = false) :
    (w ++ rest).takeWhile p = w ∧ (w ++ rest).dropWhile p = rest := by
  rw [List.takeWhile_append_of_pos inside, List.dropWhile_append_of_pos inside]
  cases rest with
  | nil => simp
  | cons c rest => simp [outside c rfl]

theorem reads_word (found : word? w = some v) (chars : ∀ c ∈ w, isWordChar c = true)
    (some_word : w ≠ []) : Reads (value (depth + 1)) w v := by
  cases w with
  | nil => exact absurd rfl some_word
  | cons c t =>
    have here := chars c List.mem_cons_self
    have other : isSpace c = false := by
      by_contra space
      rw [isWordChar_of_isSpace (by simpa using space)] at here
      cases here
    have unlike : ∀ {d : Char}, isWordChar d = false → c ≠ d := by
      rintro d no rfl
      rw [no] at here
      cases here
    refine ⟨⟨c, t, rfl, other, unlike rfl, unlike rfl⟩, fun gap rest gaps ends => ?_⟩
    have ⟨front, back⟩ := span_append chars ends
    rw [List.cons_append] at front back
    rw [value, skipSpace_append gaps, List.cons_append, skipSpace_cons other]
    split
    next same => exact absurd (List.cons.inj same).1 (unlike rfl)
    next same => exact absurd (List.cons.inj same).1 (unlike rfl)
    next same => exact absurd (List.cons.inj same).1 (unlike rfl)
    next =>
      rw [front, back, found]
      rfl

section

variable {sep last : List Char} {ws : List (List Char)} {vs : List Value}
  {members : List (String × Value)}

theorem reads_list (seps : ∀ c ∈ sep, isSpace c = true) (lasts : ∀ c ∈ last, isSpace c = true)
    (words : List.Forall₂ (Reads (value depth)) ws vs) (some_words : ws ≠ []) :
    Reads (value (depth + 1)) ('[' :: (sep ++ ((',' :: sep).intercalate ws ++ (last ++ [']']))))
      (.list vs) where
  opens := ⟨'[', _, rfl, rfl, by decide, by decide⟩
  takes gap rest gaps _ := by
    have inside := enclosed_append ⟨.inl rfl⟩ seps lasts words some_words rest
    simp [value, skipSpace_append gaps, skipSpace_cons (show isSpace '[' = false from rfl), inside]

theorem reads_object (seps : ∀ c ∈ sep, isSpace c = true) (lasts : ∀ c ∈ last, isSpace c = true)
    (words : List.Forall₂ (Reads (member (value depth))) ws members) (some_words : ws ≠ [])
    (distinct : (members.map Prod.fst).Nodup) :
    Reads (value (depth + 1))
      ('\x7b' :: (sep ++ ((',' :: sep).intercalate ws ++ (last ++ ['\x7d'])))) (.object members) where
  opens := ⟨'\x7b', _, rfl, rfl, by decide, by decide⟩
  takes gap rest gaps _ := by
    have inside := enclosed_append ⟨.inr rfl⟩ seps lasts words some_words rest
    simp [value, skipSpace_append gaps, skipSpace_cons (show isSpace '\x7b' = false from rfl),
      inside, distinct]

theorem reads_nil : Reads (value (depth + 1)) ['[', ']'] (.list []) where
  opens := ⟨'[', _, rfl, rfl, by decide, by decide⟩
  takes gap rest gaps _ := by
    simp [value, skipSpace_append gaps, skipSpace_cons (show isSpace '[' = false from rfl),
      enclosed_nil ⟨.inl rfl⟩]

theorem reads_empty : Reads (value (depth + 1)) ['\x7b', '\x7d'] (.object []) where
  opens := ⟨'\x7b', _, rfl, rfl, by decide, by decide⟩
  takes gap rest gaps _ := by
    simp [value, skipSpace_append gaps, skipSpace_cons (show isSpace '\x7b' = false from rfl),
      enclosed_nil ⟨.inr rfl⟩]

end

theorem reads_member {name : List Char} (taken : ∀ rest, quoted (name ++ rest) = some (x, rest))
    (reads : Reads (value depth) w v) :
    Reads (member (value depth)) ('"' :: (name ++ ':' :: ' ' :: w)) (x, v) where
  opens := ⟨'"', _, rfl, rfl, by decide, by decide⟩
  takes gap rest gaps ends := by
    have behind := reads.takes [' '] rest (by simp [isSpace]) ends
    simp only [List.cons_append, List.nil_append] at behind
    simp [member, skipSpace_append gaps, skipSpace_cons (show isSpace '"' = false from rfl),
      skipSpace_cons (show isSpace ':' = false from rfl), taken, behind]

theorem read_of_reads {s : String} (reads : Reads (value (s.length + 1)) s.toList v) :
    read s = some v := by
  have taken := reads.takes [] [] (fun _ member => nomatch member) fun _ member => nomatch member
  rw [List.nil_append, List.append_nil] at taken
  rw [read, taken]
  rfl

example : (read "[-0.5e+9, 01]").isNone ∧ (read "\"\t\"").isNone ∧ (read "[null,]").isNone := by
  decide +kernel

end Verbatim.Json
