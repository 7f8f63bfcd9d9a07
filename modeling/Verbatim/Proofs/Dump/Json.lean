import Verbatim.Proofs.Dump.Number

/-!
# Dumps in JSON are read back

A dump of data in JSON is read as the value that the data has there (`read_json`): the text in
quotes as it was, whatever its characters (`quoted_flatMap`), and every list and record with what is
in it. The only condition is that the fields of a record have names of their own.
-/

namespace Verbatim.Dump

open Json

/-! ### Texts in quotes -/

/-- Every character is written as one part that stands for it. -/
theorem exists_part (c : Char) : ∃ p : Part,
    (∀ ps, joinParts (p :: ps) = (joinParts ps).map (c :: ·)) ∧
    ∀ s ps rest, parts s = some (ps, rest) →
      parts (escapeJson c ++ s) = some (p :: ps, rest) := by
  have plain : ∀ ps, joinParts (.char c :: ps) = (joinParts ps).map (c :: ·) := by
    intro ps
    rw [joinParts]
  have escape : ∀ {d : Char}, escaped? d = some c → d ≠ 'u' →
      ∀ s ps rest, parts s = some (ps, rest) →
        parts (['\\', d] ++ s) = some (.char c :: ps, rest) := by
    intro d known noUnit s ps rest found
    simp [parts, known, noUnit, found]
  unfold escapeJson
  -- the seven characters with an escape of their own
  iterate 7
    split
    next short => exact ⟨.char c, plain, escape (by rw [short]; rfl) (by decide)⟩
  split
  next control =>
    refine ⟨.unit c.toNat, fun ps => ?_, fun s ps rest found => ?_⟩
    · have no_surrogate : ¬ 0xD800 ≤ c.toNat := by omega
      rcases ps with _ | ⟨d | low, ps⟩ <;> simp [joinParts, no_surrogate]
    · have number : hexNumber? ['0', '0', (c.toNat / 16).digitChar, (c.toNat % 16).digitChar] =
          some c.toNat :=
        (by decide : ∀ n < 32, hexNumber? ['0', '0', (n / 16).digitChar, (n % 16).digitChar] =
          some n) c.toNat control
      simp [parts, number, found]
  next _ noBackslash _ _ _ _ _ printable =>
    refine ⟨.char c, plain, fun s ps rest found => ?_⟩
    simp [parts, noBackslash, printable, found]

/-- A text in quotes is read as it was. -/
theorem quoted_flatMap (s rest : List Char) :
    quoted (s.flatMap escapeJson ++ '"' :: rest) = some (String.ofList s, rest) := by
  have inside : ∃ ps, parts (s.flatMap escapeJson ++ '"' :: rest) = some (ps, rest) ∧
      joinParts ps = some s := by
    induction s with
    | nil => exact ⟨[], by simp [parts], rfl⟩
    | cons c s ih =>
      obtain ⟨ps, found, joined⟩ := ih
      obtain ⟨p, join, here⟩ := exists_part c
      refine ⟨p :: ps, ?_, ?_⟩
      · rw [List.flatMap_cons, List.append_assoc, here _ _ _ found]
      · rw [join, joined]
        rfl
  obtain ⟨ps, found, joined⟩ := inside
  simp [quoted, found, joined]

theorem toList_quoteJson (s : String) :
    (quoteJson s).toList = '"' :: (s.toList.flatMap escapeJson ++ ['"']) := by
  simp [quoteJson]

theorem quoted_quoteJson (s : String) (rest : List Char) :
    quoted ((s.toList.flatMap escapeJson ++ ['"']) ++ rest) = some (s, rest) := by
  simpa using quoted_flatMap s.toList rest

/-! ### Data as JSON values -/

/-- A number as a JSON value. -/
def numberValue : Binary64 → Value
  | .finite negative m q => .number (String.ofList (Binary64.compactText negative m q))
  | _ => .null

namespace Data

mutual

/-- What data is in JSON. -/
def value : Data → Value
  | .null => .null
  | .boolean b => .boolean b
  | .integer n => .number (toString n)
  | .float x => numberValue x
  | .text s => .text s
  | .list items => .list (values items)
  | .record fields => .object (members fields)
  | .variant name payload => .object [(name, value payload)]

def values : List Data → List Value
  | [] => []
  | d :: ds => value d :: values ds

def members : List (String × Data) → List (String × Value)
  | [] => []
  | (name, d) :: fields => (name, value d) :: members fields

end

mutual

/-- The fields of each record in the data have names of their own. -/
def Distinct : Data → Prop
  | .list items => DistinctItems items
  | .record fields => (fields.map Prod.fst).Nodup ∧ DistinctFields fields
  | .variant _ payload => Distinct payload
  | _ => True

def DistinctItems : List Data → Prop
  | [] => True
  | d :: ds => Distinct d ∧ DistinctItems ds

def DistinctFields : List (String × Data) → Prop
  | [] => True
  | (_, d) :: fields => Distinct d ∧ DistinctFields fields

end

attribute [simp] value values members Distinct DistinctItems DistinctFields

theorem members_names (fields : List (String × Data)) :
    (members fields).map Prod.fst = fields.map Prod.fst := by
  induction fields with
  | nil => rfl
  | cons field fields ih => simp [members, ih]

end Data

/-! ### Layout -/

theorem isSpace_newLine (depth : Nat) : ∀ c ∈ (newLine depth).toList, isSpace c = true := by
  intro c member
  simp only [newLine, String.toList_append, String.toList_ofList, List.mem_append,
    List.mem_replicate] at member
  obtain member | ⟨_, rfl⟩ := member
  · obtain rfl : c = '\n' := by simpa using member
    rfl
  · rfl

theorem toList_bracketed {left right : String} {depth : Nat} {parts : List String}
    (some_parts : parts ≠ []) : (bracketed left right depth parts).toList =
      left.toList ++ ((newLine (depth + 1)).toList ++
        ((',' :: (newLine (depth + 1)).toList).intercalate (parts.map String.toList) ++
          ((newLine depth).toList ++ right.toList))) := by
  cases parts with
  | nil => exact absurd rfl some_parts
  | cons part parts => simp [bracketed, String.toList_intercalate]

/-- Each part between brackets is shorter than the whole. -/
theorem length_lt_bracketed {left right : String} (depth : Nat) {parts : List String}
    {part : String} (brackets : left ≠ "") (member : part ∈ parts) :
    part.length < (bracketed left right depth parts).length := by
  have some_parts : parts ≠ [] := List.ne_nil_of_mem member
  have fits := length_le_of_mem_intercalate (',' :: (newLine (depth + 1)).toList)
    (List.mem_map_of_mem (f := String.toList) member)
  have opened : 0 < left.toList.length := by
    rw [List.length_pos_iff]
    simpa using brackets
  rw [← String.length_toList, ← String.length_toList, toList_bracketed some_parts]
  simp only [List.length_append]
  omega

/-! ### Reading a dump -/

variable {depth fuel : Nat}

/-- The text of a member of an object. -/
theorem toList_field (name written : String) : (quoteJson name ++ ": " ++ written).toList =
    '"' :: ((name.toList.flatMap escapeJson ++ ['"']) ++ ':' :: ' ' :: written.toList) := by
  simp [toList_quoteJson]

theorem length_lt_field (name written : String) :
    written.length < (quoteJson name ++ ": " ++ written).length := by
  rw [← String.length_toList, ← String.length_toList, toList_field]
  simp only [List.length_append, List.length_cons]
  omega

theorem read_field (name : String) {written : String} {v : Value}
    (reads : Reads (Json.value fuel) written.toList v) :
    Reads (member (Json.value fuel)) (quoteJson name ++ ": " ++ written).toList (name, v) := by
  rw [toList_field]
  exact reads_member (quoted_quoteJson name) reads

theorem read_number {written : String} (number : isNumber written.toList = true) :
    Reads (Json.value (fuel + 1)) written.toList (.number written) := by
  have found := word?_of_isNumber number
  rw [String.ofList_toList] at found
  exact reads_word found (isWordChar_of_isNumber number) (ne_nil_of_isNumber number)

theorem read_null : Reads (Json.value (fuel + 1)) "null".toList .null :=
  reads_word rfl (List.all_eq_true.mp (by decide)) (by decide)

theorem read_true : Reads (Json.value (fuel + 1)) "true".toList (.boolean true) :=
  reads_word rfl (List.all_eq_true.mp (by decide)) (by decide)

theorem read_false : Reads (Json.value (fuel + 1)) "false".toList (.boolean false) :=
  reads_word rfl (List.all_eq_true.mp (by decide)) (by decide)

/-- A number other than a finite one is nothing in JSON. -/
theorem read_float (x : Binary64) :
    Reads (Json.value (fuel + 1)) (numberJson x).toList (numberValue x) := by
  cases x with
  | finite negative m q =>
    exact read_number (by simpa [numberJson] using isNumber_compactText negative m q)
  | nan => exact read_null
  | infinite negative => exact read_null

/-- Parts on lines of their own between brackets are read as what they are between brackets. -/
theorem read_items_between {parts : List String} {vs : List Value}
    (words : List.Forall₂ (Reads (Json.value fuel)) (parts.map String.toList) vs) :
    Reads (Json.value (fuel + 1)) (bracketed "[" "]" depth parts).toList (.list vs) := by
  by_cases some_parts : parts = []
  · subst some_parts
    cases words
    simpa [bracketed] using reads_nil
  · rw [toList_bracketed some_parts]
    exact reads_list (isSpace_newLine _) (isSpace_newLine _) words (by simpa using some_parts)

theorem read_members_between {parts : List String} {ms : List (String × Value)}
    (words : List.Forall₂ (Reads (member (Json.value fuel))) (parts.map String.toList) ms)
    (distinct : (ms.map Prod.fst).Nodup) :
    Reads (Json.value (fuel + 1)) (bracketed "\x7b" "\x7d" depth parts).toList (.object ms) := by
  by_cases some_parts : parts = []
  · subst some_parts
    cases words
    simpa [bracketed] using reads_empty
  · rw [toList_bracketed some_parts]
    exact reads_object (isSpace_newLine _) (isSpace_newLine _) words (by simpa using some_parts)
      distinct

mutual

/-- Data is read back from its dump, with as many turns as the dump has characters. -/
theorem read_json (d : Data) (distinct : d.Distinct) {depth fuel : Nat}
    (fits : (json depth d).length < fuel) :
    Reads (Json.value fuel) (json depth d).toList d.value := by
  obtain ⟨fuel, rfl⟩ : ∃ k, fuel = k + 1 := ⟨fuel - 1, by omega⟩
  cases d with
  | null =>
    rw [json, Data.value]
    exact read_null
  | boolean b =>
    rw [json, Data.value]
    cases b with
    | true => exact read_true
    | false => exact read_false
  | integer n => exact read_number (isNumber_integer n)
  | float x =>
    rw [json, Data.value]
    exact read_float x
  | text s =>
    rw [json, toList_quoteJson]
    exact reads_text (quoted_quoteJson s)
  | list items =>
    rw [json] at fits ⊢
    have inside := read_items items distinct fun w member =>
      Nat.lt_of_lt_of_le (length_lt_bracketed depth (by decide) member) (Nat.le_of_lt_succ fits)
    exact read_items_between inside
  | record fields =>
    rw [json] at fits ⊢
    have inside := read_fields fields distinct.2 fun w member =>
      Nat.lt_of_lt_of_le (length_lt_bracketed depth (by decide) member) (Nat.le_of_lt_succ fits)
    exact read_members_between inside (by rw [Data.members_names]; exact distinct.1)
  | variant name payload =>
    rw [json] at fits ⊢
    have shorter := length_lt_field name (json (depth + 1) payload)
    have inside : (quoteJson name ++ ": " ++ json (depth + 1) payload).length <
        (bracketed "\x7b" "\x7d" depth [quoteJson name ++ ": " ++ json (depth + 1) payload]).length :=
      length_lt_bracketed depth (by decide) (List.mem_singleton_self _)
    have reads : Reads (Json.value fuel) (json (depth + 1) payload).toList payload.value :=
      read_json payload distinct (by omega)
    exact read_members_between (.cons (read_field name reads) .nil) (by simp)

theorem read_items (ds : List Data) (distinct : Data.DistinctItems ds) {depth fuel : Nat}
    (fits : ∀ w ∈ jsonItems depth ds, w.length < fuel) :
    List.Forall₂ (Reads (Json.value fuel)) ((jsonItems depth ds).map String.toList)
      (Data.values ds) := by
  cases ds with
  | nil => exact .nil
  | cons d ds =>
    exact .cons (read_json d distinct.1 (fits _ List.mem_cons_self))
      (read_items ds distinct.2 fun w member => fits w (List.mem_cons_of_mem _ member))

theorem read_fields (fields : List (String × Data)) (distinct : Data.DistinctFields fields)
    {depth fuel : Nat} (fits : ∀ w ∈ jsonFields depth fields, w.length < fuel) :
    List.Forall₂ (Reads (member (Json.value fuel))) ((jsonFields depth fields).map String.toList)
      (Data.members fields) := by
  cases fields with
  | nil => exact .nil
  | cons field fields =>
    obtain ⟨name, d⟩ := field
    have shorter := length_lt_field name (json depth d)
    have here := fits _ List.mem_cons_self
    exact .cons (read_field name (read_json d distinct.1 (by omega)))
      (read_fields fields distinct.2 fun w member => fits w (List.mem_cons_of_mem _ member))

end

/-- A dump of data in JSON is JSON, and stands for what the data is there. -/
theorem read_dump {d : Data} (distinct : d.Distinct) : Json.read (json 0 d) = some d.value :=
  read_of_reads (read_json d distinct (Nat.lt_succ_self _))

end Verbatim.Dump
