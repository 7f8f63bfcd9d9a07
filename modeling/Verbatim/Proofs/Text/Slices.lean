import Verbatim.Text.Offset

/-!
# Slices of a text in order

`Slices` says of some texts that they are cut out of one source, each behind the one in front of it.
The offsets at which they are cut are not given, so an empty text can stand anywhere: it is cut
where the next text starts (`Slices.cons_nil`). That is why a part of the texts is described by what
it does for all texts behind it (`Leads`), and not by slices of its own.
-/

namespace Verbatim.Text

variable {source s rest text : List Char} {a b c c' c'' n stop : Nat}
  {texts more : List (List Char)}

/-! ### Cutting at byte offsets -/

theorem exists_of_dropBytes? (h : dropBytes? n s = some rest) :
    ∃ front, s = front ++ rest ∧ byteLength front = n := by
  induction s generalizing n with
  | nil =>
    unfold dropBytes? at h
    split at h
    next zero =>
      obtain rfl := Option.some.inj h
      exact ⟨[], rfl, zero.symm⟩
    · cases h
  | cons d s ih =>
    unfold dropBytes? at h
    split at h
    next zero =>
      obtain rfl := Option.some.inj h
      exact ⟨[], rfl, zero.symm⟩
    · split at h
      next fits =>
        obtain ⟨front, rfl, size⟩ := ih h
        refine ⟨d :: front, rfl, ?_⟩
        rw [byteLength_cons, size]
        omega
      · cases h

/-- What is left behind an offset reaches from there to the end. -/
theorem byteLength_of_dropBytes? (h : dropBytes? n s = some rest) :
    n + byteLength rest = byteLength s := by
  obtain ⟨front, rfl, size⟩ := exists_of_dropBytes? h
  rw [byteLength_append, size]

theorem exists_of_takeBytes? (h : takeBytes? n s = some text) :
    ∃ back, s = text ++ back ∧ byteLength text = n := by
  induction s generalizing n text with
  | nil =>
    unfold takeBytes? at h
    split at h
    next zero =>
      obtain rfl := Option.some.inj h
      exact ⟨[], rfl, zero.symm⟩
    · cases h
  | cons d s ih =>
    unfold takeBytes? at h
    split at h
    next zero =>
      obtain rfl := Option.some.inj h
      exact ⟨d :: s, rfl, zero.symm⟩
    · split at h
      next fits =>
        obtain ⟨taken, found, rfl⟩ := Option.map_eq_some_iff.mp h
        obtain ⟨back, rfl, size⟩ := ih found
        refine ⟨back, rfl, ?_⟩
        rw [byteLength_cons, size]
        omega
      · cases h

theorem takeBytes?_zero (s : List Char) : takeBytes? 0 s = some [] := by
  cases s <;> simp [takeBytes?]

theorem slice?_eq_some : slice? s a b = some text ↔
    a ≤ b ∧ ∃ rest, dropBytes? a s = some rest ∧ takeBytes? (b - a) rest = some text := by
  unfold slice?
  by_cases ordered : a ≤ b
  · simp [ordered, Option.bind_eq_some_iff]
  · simp [ordered]

theorem le_of_slice? (h : slice? s a b = some text) : a ≤ b := (slice?_eq_some.mp h).1

/-- Where a slice starts, the empty text can be cut out as well. -/
theorem slice?_start (h : slice? s a b = some text) : slice? s a a = some [] := by
  obtain ⟨_, rest, left, _⟩ := slice?_eq_some.mp h
  apply slice?_eq_some.mpr
  refine ⟨Nat.le_refl _, rest, left, ?_⟩
  rw [Nat.sub_self]
  exact takeBytes?_zero rest

theorem eq_nil_of_slice?_self (h : slice? s a a = some text) : text = [] := by
  obtain ⟨_, rest, _, taken⟩ := slice?_eq_some.mp h
  rw [Nat.sub_self, takeBytes?_zero] at taken
  exact (Option.some.inj taken).symm

/-- What is left behind an offset is the slice up to the end. -/
theorem slice?_of_dropBytes? (h : dropBytes? n s = some rest) :
    slice? s n (byteLength s) = some rest := by
  have size := byteLength_of_dropBytes? h
  have whole : takeBytes? (byteLength rest) rest = some rest := by
    simpa using takeBytes?_append rest []
  apply slice?_eq_some.mpr
  refine ⟨by omega, rest, h, ?_⟩
  rw [← size, Nat.add_sub_cancel_left]
  exact whole

/-! ### Boundaries -/

theorem isBoundary_end (s : List Char) : IsBoundary s (byteLength s) :=
  ⟨s, [], (List.append_nil s).symm, rfl⟩

theorem IsBoundary.le (h : IsBoundary s n) : n ≤ byteLength s := by
  obtain ⟨u, v, rfl, rfl⟩ := h
  simp

/-- A place can be cut at if it is a boundary. -/
theorem isBoundary_iff : IsBoundary s n ↔ (dropBytes? n s).isSome := by
  constructor
  · rintro ⟨u, v, rfl, rfl⟩
    rw [dropBytes?_append]
    rfl
  · intro found
    obtain ⟨rest, left⟩ := Option.isSome_iff_exists.mp found
    obtain ⟨front, split, size⟩ := exists_of_dropBytes? left
    exact ⟨front, rest, split, size⟩

/-- The place behind a character is a boundary if the place in front of it is one. -/
theorem isBoundary_behind {d : Char} (h : dropBytes? n s = some (d :: rest)) :
    IsBoundary s (n + d.utf8Size) := by
  obtain ⟨front, rfl, rfl⟩ := exists_of_dropBytes? h
  exact ⟨front ++ [d], rest, by simp, by simp⟩

/-- A slice ends at a boundary. -/
theorem isBoundary_of_slice? (h : slice? s a b = some text) : IsBoundary s b := by
  obtain ⟨ordered, rest, left, taken⟩ := slice?_eq_some.mp h
  obtain ⟨front, rfl, rfl⟩ := exists_of_dropBytes? left
  obtain ⟨back, rfl, size⟩ := exists_of_takeBytes? taken
  refine ⟨front ++ text, back, by simp, ?_⟩
  rw [byteLength_append, size]
  omega

/-- Of two places in a text, what stands in front of the second is cut at the first. -/
theorem IsBoundary.exists_gap {before behind : List Char} (h : IsBoundary s n)
    (split : s = before ++ behind) (ahead : n ≤ byteLength before) :
    ∃ u gap, before = u ++ gap ∧ byteLength u = n := by
  obtain ⟨u, v, other, size⟩ := h
  rcases List.append_eq_append_iff.mp (other.symm.trans split) with
    ⟨gap, between, _⟩ | ⟨gap, between, _⟩
  · exact ⟨u, gap, between, size⟩
  · -- the first place is not behind the second, so nothing stands between them
    rw [between, byteLength_append] at size
    exact ⟨before, [], (List.append_nil _).symm, by omega⟩

/-! ### Slices one behind another -/

/-- Texts that are cut out of a source one behind another, from an offset on. The last of them ends
at the offset that is given at the end. -/
inductive Slices (source : List Char) : Nat → List (List Char) → Nat → Prop where
  | last {c a b : Nat} {text : List Char} (later : c ≤ a) (cut : slice? source a b = some text) :
      Slices source c [text] b
  | cons {c a b stop : Nat} {text : List Char} {texts : List (List Char)} (later : c ≤ a)
      (cut : slice? source a b = some text) (more : Slices source b texts stop) :
      Slices source c (text :: texts) stop

namespace Slices

/-- Slices can be counted from an earlier offset. -/
theorem mono (h : Slices source c texts stop) (earlier : c' ≤ c) : Slices source c' texts stop := by
  cases h with
  | last later cut => exact .last (Nat.le_trans earlier later) cut
  | cons later cut more => exact .cons (Nat.le_trans earlier later) cut more

theorem le (h : Slices source c texts stop) : c ≤ stop := by
  induction h with
  | last later cut => exact Nat.le_trans later (le_of_slice? cut)
  | cons later cut _ ih =>
    have ordered := le_of_slice? cut
    omega

/-- The empty text can be cut out in front of other slices. -/
theorem cons_nil (h : Slices source c texts stop) : Slices source c ([] :: texts) stop := by
  cases h with
  | last later cut => exact .cons later (slice?_start cut) (.last (Nat.le_refl _) cut)
  | cons later cut more => exact .cons later (slice?_start cut) (.cons (Nat.le_refl _) cut more)

/-- Behind the place where they end, only empty texts can be cut out. -/
theorem eq_nil (h : Slices source c texts stop) (ended : stop ≤ c) : ∀ text ∈ texts, text = [] := by
  induction h with
  | @last c a b text later cut =>
    intro found member
    obtain rfl := List.mem_singleton.mp member
    have ordered := le_of_slice? cut
    obtain rfl : a = b := by omega
    exact eq_nil_of_slice?_self cut
  | @cons c a b stop text texts later cut more ih =>
    intro found member
    have ordered := le_of_slice? cut
    have remaining := more.le
    rcases List.mem_cons.mp member with rfl | inTexts
    · obtain rfl : a = b := by omega
      exact eq_nil_of_slice?_self cut
    · exact ih (by omega) found inTexts

end Slices

/-! ### Slices that lead to others -/

/-- Some texts lead from an offset to another: in front of all slices from the second offset on,
they are slices from the first on. -/
def Leads (source : List Char) (c : Nat) (texts : List (List Char)) (c' : Nat) : Prop :=
  c ≤ c' ∧ ∀ more stop, Slices source c' more stop → Slices source c (texts ++ more) stop

namespace Leads

theorem le (h : Leads source c texts c') : c ≤ c' := h.1

/-- Nothing has to stand between two offsets. -/
theorem move (later : c ≤ c') : Leads source c [] c' :=
  ⟨later, fun _ _ behind => behind.mono later⟩

theorem trans (h : Leads source c texts c') (h' : Leads source c' more c'') :
    Leads source c (texts ++ more) c'' := by
  refine ⟨Nat.le_trans h.le h'.le, fun others stop behind => ?_⟩
  rw [List.append_assoc]
  exact h.2 _ _ (h'.2 _ _ behind)

/-- More of the source can be passed behind the texts. -/
theorem moved (h : Leads source c texts c') (later : c' ≤ c'') : Leads source c texts c'' := by
  have passed := h.trans (.move later)
  rwa [List.append_nil] at passed

theorem empty (c : Nat) : Leads source c [[]] c :=
  ⟨Nat.le_refl _, fun _ _ behind => behind.cons_nil⟩

/-- One slice, which starts at the first offset and ends at the second. -/
theorem slice (cut : slice? source c c' = some text) : Leads source c [text] c' :=
  ⟨le_of_slice? cut, fun _ _ behind => .cons (Nat.le_refl _) cut behind⟩

/-- The text that is left behind the second offset ends the slices. -/
theorem slices (h : Leads source c texts c') (left : dropBytes? c' source = some rest) :
    Slices source c (texts ++ [rest]) (byteLength source) :=
  h.2 _ _ (.last (Nat.le_refl _) (slice?_of_dropBytes? left))

end Leads

end Verbatim.Text
