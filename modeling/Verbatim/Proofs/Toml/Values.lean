import Verbatim.Proofs.Peg.Move
import Verbatim.Proofs.Toml.Keys

/-!
# Values, pairs and headers in front of other text

A value stays what it is when the text behind it is replaced, as long as neither text can go on with
it (`keeps_nested`). The proof is an induction over the depth to which values may be nested. The
bracket that closes an array hides all that follows, so inside an array it is enough that two texts
are the same up to that bracket (`Shared`), and behind the last value in it that both start with the
bracket (`Closing`).
-/

namespace Verbatim.Toml

open Peg Grammar Text

variable {depth : Nat} {mode : Mode} {pos : Nat} {s w x y : List Char} {m : Match Rule}
  {ts : List (Peg.Tree Rule)} {close : Char}

/-! ### Trivia up to a closing bracket -/

theorem keeps_newline : (matcher depth newline).Keeps mode fun x y => x.head? = y.head? := by
  refine Expr.keeps_alt Expr.keeps_word (Expr.keeps_alt Expr.keeps_word Expr.keeps_word ?_) ?_
  · intro pos w x y ts same nothing matched
    obtain ⟨rfl, _⟩ := Expr.takes_word.mp matched
    have told : ∀ z : List Char, matcher depth (lit "\r\n") mode pos ("\r".toList ++ z) = none ↔
        z.head? ≠ some '\n' := by
      intro z
      cases z with
      | nil => simp [lit, Expr.parseWith]
      | cons c z =>
        by_cases feed : c = '\n'
        · simp [feed, lit, Expr.parseWith]
        · simp [feed, Ne.symm feed, lit, Expr.parseWith]
    rw [told] at nothing ⊢
    rwa [← same]
  · intro pos w x y ts _ _ matched
    have feed : (lit "\n").StartsIn (· = '\n') := ⟨'\n', rfl, rfl⟩
    have carriage : (Expr.alt (lit "\r\n") (lit "\r")).StartsIn (¬ · = '\n') :=
      ⟨⟨'\r', rfl, by decide⟩, ⟨'\r', rfl, by decide⟩⟩
    exact fails_of_startsIn feed carriage matched pos y

/-- There is no trivia exactly where no line ends and no comment starts. -/
theorem trivia_eq_none : matcher depth trivia mode pos s = none ↔
    ∀ c, s.head? = some c → isLineEnd c = false ∧ c ≠ '#' := by
  have comment : matcher depth commentLine mode pos s = none ↔ s.head? ≠ some '#' := by
    cases s with
    | nil => simp [commentLine, Expr.all, lit, Expr.parseWith, thenMatch]
    | cons c s =>
      by_cases hash : c = '#'
      · simp [hash, commentLine, Expr.all, lit, Expr.parseWith, thenMatch]
      · simp [hash, Ne.symm hash, commentLine, Expr.all, lit, Expr.parseWith, thenMatch]
  have both : matcher depth trivia mode pos s = none ↔
      matcher depth newline mode pos s = none ∧ matcher depth commentLine mode pos s = none :=
    Option.or_eq_none_iff
  rw [both, newline_eq_none, comment]
  constructor
  · rintro ⟨inLine, noHash⟩ c first
    exact ⟨inLine c first, fun same => noHash (same ▸ first)⟩
  · intro h
    exact ⟨fun c first => (h c first).1, fun hash => (h '#' hash).2 rfl⟩

section Shared

variable (visible : isIndent close = false)

include visible

theorem keeps_commentLine : (matcher depth commentLine).Keeps .spaced (Shared [close]) := by
  have head? : ∀ {x y}, Shared [close] x y → x.head? = y.head? := fun related =>
    related.head?_eq (List.cons_ne_nil _ _)
  have one : (matcher depth (unescaped newline)).Keeps .spaced (Shared [close]) := by
    refine Expr.keeps_seq (S := fun x y => x.head? = y.head?) (covers depth)
      (Expr.keeps_absent fun pos x y same nothing => ?_) Expr.keeps_char ?_
    · rw [newline_eq_none] at nothing ⊢
      rwa [← same]
    · intro gap u x y pos ts related front matched _
      refine ⟨head? (Shared.append _ _ _ (Shared.append _ _ _ related)), ?_⟩
      exact front_of_head?_eq (head? related) front
  have body : (matcher depth (.star (unescaped newline))).Keeps .spaced (Shared [close]) := by
    refine Expr.keeps_star (productive depth) rfl one Shared.append
      (fun _ _ related => related.skip_snd visible) ?_
    intro pos pos' x y related nothing
    have told : ∀ pos z, matcher depth (unescaped newline) .spaced pos z = none ↔
        matcher depth newline .spaced pos z ≠ none ∨ (skip grammar.blank .spaced z).2 = [] := by
      intro pos z
      cases broken : matcher depth newline .spaced pos z with
      | some _ => simp [Expr.parseWith, thenMatch, broken]
      | none =>
        cases rest : (skip grammar.blank .spaced z).2 <;>
          simp [Expr.parseWith, thenMatch, broken, rest, Match.empty, Expr.any]
    rw [told, ne_eq, newline_eq_none] at nothing ⊢
    rw [← head? related]
    refine nothing.imp_right fun ended => ?_
    have later : Shared [close] (skip grammar.blank .spaced x).2 (skip grammar.blank .spaced y).2 :=
      related.skip_snd visible
    obtain ⟨q, _, _, split, _⟩ := later
    simp [ended] at split
  refine Expr.keeps_seq (S := fun _ _ => True) (covers depth) Expr.keeps_word body ?_
  intro gap u x y pos ts related front _ _
  exact ⟨trivial, front_of_head?_eq (head? related) front⟩

theorem keeps_trivia : (matcher depth trivia).Keeps .spaced (Shared [close]) := by
  have line : (matcher depth newline).Keeps .spaced (Shared [close]) :=
    keeps_newline.mono fun _ _ related => related.head?_eq (List.cons_ne_nil _ _)
  refine Expr.keeps_alt line (keeps_commentLine visible) ?_
  intro pos w x y ts _ _ matched
  have breaks : newline.StartsIn (isLineEnd · = true) :=
    ⟨⟨'\n', rfl, rfl⟩, ⟨'\r', rfl, rfl⟩, ⟨'\r', rfl, rfl⟩⟩
  have comment : commentLine.StartsIn (¬ isLineEnd · = true) := ⟨'#', rfl, by decide⟩
  exact fails_of_startsIn breaks comment matched pos y

theorem keeps_arrayTrivia : (matcher depth arrayTrivia).Keeps .spaced (Shared [close]) := by
  refine Expr.keeps_star (productive depth) rfl (keeps_trivia visible)
    Shared.append (fun _ _ related => related.skip_snd visible) ?_
  intro pos pos' x y related nothing
  have none_here : matcher depth trivia .spaced pos x = none := nothing
  have none_there : matcher depth trivia .spaced pos' y = none := by
    rw [trivia_eq_none] at none_here ⊢
    rwa [← related.head?_eq (List.cons_ne_nil _ _)]
  exact none_there

end Shared

/-- Two texts that start with the same spaces and tabs and then with a closing bracket. -/
def Closing (close : Char) (x y : List Char) : Prop :=
  ∃ gap x' y', Indents gap ∧ x = gap ++ close :: x' ∧ y = gap ++ close :: y'

namespace Closing

theorem shared (h : Closing close x y) : Shared [close] x y := by
  obtain ⟨gap, x', y', _, rfl, rfl⟩ := h
  exact ⟨gap, x', y', rfl, rfl⟩

theorem head?_eq (h : Closing close x y) : x.head? = y.head? :=
  h.shared.head?_eq (List.cons_ne_nil _ _)

theorem symm (h : Closing close x y) : Closing close y x := by
  obtain ⟨gap, x', y', indents, rfl, rfl⟩ := h
  exact ⟨gap, y', x', indents, rfl, rfl⟩

theorem ahead (h : Closing close x y) (visible : isIndent close = false) : Ahead (· = close) x := by
  obtain ⟨gap, x', y', indents, rfl, rfl⟩ := h
  refine Ahead.indents indents (Ahead.of_head? fun c first => ?_)
  obtain rfl : close = c := Option.some.inj first
  exact ⟨rfl, visible⟩

theorem valueEnd (h : Closing close x y) (visible : isIndent close = false)
    (closes : closesValue close = true) : ValueEnd x :=
  (h.ahead visible).mono fun _ same => same ▸ closes

end Closing

/-! ### Where no value starts -/

theorem dateTime_startsIn : dateTime.StartsIn (scalarChar · = true) := by
  have digits : ∀ c : Char, c.isDigit = true → scalarChar c = true := fun _ => scalarChar_of_isDigit
  exact ⟨digits, digits, digits, digits⟩

/-- The values that are no strings. -/
abbrev unquotedValue : Production :=
  .alt dateTime (.alt floatingPoint (.alt integer (.alt boolean (.alt array inlineTable))))

theorem unquotedValue_eq_none
    (front : ∀ c, s.head? = some c → scalarChar c = false ∧ c ≠ '[' ∧ c ≠ '\x7b') :
    matcher depth unquotedValue mode pos s = none := by
  have foreign : ∀ c, scalarChar c = false → scalarChar c = false := fun _ => id
  have scalar : ∀ {e : Production}, e.Avoids (scalarChar · = false) mode → e.consumes = true →
      matcher depth e mode pos s = none := fun avoids consumes =>
    Expr.eq_none_of_avoids (productive depth) avoids consumes
      (fun c first => (front c first).1) pos
  have date : matcher depth dateTime mode pos s = none :=
    Expr.eq_none_of_startsIn (covers depth) dateTime_startsIn fun c first => by
      simp [(front c first).1]
  have starts : (Expr.alt array inlineTable).StartsIn fun c => c = '[' ∨ c = '\x7b' :=
    ⟨⟨'[', rfl, Or.inl rfl⟩, ⟨'\x7b', rfl, Or.inr rfl⟩⟩
  have brackets : matcher depth (.alt array inlineTable) mode pos s = none :=
    Expr.eq_none_of_startsIn (covers depth) starts fun c first => by
      simp [(front c first).2]
  have float := scalar (avoids_floatingPoint foreign) rfl
  have int := scalar (avoids_integer foreign) rfl
  have bool := scalar (avoids_boolean foreign) rfl
  simp only [matcher] at date float int bool brackets
  simp only [matcher, Expr.parseWith, date, float, int, bool, Option.none_or]
  exact brackets

theorem string_startsIn : string.StartsIn fun c => c = '"' ∨ c = '\'' :=
  ⟨⟨'"', rfl, by decide⟩, ⟨'"', rfl, by decide⟩, ⟨'\'', rfl, by decide⟩, ⟨'\'', rfl, by decide⟩⟩

theorem value_eq_none
    (front : ∀ c, s.head? = some c → scalarChar c = false ∧ opensValue c = false) :
    matcher depth value mode pos s = none := by
  have apart : ∀ c, s.head? = some c → ((c ≠ '"' ∧ c ≠ '\'') ∧ c ≠ '[') ∧ c ≠ '\x7b' :=
    fun c first => by simpa [opensValue] using (front c first).2
  have quoted : matcher depth string mode pos s = none :=
    Expr.eq_none_of_startsIn (covers depth) string_startsIn fun c first => by
      simp [(apart c first).1.1]
  have others : matcher depth unquotedValue mode pos s = none :=
    unquotedValue_eq_none fun c first =>
      ⟨(front c first).1, (apart c first).1.2, (apart c first).2⟩
  exact Expr.rule_eq_none (Option.or_eq_none_iff.mpr ⟨quoted, others⟩)

theorem nested_eq_none (front : ∀ c, s.head? = some c → closesValue c = true) :
    matcher depth .nested mode pos s = none := by
  cases depth with
  | zero => rfl
  | succ depth =>
    exact value_eq_none fun c first => ⟨not_scalarChar_of_closesValue (front c first),
      not_opensValue_of_closesValue (front c first)⟩

/-- A value starts with no character that closes one. -/
theorem nested_startsIn (h : matcher depth .nested mode pos s = some m) :
    StartsIn (closesValue · = false) m.text := by
  obtain ⟨c, rest, text⟩ := List.exists_cons_of_ne_nil ((productive depth).progress mode pos s m h)
  refine ⟨c, by rw [text]; rfl, ?_⟩
  by_contra closes
  refine Option.some_ne_none _ (h.symm.trans (nested_eq_none fun d first => ?_))
  rw [← (matcher_covers h).split, text] at first
  obtain rfl : c = d := Option.some.inj first
  simpa using closes

/-! ### Lists of values -/

/-- What a repetition takes is empty or starts as its part does. -/
theorem ValueEnd.star {e : Production} (consumes : e.consumes = true)
    (starts : e.StartsIn fun c => closesValue c = true ∧ isIndent c = false)
    (h : (matcher depth (.star e)).Takes mode pos w x ts) (behind : ValueEnd x) :
    ValueEnd (w ++ x) := by
  rcases (Expr.takes_star (productive depth) consumes).mp h with
    ⟨_, rfl, _⟩ | ⟨t, u, _, _, rfl, _, first, _⟩
  · exact behind
  · obtain ⟨c, head, closes⟩ := (Expr.text_startsIn starts first).append (t := u ++ x)
    refine Ahead.of_head? fun d same => ?_
    have split : t ++ u ++ x = t ++ (u ++ x) := List.append_assoc ..
    rw [split, head] at same
    exact Option.some.inj same ▸ closes

theorem ValueEnd.opt {e : Production}
    (starts : e.StartsIn fun c => closesValue c = true ∧ isIndent c = false)
    (h : (matcher depth (.opt e)).Takes mode pos w x ts) (behind : ValueEnd x) :
    ValueEnd (w ++ x) := by
  rcases Expr.takes_opt.mp h with found | ⟨_, rfl, _⟩
  · obtain ⟨c, head, closes⟩ := (Expr.text_startsIn starts found).append (t := x)
    refine Ahead.of_head? fun d same => ?_
    rw [head] at same
    exact Option.some.inj same ▸ closes
  · exact behind

theorem trivia_startsIn : trivia.StartsIn fun c => closesValue c = true ∧ isIndent c = false :=
  ⟨⟨⟨'\n', rfl, by decide⟩, ⟨'\r', rfl, by decide⟩, ⟨'\r', rfl, by decide⟩⟩, ⟨'#', rfl, by decide⟩⟩

/-- A text that stands behind skipped blanks. -/
theorem ValueEnd.skipped {gap u : List Char}
    (front : skip grammar.blank .spaced (gap ++ u) = (gap, u)) (behind : ValueEnd u) :
    ValueEnd (gap ++ u) :=
  behind.indents (indents_of_skip front)

/-- A comma and what follows it. -/
abbrev comma (e : Production) : Production := .seq (lit ",") e

theorem comma_startsIn (e : Production) :
    (comma e).StartsIn fun c => closesValue c = true ∧ isIndent c = false :=
  ⟨',', rfl, by decide⟩

theorem keeps_comma {e : Production} {R : List Char → List Char → Prop}
    (heads : ∀ x y, R x y → x.head? = y.head?) (part : (matcher depth e).Keeps .spaced R) :
    (matcher depth (comma e)).Keeps .spaced R := by
  refine Expr.keeps_seq (S := fun _ _ => True) (covers depth) Expr.keeps_word part ?_
  intro gap u x y pos ts related front _ _
  exact ⟨trivial, front_of_head?_eq (heads x y related) front⟩

theorem comma_eq_none {e : Production} (apart : s.head? ≠ some ',') :
    matcher depth (comma e) mode pos s = none := by
  have starts : (comma e).StartsIn (· = ',') := ⟨',', rfl, rfl⟩
  refine Expr.eq_none_of_startsIn (covers depth) starts ?_
  rintro c first rfl
  exact apart first

theorem valueEnd_of_comma {e : Production}
    (h : matcher depth (comma e) .spaced pos (skip grammar.blank .spaced s).2 ≠ none) :
    ValueEnd s := by
  intro c first
  by_contra closes
  refine h (comma_eq_none ?_)
  rw [first]
  rintro same
  cases Option.some.inj same
  exact closes rfl

theorem bracket_visible : isIndent ']' = false := rfl

/-- One more value of an array, with the comma in front of it and the trivia around it. -/
abbrev nextValue : Production := comma (.seq arrayTrivia (.seq .nested arrayTrivia))

/-- Behind the last value of an array a comma may stand. -/
abbrev lastComma : Production := .opt (comma arrayTrivia)

theorem comma_eq_none_of_ahead {e : Production} (closes : Ahead (· = close) x)
    (apart : close ≠ ',') : matcher depth (comma e) mode pos x = none := by
  refine comma_eq_none fun first => ?_
  rcases closes.head first with blank | same
  · cases blank
  · exact apart same.symm

theorem keeps_lastComma : (matcher depth lastComma).Keeps .spaced (Closing ']') := by
  have trivia : (matcher depth arrayTrivia).Keeps .spaced (Closing ']') :=
    (keeps_arrayTrivia bracket_visible).mono fun _ _ related => related.shared
  refine Expr.keeps_opt (keeps_comma (fun _ _ related => related.head?_eq) trivia) ?_
  intro pos x y related _
  exact comma_eq_none_of_ahead (related.symm.ahead bracket_visible) (by decide)

/-- Behind the last value no further one follows, with or without a comma. -/
theorem nextValue_eq_none (h : (matcher depth lastComma).Takes .spaced pos w x ts)
    (behind : Ahead (· = ']') x) (pos' : Nat) :
    matcher depth nextValue .spaced pos' (w ++ x) = none := by
  refine (Grammar.parseWith_eq_none_iff rfl nextValue depth .spaced pos pos' (w ++ x)).mp ?_
  rcases Expr.takes_opt.mp h with matched | ⟨_, rfl, _⟩
  · rw [Option.eq_none_iff_forall_ne_some]
    intro m found
    obtain ⟨sign, gap, u, _, _, rfl, _, front, signMatch, triviaMatch⟩ :=
      (Expr.takes_seq (covers depth)).mp matched
    obtain ⟨first, _, signFound, rest, _⟩ := Expr.parseWith_seq.mp found
    have split : sign ++ (gap ++ u) ++ x = sign ++ (gap ++ (u ++ x)) := by simp
    rw [split] at signFound
    obtain rfl := Option.some.inj (signMatch.symm.trans signFound)
    obtain ⟨third, _, triviaFound, value, _⟩ := Expr.parseWith_seq.mp rest
    simp only [front] at triviaFound
    obtain rfl := Option.some.inj (triviaMatch.symm.trans triviaFound)
    obtain ⟨_, _, nestedFound, _, _⟩ := Expr.parseWith_seq.mp value
    refine Option.some_ne_none _ (nestedFound.symm.trans (nested_eq_none fun c same => ?_))
    obtain rfl := behind c same
    decide
  · exact comma_eq_none_of_ahead behind (by decide)

/-- A text in brackets hides what stands behind them, if that is all the same to its inside up to
the closing bracket. -/
theorem keeps_closed {e : Production} {R : List Char → List Char → Prop}
    (inside : (matcher depth e).Keeps .spaced (Closing close)) :
    (matcher depth (.seq e (.word [close]))).Keeps .spaced R := by
  refine Expr.keeps_seq (covers depth) inside Expr.keeps_word ?_
  intro gap u x y pos ts _ front matched _
  obtain ⟨rfl, _⟩ := Expr.takes_word.mp matched
  exact ⟨⟨gap, x, y, indents_of_skip front, rfl, rfl⟩,
    fun nothing => absurd nothing (List.cons_ne_nil _ _)⟩

/-- What may stand behind a key: the equals sign of a pair, or the bracket of a header. -/
theorem KeyEnd.of_cons {gap : List Char} {c : Char} (blanks : Indents gap) (x : List Char)
    (closes : c = '=' ∨ c = ']') : KeyEnd (gap ++ c :: x) := by
  refine Ahead.indents blanks (Ahead.of_head? fun d first => ?_)
  obtain rfl : c = d := Option.some.inj first
  rcases closes with rfl | rfl <;> decide

/-- A pair starts with the first character of its key. -/
theorem keyValue_startsIn :
    keyValue.StartsIn fun c => bareChar c = true ∨ c = '"' ∨ c = '\'' :=
  key_startsIn

section Nested

variable (recursive : (matcher depth .nested).Keeps .spaced (Both ValueEnd))

include recursive

/-- A value of an array and the trivia behind it. -/
theorem keeps_arrayValue : (matcher depth (.seq .nested arrayTrivia)).Keeps .spaced
    fun x y => Shared [']'] x y ∧ ValueEnd x ∧ ValueEnd y := by
  have trivia : (matcher depth arrayTrivia).Keeps .spaced
      fun x y => Shared [']'] x y ∧ ValueEnd x ∧ ValueEnd y :=
    (keeps_arrayTrivia bracket_visible).mono fun _ _ related => related.1
  refine Expr.keeps_seq (covers depth) recursive trivia ?_
  rintro gap u x y pos ts ⟨shared, ends, ends'⟩ front matched matched'
  have same := shared.head?_eq (List.cons_ne_nil _ _)
  have bare := front_of_head?_eq same front
  exact ⟨⟨ValueEnd.skipped front (ends.star rfl trivia_startsIn matched),
    ValueEnd.skipped (skip_replace front bare) (ends'.star rfl trivia_startsIn matched')⟩, bare⟩

theorem keeps_nextValue : (matcher depth nextValue).Keeps .spaced
    fun x y => Shared [']'] x y ∧ ValueEnd x ∧ ValueEnd y := by
  have heads : ∀ x y, Shared [']'] x y ∧ ValueEnd x ∧ ValueEnd y → x.head? = y.head? :=
    fun x y related => related.1.head?_eq (List.cons_ne_nil _ _)
  refine keeps_comma heads (Expr.keeps_seq (covers depth) (keeps_arrayTrivia bracket_visible)
    (keeps_arrayValue recursive) ?_)
  intro gap u x y pos ts related front _ _
  exact ⟨Shared.append _ _ _ (Shared.append _ _ _ related.1),
    front_of_head?_eq (heads x y related) front⟩

/-- The values behind the first, up to the closing bracket. -/
theorem keeps_nextValues : (matcher depth (.seq (.star nextValue) lastComma)).Keeps .spaced
    (Closing ']') := by
  have turns : (matcher depth (.star nextValue)).Keeps .spaced _ :=
    Expr.keeps_star_between (productive depth) rfl
      (keeps_nextValue recursive) Shared.append fun pos s => valueEnd_of_comma
  refine Expr.keeps_seq (covers depth) turns keeps_lastComma ?_
  intro gap u x y pos ts related front matched matched'
  have bare := front_of_head?_eq related.head?_eq front
  have front' := skip_replace front bare
  have ends : ∀ {x y ts}, Closing ']' x y → (matcher depth lastComma).Takes .spaced pos u x ts →
      skip grammar.blank .spaced (gap ++ (u ++ x)) = (gap, u ++ x) →
      ValueEnd (gap ++ (u ++ x)) := by
    intro x y ts closing taken cut
    exact ValueEnd.skipped cut
      (ValueEnd.opt (comma_startsIn _) taken (closing.valueEnd bracket_visible (by decide)))
  have stops := nextValue_eq_none matched' (related.symm.ahead bracket_visible)
  refine ⟨⟨Shared.append _ _ _ (Shared.append _ _ _ related.shared), ends related matched front,
    ends related.symm matched' front', fun pos' => ⟨?_, ?_⟩⟩, bare⟩
  · -- the repetition may also be tried in front of the blanks
    cases gap with
    | nil => exact stops pos'
    | cons c gap =>
      refine comma_eq_none fun first => ?_
      obtain rfl : c = ',' := Option.some.inj first
      cases indents_of_skip front' _ (List.mem_cons_self ..)
  · rw [front']
    exact stops pos'

/-- What an array has between its brackets, if it has values. -/
abbrev arrayValues : Production :=
  .seq .nested (.seq arrayTrivia (.seq (.star nextValue) lastComma))

theorem keeps_arrayValues : (matcher depth arrayValues).Keeps .spaced (Closing ']') := by
  have behindValue : (matcher depth (.seq arrayTrivia (.seq (.star nextValue) lastComma))).Keeps
      .spaced (Closing ']') := by
    refine Expr.keeps_seq (covers depth) (keeps_arrayTrivia bracket_visible)
      (keeps_nextValues recursive) ?_
    intro gap u x y pos ts related front _ _
    exact ⟨Shared.append _ _ _ (Shared.append _ _ _ related.shared),
      front_of_head?_eq related.head?_eq front⟩
  refine Expr.keeps_seq (covers depth) recursive behindValue ?_
  intro gap u x y pos ts related front matched matched'
  have bare := front_of_head?_eq related.head?_eq front
  have ends : ∀ {x y ts}, Closing ']' x y →
      (matcher depth (.seq arrayTrivia (.seq (.star nextValue) lastComma))).Takes .spaced pos u x
        ts →
      skip grammar.blank .spaced (gap ++ (u ++ x)) = (gap, u ++ x) →
      ValueEnd (gap ++ (u ++ x)) := by
    intro x y ts closing taken cut
    obtain ⟨a, g, rest, _, _, rfl, _, cut₁, triviaTaken, restTaken⟩ :=
      (Expr.takes_seq (covers depth)).mp taken
    obtain ⟨b, g', c, _, _, rfl, _, cut₂, valuesTaken, commaTaken⟩ :=
      (Expr.takes_seq (covers depth)).mp restTaken
    have last : ValueEnd (c ++ x) :=
      ValueEnd.opt (comma_startsIn _) commaTaken (closing.valueEnd bracket_visible (by decide))
    have values : ValueEnd (b ++ (g' ++ (c ++ x))) :=
      ValueEnd.star rfl (comma_startsIn _) valuesTaken (ValueEnd.skipped cut₂ last)
    have split : b ++ (g' ++ c) ++ x = b ++ (g' ++ (c ++ x)) := by simp
    rw [split] at cut₁ triviaTaken
    have all : ValueEnd (a ++ (g ++ (b ++ (g' ++ (c ++ x))))) :=
      ValueEnd.star rfl trivia_startsIn triviaTaken (ValueEnd.skipped cut₁ values)
    refine ValueEnd.skipped cut ?_
    simpa using all
  exact ⟨⟨ends related matched front, ends related.symm matched' (skip_replace front bare)⟩, bare⟩

theorem keeps_array {R : List Char → List Char → Prop} :
    (matcher depth array).Keeps .spaced R := by
  have values : (matcher depth (.opt arrayValues)).Keeps .spaced (Closing ']') := by
    refine Expr.keeps_opt (keeps_arrayValues recursive) fun pos x y related _ => ?_
    have ends : ValueEnd y := related.symm.valueEnd bracket_visible (by decide)
    exact Expr.seq_eq_none_of_left (nested_eq_none fun c first => ends.closes first)
  have inside : (matcher depth (.seq arrayTrivia (.seq (.opt arrayValues) (.word [']'])))).Keeps
      .spaced R := by
    refine Expr.keeps_seq (covers depth) (keeps_arrayTrivia bracket_visible)
      (keeps_closed values) ?_
    intro gap u x y pos ts _ _ matched _
    obtain ⟨v, g, b, _, _, rfl, _, _, _, closed⟩ := (Expr.takes_seq (covers depth)).mp matched
    obtain ⟨rfl, _⟩ := Expr.takes_word.mp closed
    exact ⟨⟨gap ++ (v ++ g), x, y, by simp, by simp⟩, fun nothing => by simp at nothing⟩
  exact Expr.keeps_rule (Expr.keeps_seq_any (productive depth) rfl
    Expr.keeps_word inside)

omit recursive in
/-- Behind the key of a pair stands the equals sign. -/
theorem keyEnd_of_equals {gap u : List Char} (blanks : Indents gap)
    (matched : (matcher depth (.seq equals .nested)).Takes mode pos u x ts) (y : List Char) :
    KeyEnd (gap ++ (u ++ y)) := by
  obtain ⟨sign, g, v, _, _, rfl, _, _, signMatch, _⟩ := (Expr.takes_seq (covers depth)).mp matched
  obtain ⟨_, word, _⟩ := Expr.takes_rule.mp signMatch
  obtain ⟨rfl, _⟩ := Expr.takes_word.mp word
  exact KeyEnd.of_cons blanks _ (Or.inl rfl)

omit recursive in
/-- A pair keeps what its value keeps. -/
theorem keeps_keyValue {P : List Char → Prop}
    (recursive : (matcher depth .nested).Keeps .spaced (Both P)) :
    (matcher depth keyValue).Keeps .spaced (Both P) := by
  have valueKeeps : (matcher depth (.seq equals .nested)).Keeps .spaced (Both P) :=
    Expr.keeps_seq_any (productive depth) rfl
      (Expr.keeps_rule Expr.keeps_word) recursive
  refine Expr.keeps_rule (Expr.keeps_seq (covers depth) keeps_key valueKeeps ?_)
  intro gap u x y pos ts _ front matched _
  have consumed : u ≠ [] :=
    Expr.text_ne_nil_of_consumes (productive depth).progress (e := .seq equals .nested) rfl matched
  have behind := keyEnd_of_equals (indents_of_skip front) matched
  exact ⟨⟨behind x, behind y⟩, fun nothing => absurd nothing consumed⟩

/-- One more pair of an inline table, with the comma in front of it. -/
abbrev nextPair : Production := comma keyValue

theorem keeps_pairs : (matcher depth (.seq keyValue (.star nextPair))).Keeps .spaced
    (Closing '\x7d') := by
  have visible : isIndent '\x7d' = false := rfl
  have next : (matcher depth nextPair).Keeps .spaced
      fun x y => True ∧ ValueEnd x ∧ ValueEnd y :=
    Expr.keeps_seq_any (productive depth) rfl Expr.keeps_word
      ((keeps_keyValue recursive).mono fun _ _ related => related.2)
  have ends : ∀ {x y}, Closing '\x7d' x y → ValueEnd x := fun related =>
    related.valueEnd visible (by decide)
  have turns : (matcher depth (.star nextPair)).Keeps .spaced (Closing '\x7d') := by
    have between : (matcher depth (.star nextPair)).Keeps .spaced _ :=
      Expr.keeps_star_between (R := fun _ _ => True) (Q := ValueEnd) (productive depth) rfl next
        (fun _ _ _ _ => trivial)
        fun pos s => valueEnd_of_comma
    refine between.mono fun x y related => ⟨trivial, ends related, ends related.symm, fun pos => ?_⟩
    have stops := related.symm.ahead visible
    exact ⟨comma_eq_none_of_ahead stops (by decide),
      comma_eq_none_of_ahead stops.skipped (by decide)⟩
  refine Expr.keeps_seq (covers depth) (keeps_keyValue recursive) turns ?_
  intro gap u x y pos ts related front matched matched'
  have bare := front_of_head?_eq related.head?_eq front
  exact ⟨⟨ValueEnd.skipped front ((ends related).star rfl (comma_startsIn _) matched),
    ValueEnd.skipped (skip_replace front bare)
      ((ends related.symm).star rfl (comma_startsIn _) matched')⟩, bare⟩

theorem keeps_inlineTable {R : List Char → List Char → Prop} :
    (matcher depth inlineTable).Keeps .spaced R := by
  have pairs : (matcher depth (.opt (.seq keyValue (.star nextPair)))).Keeps .spaced
      (Closing '\x7d') := by
    refine Expr.keeps_opt (keeps_pairs recursive) fun pos x y related _ => ?_
    refine Expr.seq_eq_none_of_left (Expr.eq_none_of_startsIn (covers depth) keyValue_startsIn ?_)
    intro c first starts
    rcases (related.symm.ahead rfl).head first with blank | rfl
    · rcases starts with bare | rfl | rfl
      · rw [not_bareChar_of_isIndent blank] at bare
        cases bare
      · cases blank
      · cases blank
    · revert starts
      decide
  exact Expr.keeps_rule (Expr.keeps_seq_any (productive depth) rfl
    Expr.keeps_word (keeps_closed pairs))

/-! ### Values -/

omit recursive in
/-- Scalars are told from each other without the text behind them. -/
theorem keeps_scalar_alt {e e' : Production}
    (appends : ∀ x, Unjoined x → (matcher depth e).Appends mode x)
    (others : (matcher depth e').Keeps mode (Both Unjoined)) :
    (matcher depth (.alt e e')).Keeps mode (Both Unjoined) := by
  refine Expr.keeps_alt (Matcher.keeps_of_appends fun x y related =>
    ⟨appends x related.1, appends y related.2⟩) others ?_
  intro pos w x y ts related nothing _
  have alone := appends x related.1 pos w
  have same := appends y related.2 pos w
  rw [matcher] at alone same
  rw [nothing, eq_comm, Option.map_eq_none_iff] at alone
  rw [same, alone]
  rfl

/-- The forms of a value are told apart by their first characters, or stay the same in front of all
text that may stand behind a value. -/
theorem keeps_value : (matcher depth value).Keeps .spaced (Both Unjoined) := by
  have foreign : ∀ c, scalarChar c = false → scalarChar c = false := fun _ => id
  have brackets : (matcher depth (.alt array inlineTable)).Keeps .spaced (Both Unjoined) := by
    refine Expr.keeps_alt (keeps_array recursive) (keeps_inlineTable recursive) ?_
    intro pos w x y ts _ _ matched
    have bracket : array.StartsIn (· = '[') := ⟨'[', rfl, rfl⟩
    have brace : inlineTable.StartsIn (¬ · = '[') := ⟨'\x7b', rfl, by decide⟩
    exact fails_of_startsIn bracket brace matched pos y
  have scalars := keeps_scalar_alt (e := dateTime) (fun x behind => appends_dateTime behind)
    (keeps_scalar_alt (e := floatingPoint)
      (fun x behind => appends_of_unjoined (avoids_floatingPoint foreign) behind)
      (keeps_scalar_alt (e := integer)
        (fun x behind => appends_of_unjoined (avoids_integer foreign) behind)
        (keeps_scalar_alt (e := boolean)
          (fun x behind => appends_of_unjoined (avoids_boolean foreign) behind) brackets)))
  have strings : (matcher depth string).Keeps .spaced (Both Unjoined) :=
    keeps_string.mono fun _ _ related => ⟨.of_unjoined related.1, .of_unjoined related.2⟩
  refine Expr.keeps_rule (Expr.keeps_alt strings scalars ?_)
  intro pos w x y ts _ _ matched
  have consumed : w ≠ [] :=
    Expr.text_ne_nil_of_consumes (productive depth).progress (e := unquotedValue) rfl matched
  obtain ⟨c, w, rfl⟩ := List.exists_cons_of_ne_nil consumed
  refine Expr.eq_none_of_startsIn (covers depth) string_startsIn fun d first quote => ?_
  obtain rfl : c = d := Option.some.inj first
  have nothing : matcher depth unquotedValue .spaced pos (c :: w ++ x) = none := by
    refine unquotedValue_eq_none fun d first => ?_
    obtain rfl : c = d := Option.some.inj first
    rcases quote with rfl | rfl <;> decide
  exact Option.some_ne_none _ (matched.symm.trans nothing)

omit recursive in
/-- A value stays what it is in front of all text that may stand behind a value, however deeply
values are nested in it. -/
theorem keeps_nested (depth : Nat) : (matcher depth .nested).Keeps .spaced (Both Unjoined) := by
  induction depth with
  | zero =>
    intro pos w x y ts _ matched
    cases matched
  | succ depth ih =>
    exact keeps_value (ih.mono fun _ _ related => ⟨related.1.unjoined, related.2.unjoined⟩)

end Nested

/-! ### Headers -/

/-- The name of a header and the text that closes it. -/
theorem keeps_header {front : List Char} {rest : List Char} {R : List Char → List Char → Prop} :
    (matcher depth (.seq (.word front) (.seq key (.word (']' :: rest))))).Keeps .spaced R := by
  have inside : (matcher depth (.seq key (.word (']' :: rest)))).Keeps .spaced R := by
    refine Expr.keeps_seq (covers depth) keeps_key Expr.keeps_word ?_
    intro gap u x y pos ts _ cut matched _
    obtain ⟨rfl, _⟩ := Expr.takes_word.mp matched
    have blanks := indents_of_skip cut
    exact ⟨⟨KeyEnd.of_cons blanks _ (Or.inr rfl), KeyEnd.of_cons blanks _ (Or.inr rfl)⟩,
      fun nothing => absurd nothing (List.cons_ne_nil _ _)⟩
  exact Expr.keeps_seq_any (productive depth) rfl Expr.keeps_word inside

/-- A header with one bracket has no second one, whatever stands behind it. -/
theorem not_double_bracket (h : (matcher depth standardTable).Takes .spaced pos w x ts)
    (y : List Char) : ¬ "[[".toList <+: w ++ y := by
  obtain ⟨_, body, _⟩ := Expr.takes_rule.mp h
  obtain ⟨bracket, gap, u, _, _, rfl, _, cut, first, rest⟩ :=
    (Expr.takes_seq (covers depth)).mp body
  obtain ⟨rfl, _⟩ := Expr.takes_word.mp first
  obtain ⟨name, gap', u', _, _, rfl, _, _, nameTaken, _⟩ := (Expr.takes_seq (covers depth)).mp rest
  have second : StartsIn (· ≠ '[') (gap ++ (name ++ (gap' ++ u') ++ y)) := by
    cases gap with
    | cons c gap =>
      refine ⟨c, rfl, ?_⟩
      rintro rfl
      cases indents_of_skip cut '[' (List.mem_cons_self ..)
    | nil =>
      obtain ⟨c, head, starts⟩ := Expr.text_startsIn key_startsIn nameTaken
      refine ⟨c, by simp [head], ?_⟩
      rintro rfl
      revert starts
      decide
  intro double
  obtain ⟨c, head, apart⟩ := second
  have split : "[".toList ++ (gap ++ (name ++ (gap' ++ u'))) ++ y =
      '[' :: (gap ++ (name ++ (gap' ++ u') ++ y)) := by simp
  rw [split] at double
  obtain ⟨rest', same⟩ := double
  obtain ⟨_, tail⟩ := List.cons_eq_cons.mp same
  rw [← tail] at head
  exact apart (Option.some.inj head).symm

/-- A header is told to be one of an array of tables by its second bracket, and nothing behind its
closing brackets matters. -/
theorem keeps_table {R : List Char → List Char → Prop} : (matcher depth table).Keeps .spaced R := by
  refine Expr.keeps_rule (Expr.keeps_alt (Expr.keeps_rule keeps_header)
    (Expr.keeps_rule keeps_header) ?_)
  intro pos w x y ts _ _ matched
  exact eq_none_of_not_prefix (not_double_bracket matched y)

end Verbatim.Toml
