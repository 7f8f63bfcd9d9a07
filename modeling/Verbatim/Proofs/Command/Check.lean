import Mathlib.Data.List.Forall2
import Verbatim.Command.Run
import Verbatim.Proofs.Reader.Conversion

/-!
# A check accounts for every file

What a check says about a path depends on what is stored there and on nothing else: the verdict has
a closed form in which the options of the reader do not occur (`Files.verdict`,
`Command.verdicts_eq`). No file prints as something else, because what is read prints as its text.
The lines, the counts, the reports and the status of a check are then read off a list of paths, and
that list has every path once.
-/

namespace Verbatim

open Reader (read_of_accepted read_of_rejected)

variable {files : Files} {path : String} {paths : List String} {options : Options}

namespace Verdict

variable {input : Input}

theorem ofInput_of_rejected {e : Toml.SyntaxError}
    (rejected : Toml.parse input.decoded.text.toList = .error e) :
    ofInput options input = failed input.path (.notToml input.path input.decoded.text e) := by
  unfold ofInput
  rw [read_of_rejected rejected]

/-- What is read prints as its text, so nothing is left to be compared. -/
theorem ofInput_of_accepted {bytes : List UInt8} {t : Peg.Tree Toml.Rule}
    (encodes : input.decoded.encode = .ok bytes)
    (accepted : Toml.parse input.decoded.text.toList = .ok t) :
    ofInput options input = { path := input.path, status := .ok } := by
  obtain ⟨d, fresh, _, found⟩ := @read_of_accepted options input bytes t encodes accepted
  have verified : d.verify input.decoded.text input.path = .ok () := by
    rw [Document.verify, if_pos fresh.prints]
  unfold ofInput
  rw [found]
  dsimp only
  rw [verified]

end Verdict

namespace Command

/-! ### What is written -/

/-- The line of a file: that it is in order or that it failed, as a word which ends at the eighth
place, then a blank, the path and a line break. -/
def lineFor (path : String) (status : Status) : String :=
  (if status = .ok then "      ok" else "  FAILED") ++ " " ++ path ++ "\n"

/-- The last line of a check: how many files are in order and how many failed, in decimal. -/
def summaryFor (passed failed : Nat) : String :=
  String.ofList (Nat.toDigits 10 passed) ++ " passed, " ++
    String.ofList (Nat.toDigits 10 failed) ++ " failed\n"

/-- The lines that are not about differences are written so. -/
theorem statusLine_eq (path : String) {status : Status} (same : status ≠ .mismatch) :
    Report.statusLine path status = lineFor path status := by
  cases status with
  | ok => rfl
  | failed => rfl
  | mismatch => exact absurd rfl same

theorem summaryLine_eq (passed failed : Nat) :
    Report.summaryLine passed failed = summaryFor passed failed := rfl

end Command

namespace Files

/-- The decoded text of a stored file. -/
abbrev decodedText (file : StoredFile) : String := (Charset.decode file.bytes).text

/-- Whether the file of a path can be read. -/
def readable (files : Files) (path : String) : Bool := (files.read path).isOk

/-- The file of a path can be read, and the grammar accepts its decoded text. -/
def Accepts (files : Files) (path : String) : Prop :=
  ∃ file t, files.read path = .ok file ∧ Toml.parse (decodedText file).toList = .ok t

/-- The failure that is due for a path: its file cannot be read, or the grammar rejects the text. -/
def Faults (files : Files) (path : String) (failure : Failure) : Prop :=
  (∃ fault, files.read path = .error fault ∧ failure = .unreadable path fault.reason) ∨
    ∃ file e, files.read path = .ok file ∧ Toml.parse (decodedText file).toList = .error e ∧
      failure = .notToml path (decodedText file) e

/-- The verdict on the file of a path, without the reader. -/
def verdict (files : Files) (path : String) : Verdict :=
  match files.read path with
  | .error fault => .failed path (.unreadable path fault.reason)
  | .ok file =>
    match Toml.parse (decodedText file).toList with
    | .error e => .failed path (.notToml path (decodedText file) e)
    | .ok _ => { path, status := .ok }

/-- A verdict names its path, shows no differences, and is either in order without a failure or
reports the failure that is due. -/
theorem verdict_cases (files : Files) (path : String) :
    (files.Accepts path ∧ files.verdict path = { path, status := .ok }) ∨
      ¬ files.Accepts path ∧
        ∃ failure, files.Faults path failure ∧ files.verdict path = .failed path failure := by
  cases stored : files.read path with
  | error fault =>
    refine Or.inr ⟨?_, _, Or.inl ⟨fault, stored, rfl⟩, by rw [verdict, stored]⟩
    rintro ⟨file, t, other, _⟩
    rw [stored] at other
    cases other
  | ok file =>
    cases parsed : Toml.parse (decodedText file).toList with
    | ok t => exact Or.inl ⟨⟨file, t, stored, parsed⟩, by simp only [verdict, stored, parsed]⟩
    | error e =>
      refine Or.inr ⟨?_, _, Or.inr ⟨file, e, stored, parsed, rfl⟩, by
        simp only [verdict, stored, parsed]⟩
      rintro ⟨file', t, same, accepted⟩
      rw [stored] at same
      cases same
      rw [parsed] at accepted
      cases accepted

theorem verdict_path (files : Files) (path : String) : (files.verdict path).path = path := by
  obtain ⟨_, shown⟩ | ⟨_, _, _, shown⟩ := verdict_cases files path <;> simp [shown, Verdict.failed]

theorem verdict_differences (files : Files) (path : String) :
    (files.verdict path).differences = "" := by
  obtain ⟨_, shown⟩ | ⟨_, _, _, shown⟩ := verdict_cases files path <;> simp [shown, Verdict.failed]

theorem verdict_ne_mismatch (files : Files) (path : String) :
    (files.verdict path).status ≠ .mismatch := by
  obtain ⟨_, shown⟩ | ⟨_, _, _, shown⟩ := verdict_cases files path <;> simp [shown, Verdict.failed]

theorem verdict_ok_iff (files : Files) (path : String) :
    (files.verdict path).status = .ok ↔ files.Accepts path := by
  obtain ⟨accepts, shown⟩ | ⟨rejects, _, _, shown⟩ := verdict_cases files path
  · simp [shown, accepts]
  · simp [shown, rejects, Verdict.failed]

/-- The line of a verdict says that the file is in order or that it failed. -/
theorem verdict_text (files : Files) (path : String) :
    (files.verdict path).text = Command.lineFor path (files.verdict path).status := by
  rw [Verdict.text, verdict_path, verdict_differences, String.append_empty]
  exact Command.statusLine_eq path (verdict_ne_mismatch files path)

/-- What the input of a file that can be read holds. -/
theorem input_eq_ok {i : Input} (found : files.input path = .ok i) :
    ∃ file, files.read path = .ok file ∧ i.path = path ∧ i.decoded = Charset.decode file.bytes := by
  cases stored : files.read path with
  | error fault => simp [input, stored] at found
  | ok file =>
    simp only [input, stored, Except.ok.injEq] at found
    rw [← found]
    exact ⟨file, rfl, rfl, rfl⟩

/-- A file that cannot be read has its verdict before any text is parsed. -/
theorem verdict_of_unread {failure : Failure} (unread : files.input path = .error failure) :
    files.readable path = false ∧ .failed path failure = files.verdict path := by
  cases stored : files.read path with
  | error fault =>
    simp only [input, stored, Except.error.injEq] at unread
    rw [readable, verdict, stored, ← unread]
    exact ⟨rfl, rfl⟩
  | ok file => simp [input, stored] at unread

/-- The verdict on what can be read is the grammar's. -/
theorem verdict_of_input {i : Input} (found : files.input path = .ok i) (options : Options) :
    files.readable path = true ∧ Verdict.ofInput options i = files.verdict path := by
  obtain ⟨file, stored, here, decoded⟩ := input_eq_ok found
  refine ⟨by rw [readable, stored]; rfl, ?_⟩
  have encodes := Charset.encode_decode file.bytes
  rw [← decoded] at encodes
  have text : decodedText file = i.decoded.text := by rw [decodedText, decoded]
  cases parsed : Toml.parse i.decoded.text.toList with
  | error e =>
    rw [Verdict.ofInput_of_rejected parsed, here]
    simp only [verdict, stored, text, parsed]
  | ok t =>
    rw [Verdict.ofInput_of_accepted encodes parsed, here]
    simp only [verdict, stored, text, parsed]

end Files

namespace Command

/-- Paths in the order of a check: first those whose files cannot be read. -/
def checkOrder (files : Files) (paths : List String) : List String :=
  paths.filter (fun path => !files.readable path) ++ paths.filter files.readable

/-- Every path has its turn. -/
theorem checkOrder_perm (files : Files) (paths : List String) :
    (checkOrder files paths).Perm paths := by
  have split := List.filter_append_perm (fun path => !files.readable path) paths
  simpa only [checkOrder, Bool.not_not] using split

/-- The two passes over the files come to one list of verdicts, which no options change. -/
theorem verdicts_eq (files : Files) (options : Options) (paths : List String) :
    verdicts files options paths = (checkOrder files paths).map files.verdict := by
  unfold verdicts checkOrder
  rw [List.map_append]
  -- each pass skips what the other one takes
  apply congrArg₂
  · induction paths with
    | nil => rfl
    | cons path paths ih =>
      cases found : files.input path with
      | error failure =>
        obtain ⟨unreadable, same⟩ := Files.verdict_of_unread found
        simp [found, unreadable, same, ih]
      | ok i => simp [found, (Files.verdict_of_input found options).1, ih]
  · induction paths with
    | nil => rfl
    | cons path paths ih =>
      cases found : files.input path with
      | error failure =>
        have unreadable := (Files.verdict_of_unread found).1
        rw [List.filterMap_cons_none (by rw [found]; rfl), ih,
          List.filter_cons_of_neg (by simp [unreadable])]
      | ok i =>
        obtain ⟨readable, same⟩ := Files.verdict_of_input found options
        rw [List.filterMap_cons_some (by rw [found]; rfl), List.map_cons, ih, same,
          List.filter_cons_of_pos readable, List.map_cons]

/-- The failures of a check are those of the paths that are not in order, one for each. -/
theorem forall₂_failures (files : Files) (paths : List String) :
    List.Forall₂ files.Faults (paths.filter fun path => (files.verdict path).status ≠ .ok)
      ((paths.map files.verdict).filterMap (·.failure)) := by
  induction paths with
  | nil => exact .nil
  | cons path paths ih =>
    obtain ⟨_, shown⟩ | ⟨_, failure, due, shown⟩ := Files.verdict_cases files path
    · simpa [shown] using ih
    · simpa [shown, Verdict.failed, due] using ih

/-- What a check of the files of some paths comes to, with its lines and its counts. -/
structure Accounts (files : Files) (paths : List String) (outcome : Outcome)
    (lines : List (String × Status)) (passed failed : Nat) : Prop where
  /-- One line for each path, those of unreadable files first, otherwise in the order given. -/
  order : lines.map (·.1) =
    paths.filter (fun path => !files.readable path) ++ paths.filter files.readable
  /-- The paths of the lines are the given ones, each as often as it is given. -/
  complete : (lines.map (·.1)).Perm paths
  ok_iff : ∀ line ∈ lines, line.2 = .ok ↔ files.Accepts line.1
  /-- So a line that is not in order says that the file failed. -/
  no_mismatch : ∀ line ∈ lines, line.2 ≠ .mismatch
  failed_count : failed = lines.countP fun line => line.2 ≠ .ok
  total : passed + failed = paths.length
  /-- The output is these lines and the counts, and nothing else. -/
  output : outcome.output =
    (String.join (lines.map fun line => lineFor line.1 line.2) ++
      summaryFor passed failed).toUTF8.data.toList
  /-- One report for each line that is not in order. -/
  reports : List.Forall₂ files.Faults
    ((lines.filter fun line => line.2 ≠ .ok).map (·.1)) outcome.failures
  status : outcome.status = if failed = 0 then 0 else 1
  wellUsed : outcome.misuse = none

/-- The lines of a check. -/
def checkLines (files : Files) (paths : List String) : List (String × Status) :=
  (checkOrder files paths).map fun path => (path, (files.verdict path).status)

theorem checkLines_paths (files : Files) (paths : List String) :
    (checkLines files paths).map (·.1) = checkOrder files paths := by
  simp [checkLines, Function.comp_def]

theorem summarize_accounts (files : Files) (options : Options) (paths : List String) :
    ∃ passed failed, Accounts files paths (summarize (verdicts files options paths))
      (checkLines files paths) passed failed := by
  have every := checkOrder_perm files paths
  have texts : (checkLines files paths).map (fun line => lineFor line.1 line.2) =
      (verdicts files options paths).map Verdict.text := by
    simp [checkLines, verdicts_eq, Function.comp_def, Files.verdict_text]
  have count : (verdicts files options paths).countP (fun v => v.status ≠ .ok) =
      (checkLines files paths).countP fun line => line.2 ≠ .ok := by
    simp [checkLines, verdicts_eq, List.countP_map, Function.comp_def]
  have length : (verdicts files options paths).length = paths.length := by
    rw [verdicts_eq, List.length_map, every.length_eq]
  have enough := (verdicts files options paths).countP_le_length (p := fun v => v.status ≠ .ok)
  let failed := (verdicts files options paths).countP fun v => v.status ≠ .ok
  refine ⟨(verdicts files options paths).length - failed, failed, ?_⟩
  constructor
  case order => exact checkLines_paths files paths
  case complete => rwa [checkLines_paths]
  case ok_iff =>
    simp only [checkLines, List.forall_mem_map]
    exact fun path _ => Files.verdict_ok_iff files path
  case no_mismatch =>
    simp only [checkLines, List.forall_mem_map]
    exact fun path _ => Files.verdict_ne_mismatch files path
  case failed_count => exact count
  case total => rw [← length, Nat.sub_add_cancel enough]
  case output =>
    rw [texts, ← summaryLine_eq]
    rfl
  case reports =>
    have due := forall₂_failures files (checkOrder files paths)
    rw [← verdicts_eq files options paths] at due
    simpa [checkLines, List.filter_map, Function.comp_def, summarize] using due
  case status => rfl
  case wellUsed => rfl

/-- Wherever the files below a root can be listed, a check succeeds as a command and accounts for
each of them. Of the options only the extensions matter, and they only for what is listed. -/
theorem act_check (files : Files) (firstId : Nat) (options : Options) (root : String)
    (extensions paths : List String)
    (found : files.discover (checkOptions options extensions) root = .ok paths) :
    ∃ outcome lines passed failed, Accounts files paths outcome lines passed failed ∧
      ∀ others : Options, others.extensions = options.extensions →
        act files firstId others (.check root extensions) = .ok outcome := by
  obtain ⟨passed, failed, accounts⟩ := summarize_accounts files options paths
  refine ⟨_, _, passed, failed, accounts, ?_⟩
  intro others same
  have targeted : files.discover (checkOptions others extensions) root = .ok paths := by
    rw [← found, checkOptions, same]
    rfl
  rw [act, targets, targeted]
  exact congrArg (fun all => Except.ok (summarize all)) (by rw [verdicts_eq, verdicts_eq])

/-- A directory with a text that is read, one that is not TOML, a file that is not picked up, and
one that is gone when it is asked for. -/
def mixedFiles : Files where
  read path :=
    if path = "d/c.toml" then .error .missing
    else .ok { bytes := if path = "d/a.toml" then [0x61, 0x3D, 0x31] else [0x61, 0x3D, 0xFF] }
  below _ := .ok (some [["a.toml"], ["b.toml"], ["c.toml"], ["d.md"]])

theorem act_check_mixed :
    ∃ outcome lines passed failed,
      Accounts mixedFiles ["d/a.toml", "d/b.toml", "d/c.toml"] outcome lines passed failed ∧
      ∀ others : Options, others.extensions = ["toml"] →
        act mixedFiles 1 others (.check "d" []) = .ok outcome :=
  act_check mixedFiles 1 {} "d" [] _ (by decide +kernel)

end Command

end Verbatim
