import Mathlib.Data.List.TakeWhile
import Verbatim.Files.Read
import Verbatim.Proofs.Files.Walk

/-!
# Which files are picked up

The path of a file below a directory has the components of the directory's path and then the names
on the way (`componentBytes_join`), so the last name alone decides whether the file is picked up
(`matchesExtension_join`), and the order of a walk is the order of the paths, component by
component. With what a walk meets, this says which paths a search gives, and in which order
(`discover_exact`).
-/

namespace Verbatim

variable {options : Options} {root name : String} {names : List String} {s : List Char}

namespace Path

open Directory (IsName)

/-! ### Components -/

/-- The components of a path as bytes. -/
def componentBytes (path : String) : List (List UInt8) :=
  (components path.toList).map fun c => nameBytes (String.ofList c)

/-- The path of what lies in a directory. -/
def child (path name : String) : String :=
  if path.toList.getLast? = some '/' then path ++ name else path ++ "/" ++ name

theorem join_cons (root name : String) (names : List String) :
    join root (name :: names) = join (child root name) names := rfl

/-- A component behind a slash is one more component. -/
theorem components_append (s : List Char) (isName : IsName name) :
    components (s ++ '/' :: name.toList) = components s ++ [name.toList] := by
  have alone : name.toList.splitOn '/' = [name.toList] :=
    List.splitOn_eq_singleton isName.one_component
  have some_text : name.toList ≠ [] := fun nothing =>
    isName.some_text (String.toList_eq_nil_iff.mp nothing)
  have not_here : name.toList ≠ ['.'] := fun here =>
    isName.not_here (String.toList_inj.mp here)
  obtain ⟨first, rest, parts⟩ := List.exists_cons_of_ne_nil (List.splitOn_ne_nil '/' s)
  rw [components, components, List.splitOn_append_cons_self, alone, parts]
  simp [some_text, not_here]

/-- A slash at the end of a path makes no component. -/
theorem components_slash (s : List Char) : components (s ++ ['/']) = components s := by
  obtain ⟨first, rest, parts⟩ := List.exists_cons_of_ne_nil (List.splitOn_ne_nil '/' s)
  rw [components, components, List.splitOn_append_cons_self, parts]
  simp

theorem components_child (root : String) (isName : IsName name) :
    components (child root name).toList = components root.toList ++ [name.toList] := by
  unfold child
  split
  next slash =>
    obtain ⟨front, split⟩ := List.getLast?_eq_some_iff.mp slash
    rw [String.toList_append, split, components_slash, List.append_assoc]
    exact components_append front isName
  · rw [String.toList_append, String.toList_append, List.append_assoc]
    exact components_append root.toList isName

theorem components_join (root : String) (proper : ∀ name ∈ names, IsName name) :
    components (join root names).toList =
      components root.toList ++ names.map String.toList := by
  induction names generalizing root with
  | nil => simp [join]
  | cons name names ih =>
    have later := ih (child root name) fun n member => proper n (List.mem_cons_of_mem _ member)
    rw [join_cons, later, components_child root (proper name (List.mem_cons_self ..))]
    simp

theorem componentBytes_join (root : String) (proper : ∀ name ∈ names, IsName name) :
    componentBytes (join root names) = componentBytes root ++ names.map nameBytes := by
  simp [componentBytes, components_join root proper, Function.comp_def]

/-- The name of a file below a directory is the last one on the way. -/
theorem fileName?_join (root : String) (proper : ∀ n ∈ names ++ [name], IsName n) :
    fileName? (join root (names ++ [name])).toList = some name.toList := by
  have isName := proper name (by simp)
  have not_here : name.toList ≠ ['.'] := fun here =>
    isName.not_here (String.toList_inj.mp here)
  have not_parent : name.toList ≠ ['.', '.'] := fun parent =>
    isName.not_parent (String.toList_inj.mp parent)
  rw [fileName?, components_join root proper]
  simp [not_here, not_parent]

/-! ### Extensions -/

/-- A text is cut behind its last full stop. -/
theorem exists_cut (s : List Char) : ∃ front, s = front ++ (s.reverse.takeWhile (· ≠ '.')).reverse ∧
    ∀ c, front.getLast? = some c → c = '.' := by
  have whole := List.takeWhile_append_dropWhile (p := (· ≠ '.')) (l := s.reverse)
  have stop := List.head?_dropWhile_not (· ≠ '.') s.reverse
  refine ⟨(s.reverse.dropWhile (· ≠ '.')).reverse, ?_, fun c last => ?_⟩
  · rw [← List.reverse_append, whole, List.reverse_reverse]
  · rw [List.getLast?_reverse] at last
    rw [last] at stop
    simpa using stop

theorem extensionOf?_append {stem extension : List Char} (some_stem : stem ≠ [])
    (dotless : '.' ∉ extension) : extensionOf? (stem ++ '.' :: extension) = some extension := by
  have found : ((stem ++ '.' :: extension).reverse.takeWhile (· ≠ '.')).reverse = extension := by
    rw [List.reverse_append, List.reverse_cons, List.append_assoc,
      List.takeWhile_append_of_pos fun c member => ?_]
    · simp
    · have apart : c ≠ '.' := fun dot => dotless (dot ▸ List.mem_reverse.mp member)
      simpa using apart
  have positive := List.length_pos_iff.mpr some_stem
  rw [extensionOf?, found, if_pos]
  simp only [List.length_append, List.length_cons]
  omega

/-- The extension of a name is what stands behind its last full stop, if something stands in front
of that. -/
theorem extensionOf?_eq_some {extension : List Char} : extensionOf? s = some extension ↔
    ∃ stem, s = stem ++ '.' :: extension ∧ stem ≠ [] ∧ '.' ∉ extension := by
  constructor
  · intro h
    obtain ⟨front, split, last⟩ := exists_cut s
    have lengths := congrArg List.length split
    rw [extensionOf?, Option.ite_none_right_eq_some] at h
    obtain ⟨longer, same⟩ := h
    obtain rfl := Option.some.inj same
    have dotless : '.' ∉ (s.reverse.takeWhile (· ≠ '.')).reverse := fun member => by
      simpa using List.mem_takeWhile_imp (List.mem_reverse.mp member)
    rw [List.length_append] at lengths
    rcases List.eq_nil_or_concat' front with rfl | ⟨stem, c, rfl⟩
    · rw [List.length_nil] at lengths
      omega
    · obtain rfl := last c (by simp)
      refine ⟨stem, split.trans (by simp), ?_, dotless⟩
      rintro rfl
      rw [List.nil_append, List.length_singleton] at lengths
      omega
  · rintro ⟨stem, rfl, some_stem, dotless⟩
    exact extensionOf?_append some_stem dotless

end Path

/-- A name is a stem, a full stop and one of the extensions, which has no full stop itself. -/
def Options.Picks (options : Options) (name : String) : Prop :=
  ∃ stem extension : String, name = stem ++ "." ++ extension ∧ stem ≠ "" ∧
    '.' ∉ extension.toList ∧ extension ∈ options.extensions

/-- Of a path below a directory, the last name alone decides. -/
theorem matchesExtension_join (options : Options) (root : String)
    (proper : ∀ n ∈ names ++ [name], Directory.IsName n) :
    options.matchesExtension (Path.join root (names ++ [name])) = true ↔ options.Picks name := by
  have known : Path.extension? (Path.join root (names ++ [name])).toList =
      Path.extensionOf? name.toList := by
    rw [Path.extension?, Path.fileName?_join root proper]
    rfl
  rw [Options.matchesExtension, known]
  constructor
  · intro h
    cases found : Path.extensionOf? name.toList with
    | none =>
      rw [found] at h
      cases h
    | some extension =>
      rw [found] at h
      obtain ⟨stem, split, some_stem, dotless⟩ := Path.extensionOf?_eq_some.mp found
      refine ⟨.ofList stem, .ofList extension, ?_, ?_, by simpa using dotless, by simpa using h⟩
      · rw [← String.toList_inj, split]
        simp
      · intro nothing
        exact some_stem (by simpa using congrArg String.toList nothing)
  · rintro ⟨stem, extension, rfl, some_stem, dotless, member⟩
    have found : Path.extensionOf? (stem ++ "." ++ extension).toList = some extension.toList :=
      Path.extensionOf?_eq_some.mpr ⟨stem.toList, by simp,
        fun nothing => some_stem (String.toList_eq_nil_iff.mp nothing), dotless⟩
    rw [found]
    simpa using member

namespace Directory

/-- Whatever a path leads to is stored as the directories on the way are. -/
theorem Proper.follow {here : Directory} {above : List Directory} {entries : Directory}
    (proper : here.Proper) (properAbove : ∀ a ∈ above, a.Proper)
    (found : here.follow above names = .ok (.directory entries)) : entries.Proper := by
  fun_induction Directory.follow here above names with
  | case1 here above =>
    cases found
    exact proper
  | case2 here above name names dot ih => exact ih proper properAbove found
  | case3 here names nothing ih => exact ih trivial properAbove found
  | case4 here names up above nothing ih =>
    refine ih (properAbove up (List.mem_cons_self ..)) (fun a member => ?_) found
    exact properAbove a (List.mem_cons_of_mem up member)
  | case7 here above name names other not_parent short inner entry ih =>
    refine ih (proper.inside entry) (fun a member => ?_) found
    rcases List.mem_cons.mp member with rfl | further
    · exact proper
    · exact properAbove a further
  | case5 => cases found
  | case6 => cases found
  | case8 => cases found
  | case9 => cases found

theorem Proper.resolved {d entries : Directory} (proper : d.Proper)
    (found : d.resolve root = .ok (.directory entries)) : entries.Proper := by
  unfold resolve at found
  split at found
  · cases found
  split at found
  · cases found
  split at found
  · cases found
  dsimp only at found
  have start : (if root.toList.head? = some '/' then empty else d).Proper := by
    split
    · exact trivial
    · exact proper
  have outermost : ∀ a ∈ ([] : List Directory), a.Proper := fun a member => nomatch member
  exact start.follow outermost found

/-- A search in a directory gives the paths of the files below it whose names end in one of the
extensions, each once, in strictly increasing order of their components. These are the components of
the directory's path and then the names on the way. A file is all that a search from it gives,
whatever its name. -/
theorem discover_exact (d : Directory) (proper : d.Proper) (options : Options) (root : String) :
    (∀ contents, d.resolve root = .ok (.file contents) →
      d.files.discover options root = .ok [root]) ∧
    ∀ entries, d.resolve root = .ok (.directory entries) →
      ∃ paths, d.files.discover options root = .ok paths ∧
        (∀ path, path ∈ paths ↔ ∃ names name, entries.HasFile (names ++ [name]) ∧
          options.Picks name ∧ path = Path.join root (names ++ [name])) ∧
        paths.Nodup ∧
        (paths.Pairwise fun a b => Path.componentBytes a < Path.componentBytes b) ∧
        ∀ names, entries.HasFile names → Path.componentBytes (Path.join root names) =
          Path.componentBytes root ++ names.map nameBytes := by
  constructor
  case left =>
    intro contents found
    simp only [Files.discover, files, found]
  case right =>
    intro entries found
    have inside := proper.resolved found
    have given : d.files.discover options root =
        .ok ((entries.walk.map (Path.join root)).filter options.matchesExtension) := by
      simp only [Files.discover, files, found]
    have increases : (entries.walk.map (Path.join root)).Pairwise fun a b =>
        Path.componentBytes a < Path.componentBytes b := by
      refine List.pairwise_map.mpr ((List.Pairwise.and_mem.mp (walk_increases inside)).imp ?_)
      rintro a b ⟨here, there, before⟩
      rw [Path.componentBytes_join root (((mem_walk inside).mp here).isName inside),
        Path.componentBytes_join root (((mem_walk inside).mp there).isName inside)]
      exact List.append_left_lt before
    refine ⟨_, given, fun path => ?_, ?_, increases.filter _, fun names file =>
      Path.componentBytes_join root (file.isName inside)⟩
    · simp only [List.mem_filter, List.mem_map, mem_walk inside]
      constructor
      · rintro ⟨⟨way, file, rfl⟩, picked⟩
        obtain ⟨names, name, rfl⟩ := List.eq_nil_or_concat' way |>.resolve_left file.ne_nil
        exact ⟨names, name, file,
          (matchesExtension_join options root (file.isName inside)).mp picked, rfl⟩
      · rintro ⟨names, name, file, picked, rfl⟩
        exact ⟨⟨_, file, rfl⟩,
          (matchesExtension_join options root (file.isName inside)).mpr picked⟩
    · have apart : ∀ {a b}, Path.componentBytes a < Path.componentBytes b → a ≠ b := by
        rintro a _ before rfl
        exact List.lt_irrefl _ before
      exact (increases.filter _).imp apart

theorem discover_exact_hidden :
    let empty : StoredFile := { bytes := [] }
    let inside : Directory :=
      .file "a.toml" empty (.file ".toml" empty
        (.directory "a" (.file "x.toml" empty .empty) (.directory "b.toml" .empty .empty)))
    let d : Directory := .directory "r" inside .empty
    d.Proper ∧ d.resolve "r/" = .ok (.directory inside) ∧
      ∃ paths, d.files.discover {} "r/" = .ok paths ∧
        (∀ path, path ∈ paths ↔ ∃ names name, inside.HasFile (names ++ [name]) ∧
          Options.Picks {} name ∧ path = Path.join "r/" (names ++ [name])) ∧
        paths.Nodup ∧
        (paths.Pairwise fun a b => Path.componentBytes a < Path.componentBytes b) ∧
        ∀ names, inside.HasFile names → Path.componentBytes (Path.join "r/" names) =
          Path.componentBytes "r/" ++ names.map nameBytes := by
  intro empty inside d
  have proper : d.Proper := by decide +kernel
  have found : d.resolve "r/" = .ok (.directory inside) := by decide +kernel
  exact ⟨proper, found, (discover_exact d proper {} "r/").2 inside found⟩

end Directory

end Verbatim
