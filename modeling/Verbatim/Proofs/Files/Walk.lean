import Mathlib.Data.List.Basic
import Verbatim.Files.Directory

/-!
# A walk meets every file once, in order

`Directory.HasFile` says which files lie below a directory by looking entries up one name at a time.
Where the entries of each directory have names of their own, a walk lists exactly these files
(`mem_walk`), and it lists them in strictly increasing order of the names on the way, compared one
by one as bytes (`walk_increases`).
-/

namespace Verbatim

/-- A name as bytes. -/
def nameBytes (name : String) : List UInt8 := name.toUTF8.data.toList

theorem nameBytes_inj {a b : String} : nameBytes a = nameBytes b ↔ a = b := by
  rw [nameBytes, nameBytes, Array.toList_inj, ← ByteArray.ext_iff]
  exact String.toByteArray_inj

/-- The order of the ways to files: name by name, each as bytes. -/
def WayBefore (a b : List String) : Prop := a.map nameBytes < b.map nameBytes

theorem WayBefore.cons {a b : List String} (name : String) (h : WayBefore a b) :
    WayBefore (name :: a) (name :: b) :=
  List.cons_lt_cons_iff.mpr (Or.inr ⟨rfl, h⟩)

theorem WayBefore.of_first {a b : List String} {name name' : String}
    (h : nameBytes name < nameBytes name') : WayBefore (name :: a) (name' :: b) :=
  List.cons_lt_cons_iff.mpr (Or.inl h)

namespace Directory

variable {d inner rest : Directory} {name : String} {names : List String} {found : Found}

/-! ### Directories as a system stores them -/

/-- What an entry may be called. -/
structure IsName (name : String) : Prop where
  some_text : name ≠ ""
  not_here : name ≠ "."
  not_parent : name ≠ ".."
  one_component : '/' ∉ name.toList

instance (name : String) : Decidable (IsName name) :=
  decidable_of_iff (name ≠ "" ∧ name ≠ "." ∧ name ≠ ".." ∧ '/' ∉ name.toList)
    ⟨fun ⟨some_text, not_here, not_parent, one_component⟩ =>
      ⟨some_text, not_here, not_parent, one_component⟩,
      fun h => ⟨h.some_text, h.not_here, h.not_parent, h.one_component⟩⟩

/-- The entries of a directory, and of the directories in it, have names of their own. -/
def Proper : Directory → Prop
  | empty => True
  | file name _ rest => IsName name ∧ rest.lookup name = none ∧ rest.Proper
  | directory name inner rest =>
    IsName name ∧ rest.lookup name = none ∧ inner.Proper ∧ rest.Proper

instance decidableProper : (d : Directory) → Decidable d.Proper
  | .empty => inferInstanceAs (Decidable True)
  | .file name _ rest =>
    have := decidableProper rest
    inferInstanceAs (Decidable (IsName name ∧ rest.lookup name = none ∧ rest.Proper))
  | .directory name inner rest =>
    have := decidableProper inner
    have := decidableProper rest
    inferInstanceAs
      (Decidable (IsName name ∧ rest.lookup name = none ∧ inner.Proper ∧ rest.Proper))

/-- A file lies below a directory, by the names on the way to it. -/
inductive HasFile : Directory → List String → Prop where
  | file {d : Directory} {name : String} {contents : StoredFile}
      (found : d.lookup name = some (.file contents)) : HasFile d [name]
  | inside {d inner : Directory} {name : String} {names : List String}
      (found : d.lookup name = some (.directory inner)) (more : HasFile inner names) :
      HasFile d (name :: names)

theorem Proper.isName (h : d.Proper) (entry : d.lookup name = some found) : IsName name := by
  induction d with
  | empty => cases entry
  | file n contents rest later =>
    rw [lookup] at entry
    split at entry
    next same => exact same ▸ h.1
    · exact later h.2.2 entry
  | directory n inner rest _ later =>
    rw [lookup] at entry
    split at entry
    next same => exact same ▸ h.1
    · exact later h.2.2.2 entry

theorem Proper.inside (h : d.Proper) (entry : d.lookup name = some (.directory inner)) :
    inner.Proper := by
  induction d with
  | empty => cases entry
  | file n contents rest later =>
    rw [lookup] at entry
    split at entry
    · cases entry
    · exact later h.2.2 entry
  | directory n inner' rest _ later =>
    rw [lookup] at entry
    split at entry
    · cases entry
      exact h.2.2.1
    · exact later h.2.2.2 entry

theorem HasFile.isName (h : d.HasFile names) (proper : d.Proper) : ∀ name ∈ names, IsName name := by
  induction h with
  | file found =>
    intro name member
    obtain rfl := List.mem_singleton.mp member
    exact proper.isName found
  | inside found _ ih =>
    intro name member
    rcases List.mem_cons.mp member with rfl | later
    · exact proper.isName found
    · exact ih (proper.inside found) name later

theorem HasFile.ne_nil (h : d.HasFile names) : names ≠ [] := by
  cases h <;> exact List.cons_ne_nil _ _

/-! ### The entries of one directory -/

end Directory

/-- The files at and below an entry, in walk order. -/
def Found.ways (name : String) : Found → List (List String)
  | .file _ => [[name]]
  | .directory inner => inner.walk.map (name :: ·)

/-- Every way starts with the name of the entry. -/
theorem Found.exists_of_mem_ways {found : Found} {name : String} {names : List String}
    (h : names ∈ found.ways name) : ∃ below, names = name :: below := by
  cases found with
  | file contents => exact ⟨[], List.mem_singleton.mp h⟩
  | directory inner =>
    obtain ⟨below, _, rfl⟩ := List.mem_map.mp h
    exact ⟨below, rfl⟩

namespace Directory

variable {d inner rest : Directory} {name : String} {names : List String} {found : Found}
  {branch : String × List (List String)}

theorem branches_file (name : String) (contents : StoredFile) (rest : Directory) :
    (file name contents rest).branches =
      (name, (Found.file contents).ways name) :: rest.branches := rfl

theorem branches_directory (name : String) (inner rest : Directory) :
    (directory name inner rest).branches =
      (name, (Found.directory inner).ways name) :: rest.branches := rfl

/-- An entry that is found has its branch. -/
theorem mem_branches (entry : d.lookup name = some found) :
    (name, found.ways name) ∈ d.branches := by
  induction d with
  | empty => cases entry
  | file n contents rest later =>
    rw [branches_file]
    rw [lookup] at entry
    split at entry
    next same =>
      cases entry
      exact same ▸ List.mem_cons_self ..
    · exact List.mem_cons_of_mem _ (later entry)
  | directory n inner rest _ later =>
    rw [branches_directory]
    rw [lookup] at entry
    split at entry
    next same =>
      cases entry
      exact same ▸ List.mem_cons_self ..
    · exact List.mem_cons_of_mem _ (later entry)

/-- Every branch is that of an entry, which is found by its name if no other entry has it. -/
theorem exists_of_mem_branches (proper : d.Proper) (h : branch ∈ d.branches) :
    ∃ found, d.lookup branch.1 = some found ∧ branch.2 = found.ways branch.1 := by
  induction d with
  | empty => cases h
  | file n contents rest later =>
    obtain ⟨_, alone, properRest⟩ := proper
    rcases List.mem_cons.mp h with rfl | member
    · exact ⟨.file contents, by simp [lookup], rfl⟩
    · obtain ⟨found, entry, ways⟩ := later properRest member
      refine ⟨found, ?_, ways⟩
      rw [lookup, if_neg, entry]
      rintro rfl
      rw [alone] at entry
      cases entry
  | directory n inner rest _ later =>
    obtain ⟨_, alone, _, properRest⟩ := proper
    rcases List.mem_cons.mp h with rfl | member
    · exact ⟨.directory inner, by simp [lookup], rfl⟩
    · obtain ⟨found, entry, ways⟩ := later properRest member
      refine ⟨found, ?_, ways⟩
      rw [lookup, if_neg, entry]
      rintro rfl
      rw [alone] at entry
      cases entry

/-- No two entries have one name. -/
theorem branches_apart (proper : d.Proper) : d.branches.Pairwise fun a b => a.1 ≠ b.1 := by
  have apart : ∀ {name : String} {rest : Directory}, rest.Proper → rest.lookup name = none →
      ∀ b ∈ rest.branches, name ≠ b.1 := by
    rintro name rest properRest alone b member rfl
    obtain ⟨_, entry, _⟩ := exists_of_mem_branches properRest member
    rw [alone] at entry
    cases entry
  induction d with
  | empty => exact .nil
  | file n contents rest later =>
    exact .cons (apart proper.2.2 proper.2.1) (later proper.2.2)
  | directory n inner rest _ later =>
    exact .cons (apart proper.2.2.2 proper.2.1) (later proper.2.2.2)

/-! ### Walks -/

theorem mem_walk_iff_branch : names ∈ d.walk ↔ ∃ branch ∈ d.branches, names ∈ branch.2 := by
  simp only [walk, List.mem_flatMap, List.mem_mergeSort]

/-- A walk meets the files that are found by their names, and no others. -/
theorem mem_walk (proper : d.Proper) : names ∈ d.walk ↔ d.HasFile names := by
  induction names generalizing d with
  | nil =>
    refine iff_of_false (fun h => ?_) fun h => h.ne_nil rfl
    obtain ⟨branch, member, inside⟩ := mem_walk_iff_branch.mp h
    obtain ⟨_, _, ways⟩ := exists_of_mem_branches proper member
    obtain ⟨_, impossible⟩ := Found.exists_of_mem_ways (ways ▸ inside)
    cases impossible
  | cons name names ih =>
    constructor
    · intro h
      obtain ⟨branch, member, inside⟩ := mem_walk_iff_branch.mp h
      obtain ⟨found, entry, ways⟩ := exists_of_mem_branches proper member
      rw [ways] at inside
      cases found with
      | file contents =>
        rw [List.mem_singleton.mp inside]
        exact .file entry
      | directory inner =>
        obtain ⟨below, deeper, same⟩ := List.mem_map.mp inside
        obtain ⟨rfl, rfl⟩ := List.cons.inj same
        exact .inside entry ((ih (proper.inside entry)).mp deeper)
    · intro h
      cases h with
      | file entry =>
        exact mem_walk_iff_branch.mpr ⟨_, mem_branches entry, List.mem_singleton.mpr rfl⟩
      | inside entry more =>
        have deeper := (ih (proper.inside entry)).mpr more
        exact mem_walk_iff_branch.mpr ⟨_, mem_branches entry, List.mem_map_of_mem deeper⟩

theorem precedes_iff {a b : String} : precedes a b = true ↔ nameBytes a ≤ nameBytes b :=
  decide_eq_true_iff

/-- Entries in the order of their names: of two different ones, the first is strictly smaller. -/
theorem sorted_branches (proper : d.Proper) :
    (d.branches.mergeSort fun a b => precedes a.1 b.1).Pairwise fun a b =>
      nameBytes a.1 < nameBytes b.1 := by
  have sorted := @List.pairwise_mergeSort _ (fun a b => precedes a.1 b.1)
    (fun a b c => by simpa only [precedes_iff] using List.le_trans)
    (fun a b => by simpa only [Bool.or_eq_true, precedes_iff] using List.le_total _ _) d.branches
  have apart := ((List.mergeSort_perm d.branches fun a b => precedes a.1 b.1).pairwise_iff
    (R := fun a b => a.1 ≠ b.1) Ne.symm).mpr (branches_apart proper)
  refine (sorted.and apart).imp fun ⟨before, differ⟩ => ?_
  exact Std.lt_of_le_of_ne (precedes_iff.mp before) (nameBytes_inj.not.mpr differ)

/-- A walk is in order if each branch is. -/
theorem walk_increases_of_branches (proper : d.Proper)
    (each : ∀ branch ∈ d.branches, branch.2.Pairwise WayBefore) : d.walk.Pairwise WayBefore := by
  refine List.pairwise_flatMap.mpr ⟨fun branch member => each branch (List.mem_mergeSort.mp member),
    ?_⟩
  refine (List.Pairwise.and_mem.mp (sorted_branches proper)).imp fun ⟨here, there, before⟩ => ?_
  have starts : ∀ {branch}, branch ∈ d.branches.mergeSort (fun a b => precedes a.1 b.1) →
      ∀ way ∈ branch.2, ∃ below, way = branch.1 :: below := by
    intro branch member way inside
    obtain ⟨_, _, ways⟩ := exists_of_mem_branches proper (List.mem_mergeSort.mp member)
    exact Found.exists_of_mem_ways (ways ▸ inside)
  intro way inside way' inside'
  obtain ⟨_, rfl⟩ := starts here way inside
  obtain ⟨_, rfl⟩ := starts there way' inside'
  exact .of_first before

/-- A walk meets the files in strictly increasing order, so none of them twice. -/
theorem walk_increases (proper : d.Proper) : d.walk.Pairwise WayBefore := by
  refine walk_increases_of_branches proper ?_
  induction d with
  | empty => exact fun branch member => nomatch member
  | file n contents rest later =>
    intro branch member
    rcases List.mem_cons.mp member with rfl | further
    · exact List.pairwise_singleton _ _
    · exact later proper.2.2 branch further
  | directory n inner rest inside later =>
    intro branch member
    rcases List.mem_cons.mp member with rfl | further
    · have deeper := walk_increases_of_branches proper.2.2.1 (inside proper.2.2.1)
      exact List.pairwise_map.mpr (deeper.imp (WayBefore.cons n))
    · exact later proper.2.2.2 branch further

end Directory

end Verbatim
