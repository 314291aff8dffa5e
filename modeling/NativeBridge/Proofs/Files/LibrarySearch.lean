/-
What the search for a library finds. The folders are searched in order, and in each of them the names in order; a name that is a
path of its own is meant to be taken as it stands.

- `LibrarySearch.InFolders`: the first file under a name of the library in the first folder that has one.
- `explicit_as_given_iff`: a path of its own is taken as it stands if it is a file. If it is not, the folders are searched for
  it all the same, so it is taken as given, or not at all, exactly if it is a file or the folders have nothing for it.
- `missing_path_replaced`: so another file can be found in its place.
-/
import Mathlib.Tactic
import NativeBridge.Files.LibrarySearch

namespace NativeBridge.LibrarySearch

variable {s : LibrarySearch} {tree : FileTree} {name : String} {found : Path}

/-- the file is in one of the folders under a name of the library; no folder before has a file under any of the names, and this
folder has none under a name before -/
inductive InFolders (s : LibrarySearch) (tree : FileTree) (name : String) : Path → Prop
  | first {folder : Path} {before after : List Path} {file : String} {tried untried : List String}
      (folders : s.paths = before ++ folder :: after) (files : fileNames name = tried ++ file :: untried)
      (isFile : tree.isFile (folder.child file) = true)
      (earlier : ∀ other ∈ before, ∀ file ∈ fileNames name, tree.isFile (other.child file) = false)
      (sooner : ∀ file ∈ tried, tree.isFile (folder.child file) = false) : InFolders s tree name (folder.child file)

theorem mem_of_inFolders (inFolders : s.InFolders tree name found) :
    ∃ folder ∈ s.paths, ∃ file ∈ fileNames name, found = folder.child file ∧ tree.isFile found = true := by
  cases inFolders with
  | first folders files isFile earlier sooner =>
    exact ⟨_, folders ▸ List.mem_append_right _ List.mem_cons_self, _, files ▸ List.mem_append_right _ List.mem_cons_self,
      rfl, isFile⟩

/-! ## The search -/

/-- the part of the search that looks into the folders -/
theorem find?_folders_eq_some_iff :
    (s.paths.flatMap fun folder => (fileNames name).map folder.child).find? tree.isFile = some found ↔
      s.InFolders tree name found := by
  have nothing (folder : Path) : ((fileNames name).map folder.child).find? tree.isFile = none ↔
      ∀ file ∈ fileNames name, tree.isFile (folder.child file) = false := by simp
  rw [List.find?_flatMap, List.findSome?_eq_some_iff]
  simp only [nothing, List.find?_eq_some_iff_append]
  constructor
  · rintro ⟨before, folder, after, folders, ⟨isFile, triedPaths, untriedPaths, split, sooner⟩, earlier⟩
    obtain ⟨tried, rest, files, rfl, others⟩ := List.map_eq_append_iff.1 split
    obtain ⟨file, untried, rfl, rfl, -⟩ := List.map_eq_cons_iff.1 others
    exact .first folders files isFile earlier (by simpa using sooner)
  · rintro ⟨folders, files, isFile, earlier, sooner⟩
    exact ⟨_, _, _, folders, ⟨isFile, _, _, by rw [files, List.map_append, List.map_cons], by simpa using sooner⟩, earlier⟩

theorem resolve_of_isFile (explicit : isExplicit name = true) (isFile : tree.isFile ⟨name⟩ = true) :
    s.resolve tree name = some ⟨name⟩ := by
  simp [resolve, candidates, explicit, isFile]

theorem resolve_of_not_isFile (isFile : tree.isFile ⟨name⟩ = false) :
    s.resolve tree name = (s.paths.flatMap fun folder => (fileNames name).map folder.child).find? tree.isFile := by
  unfold resolve candidates
  split <;> simp [isFile]

/-! ## Paths of their own -/

theorem child_of_isAbsolute (folder : Path) (absolute : (Path.mk name).isAbsolute = true) (ending : String) :
    folder.child (name ++ ending) = ⟨name ++ ending⟩ := by
  refine Path.join_of_isAbsolute ?_
  simp only [Path.isAbsolute, beq_iff_eq, String.toList_append, List.head?_append] at absolute ⊢
  simp [absolute]

/-- what is found in place of an absolute path: the path with the ending of a library, wherever that is, or a path below a
folder -/
theorem replacement_of_isAbsolute (absolute : (Path.mk name).isAbsolute = true) (isFile : tree.isFile ⟨name⟩ = false)
    (inFolders : s.InFolders tree name found) :
    found = ⟨name ++ ".so"⟩ ∨ ∃ folder ∈ s.paths, found = folder.child ("lib" ++ name ++ ".so") := by
  obtain ⟨folder, mem, file, listed, rfl, there⟩ := mem_of_inFolders inFolders
  have same : folder.child name = ⟨name⟩ := Path.join_of_isAbsolute absolute
  simp only [fileNames, List.mem_append, List.mem_cons, List.not_mem_nil, or_false, List.mem_ite_nil_right] at listed
  obtain ⟨-, rfl⟩ | rfl | rfl := listed
  · rw [same, isFile] at there
    cases there
  · exact .inr ⟨folder, mem, rfl⟩
  · exact .inl (child_of_isAbsolute folder absolute ".so")

/-- **A path of its own is taken as it stands if it is a file, and is searched for in the folders if it is not.** So nothing takes
its place exactly if it is a file, or if no folder has a file under one of the names that it is made into. What takes the place
of an absolute path is that path with the ending of a library, or something below a folder. -/
theorem explicit_as_given_iff (s : LibrarySearch) (tree : FileTree) (explicit : isExplicit name = true) :
    (∀ found, s.resolve tree name = some found ↔
        tree.isFile ⟨name⟩ = true ∧ found = ⟨name⟩ ∨ tree.isFile ⟨name⟩ = false ∧ s.InFolders tree name found) ∧
      (s.resolve tree name = (if tree.isFile ⟨name⟩ then some ⟨name⟩ else none) ↔
        tree.isFile ⟨name⟩ = true ∨ ∀ folder ∈ s.paths, ∀ file ∈ fileNames name, tree.isFile (folder.child file) = false) ∧
      ((Path.mk name).isAbsolute = true → tree.isFile ⟨name⟩ = false → ∀ found, s.resolve tree name = some found →
        found = ⟨name ++ ".so"⟩ ∨ ∃ folder ∈ s.paths, found = folder.child ("lib" ++ name ++ ".so")) := by
  cases isFile : tree.isFile ⟨name⟩ with
  | true =>
    rw [resolve_of_isFile explicit isFile]
    refine ⟨fun found => ?_, by simp, nofun⟩
    simpa using eq_comm
  | false =>
    rw [resolve_of_not_isFile isFile]
    refine ⟨fun found => ?_, ?_, fun absolute _ found searched => ?_⟩
    · simpa using find?_folders_eq_some_iff
    · simp
    · exact replacement_of_isAbsolute absolute isFile (find?_folders_eq_some_iff.1 searched)

/-- a library two steps down: what the working directory has is taken, and otherwise what the first folder with one has -/
theorem explicit_as_given_iff_two_steps :
    let search : LibrarySearch := ⟨[⟨"/c"⟩, ⟨"/d"⟩]⟩
    let elsewhere := (FileTree.empty ⟨"/w"⟩).withFile ⟨"/d/sub/x.so"⟩ .empty
    let here := elsewhere.withFile ⟨"/w/sub/x.so"⟩ .empty
    isExplicit "sub/x.so" = true ∧ search.resolve here "sub/x.so" = some ⟨"sub/x.so"⟩ ∧
      search.InFolders elsewhere "sub/x.so" ⟨"/d/sub/x.so"⟩ := by
  intro search elsewhere here
  have explicit : isExplicit "sub/x.so" = true := by decide +kernel
  have isFile : here.isFile ⟨"sub/x.so"⟩ = true := by decide +kernel
  have missing : elsewhere.isFile ⟨"sub/x.so"⟩ = false := by decide +kernel
  have searched : search.resolve elsewhere "sub/x.so" = some ⟨"/d/sub/x.so"⟩ := by decide +kernel
  obtain ⟨there, -⟩ | ⟨-, inFolders⟩ := ((explicit_as_given_iff search elsewhere explicit).1 _).1 searched
  · rw [missing] at there
    cases there
  · exact ⟨explicit, ((explicit_as_given_iff search here explicit).1 _).2 (.inl ⟨isFile, rfl⟩), inFolders⟩

/-- an absolute path without a file: the library beside it is loaded, though the one folder of the search has nothing of it; and
a path of several steps is found below a folder -/
theorem missing_path_replaced :
    let search : LibrarySearch := ⟨[⟨"/b"⟩]⟩
    let tree := ((FileTree.empty ⟨"/w"⟩).withFile ⟨"/a/x.so"⟩ .empty).withFile ⟨"/b/sub/y.so"⟩ .empty
    isExplicit "/a/x" = true ∧ tree.isFile ⟨"/a/x"⟩ = false ∧ search.resolve tree "/a/x" = some ⟨"/a/x.so"⟩ ∧
      isExplicit "sub/y.so" = true ∧ tree.isFile ⟨"sub/y.so"⟩ = false ∧
      search.resolve tree "sub/y.so" = some ⟨"/b/sub/y.so"⟩ := by
  decide +kernel

end NativeBridge.LibrarySearch
