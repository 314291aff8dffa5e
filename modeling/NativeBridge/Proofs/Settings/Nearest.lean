/-
The settings that are found for a folder. The search goes up from the folder as long as its path has steps to lose: from an
absolute path up to the root, from a relative one up to the working directory and no further.

- `Settings.LooksInto`, `Settings.Nearest`: the folders that the search gets to, and the one of them that counts.
- `nearest_found`: the settings of the nearest folder are found, and none only if no folder that the search gets to has any. The
  folders that it gets to lie between the start and where its path begins, and are all of those unless the path is too long.
- `settings_missed`: so settings above the working directory are not found from a relative path.
-/
import NativeBridge.Proofs.Files.Tree
import NativeBridge.Settings.Load

namespace NativeBridge.Settings

variable {tree : FileTree} {start p q : Path} {folder : List String}

theorem isName_fileName : FileNode.IsName fileName where
  notIdle := by decide +kernel
  notUp := by decide +kernel
  slashFree := by decide +kernel
  zeroFree := by decide +kernel
  short := by decide +kernel

/-- the search from this start gets to the folder, by a path that is short enough for the file in it to be looked at -/
def LooksInto (tree : FileTree) (start : Path) (folder : List String) : Prop :=
  ∃ p ∈ start :: start.parents, tree.place p = folder ∧ (p.child fileName).text.utf8ByteSize ≤ FileTree.longestPath

/-- the folder has settings, and no other folder below it that the search gets to has any -/
structure Nearest (tree : FileTree) (start : Path) (folder : List String) : Prop where
  looked : LooksInto tree start folder
  hasFile : tree.HasFile folder fileName
  nearest : ∀ below, folder <+: below → LooksInto tree start below → tree.HasFile below fileName → below = folder

/-! ## The way up -/

theorem leadsDown_of_mem (down : start.LeadsDown) (mem : p ∈ start :: start.parents) : p.LeadsDown := by
  obtain rfl | mem := List.mem_cons.1 mem
  · exact down
  · exact (Path.isAbove_of_mem_parents mem).leadsDown down

/-- every path on the way up begins where the start does -/
theorem place_of_mem (mem : p ∈ start :: start.parents) : tree.place p = tree.origin start ++ FileTree.names p := by
  obtain rfl | mem := List.mem_cons.1 mem
  · rfl
  · rw [FileTree.place, FileTree.origin, FileTree.origin, (Path.isAbove_of_mem_parents mem).isAbsolute]

theorem names_prefix_of_mem (mem : p ∈ start :: start.parents) : FileTree.names p <+: FileTree.names start := by
  obtain rfl | mem := List.mem_cons.1 mem
  · exact List.prefix_rfl
  · exact (Path.isAbove_of_mem_parents mem).names

theorem size_le_of_mem (mem : p ∈ start :: start.parents) :
    (p.child fileName).text.utf8ByteSize ≤ (start.child fileName).text.utf8ByteSize := by
  obtain rfl | mem := List.mem_cons.1 mem
  · exact Nat.le_refl _
  · exact Path.size_child_le isName_fileName.slashFree (Path.isAbove_of_mem_parents mem).shorter

theorem between_of_looksInto (looked : LooksInto tree start folder) :
    tree.origin start <+: folder ∧ folder <+: tree.place start := by
  obtain ⟨p, mem, rfl, -⟩ := looked
  rw [place_of_mem mem]
  exact ⟨List.prefix_append _ _, (List.prefix_append_right_inj _).2 (names_prefix_of_mem mem)⟩

theorem looksInto_of_between (short : (start.child fileName).text.utf8ByteSize ≤ FileTree.longestPath)
    (above : tree.origin start <+: folder) (below : folder <+: tree.place start) : LooksInto tree start folder := by
  obtain ⟨names, rfl⟩ := above
  obtain ⟨p, mem, rfl⟩ := Path.exists_mem_parents ((List.prefix_append_right_inj _).1 below)
  exact ⟨p, mem, place_of_mem mem, Nat.le_trans (size_le_of_mem mem) short⟩

/-! ## The search -/

theorem isFile_of_mem_iff (placed : tree.IsPlaced) (down : start.LeadsDown) (mem : p ∈ start :: start.parents) :
    tree.isFile (p.child fileName) = true ↔
      (p.child fileName).text.utf8ByteSize ≤ FileTree.longestPath ∧ tree.HasFile (tree.place p) fileName :=
  FileTree.isFile_child_iff placed (leadsDown_of_mem down mem) isName_fileName

/-- the settings that are found take more steps than all other settings on the way up -/
theorem find?_eq_some {file : Path} (found : find? tree start = some file) : ∃ p ∈ start :: start.parents,
    file = p.child fileName ∧ tree.isFile (p.child fileName) = true ∧
      ∀ q ∈ start :: start.parents, tree.isFile (q.child fileName) = true → FileTree.names q <+: FileTree.names p := by
  rw [find?, List.find?_map, Option.map_eq_some_iff] at found
  obtain ⟨p, found, rfl⟩ := found
  obtain ⟨isFile, before, after, whole, nothing⟩ := List.find?_eq_some_iff_append.1 found
  have steps := Path.pairwise_parents start
  rw [whole] at steps ⊢
  refine ⟨p, List.mem_append_right _ List.mem_cons_self, rfl, isFile, fun q mem isFile' => ?_⟩
  obtain earlier | here := List.mem_append.1 mem
  · have := nothing q earlier
    simp [isFile'] at this
  · obtain rfl | later := List.mem_cons.1 here
    · exact List.prefix_rfl
    · exact (List.pairwise_cons.1 (List.pairwise_append.1 steps).2.1).1 q later

theorem find?_eq_none_iff (placed : tree.IsPlaced) (down : start.LeadsDown) :
    find? tree start = none ↔ ∀ folder, LooksInto tree start folder → ¬ tree.HasFile folder fileName := by
  simp only [find?, List.find?_map, Option.map_eq_none_iff, List.find?_eq_none, Function.comp_apply]
  constructor
  · rintro nothing _ ⟨p, mem, rfl, short⟩ hasFile
    exact nothing p mem ((isFile_of_mem_iff placed down mem).2 ⟨short, hasFile⟩)
  · intro nothing p mem isFile
    obtain ⟨short, hasFile⟩ := (isFile_of_mem_iff placed down mem).1 isFile
    exact nothing _ ⟨p, mem, rfl, short⟩ hasFile

theorem nearest_of_find? {file : Path} (placed : tree.IsPlaced) (down : start.LeadsDown) (found : find? tree start = some file) :
    ∃ folder, Nearest tree start folder ∧ tree.place file = folder ++ [fileName] := by
  obtain ⟨p, mem, rfl, isFile, most⟩ := find?_eq_some found
  obtain ⟨short, hasFile⟩ := (isFile_of_mem_iff placed down mem).1 isFile
  refine ⟨tree.place p, ⟨⟨p, mem, rfl, short⟩, hasFile, ?_⟩,
    FileTree.place_child isName_fileName.slashFree isName_fileName.notIdle⟩
  rintro _ longer ⟨q, mem', rfl, short'⟩ hasFile'
  rw [place_of_mem mem, place_of_mem mem'] at longer ⊢
  have shorter := most q mem' ((isFile_of_mem_iff placed down mem').2 ⟨short', hasFile'⟩)
  rw [shorter.eq_of_length_le ((List.prefix_append_right_inj _).1 longer).length_le]

theorem Nearest.unique {other : List String} (first : Nearest tree start folder) (second : Nearest tree start other) :
    folder = other := by
  have here := (between_of_looksInto first.looked).2
  have there := (between_of_looksInto second.looked).2
  obtain shorter | longer := List.prefix_or_prefix_of_prefix here there
  · exact (first.nearest other shorter second.looked second.hasFile).symm
  · exact second.nearest folder longer first.looked first.hasFile

/-- **The settings of the nearest folder are found, as far up as the path of the start goes.** Nothing is found only if no folder
that the search gets to has settings. It gets to no folder above the one where its path begins, which is the root for an absolute
path and the working directory for a relative one, and to all from there down to the start if their paths are not too long. -/
theorem nearest_found (placed : tree.IsPlaced) (down : start.LeadsDown) :
    (∀ folder, (∃ file, find? tree start = some file ∧ tree.place file = folder ++ [fileName]) ↔ Nearest tree start folder) ∧
      (find? tree start = none ↔ ∀ folder, LooksInto tree start folder → ¬ tree.HasFile folder fileName) ∧
      (∀ folder, LooksInto tree start folder → tree.origin start <+: folder ∧ folder <+: tree.place start) ∧
      ((start.child fileName).text.utf8ByteSize ≤ FileTree.longestPath →
        ∀ folder, tree.origin start <+: folder → folder <+: tree.place start → LooksInto tree start folder) := by
  refine ⟨fun folder => ⟨?_, fun isNearest => ?_⟩, find?_eq_none_iff placed down, fun _ => between_of_looksInto,
    fun short _ => looksInto_of_between short⟩
  · rintro ⟨file, found, place⟩
    obtain ⟨other, isNearest, place'⟩ := nearest_of_find? placed down found
    rw [place, List.append_left_inj] at place'
    exact place' ▸ isNearest
  · cases found : find? tree start with
    | none => exact absurd isNearest.hasFile ((find?_eq_none_iff placed down).1 found folder isNearest.looked)
    | some file =>
      obtain ⟨other, isNearest', place⟩ := nearest_of_find? placed down found
      exact ⟨file, rfl, isNearest.unique isNearest' ▸ place⟩

/-- from a relative path, the settings of the working directory: they are nearer than those above it -/
theorem nearest_found_working_directory :
    let tree := ((FileTree.empty ⟨"/w/a"⟩).withFile ⟨"/w/bindwire.toml"⟩ .empty).withFile ⟨"/w/a/bindwire.toml"⟩ .empty
    tree.IsPlaced ∧ (Path.mk "b/c").LeadsDown ∧ find? tree ⟨"b/c"⟩ = some ⟨"bindwire.toml"⟩ ∧
      Nearest tree ⟨"b/c"⟩ ["w", "a"] := by
  intro tree
  have placed : tree.IsPlaced := ⟨by decide +kernel, by decide +kernel⟩
  have down : (Path.mk "b/c").LeadsDown := by decide +kernel
  have found : find? tree ⟨"b/c"⟩ = some ⟨"bindwire.toml"⟩ := by decide +kernel
  exact ⟨placed, down, found, ((nearest_found placed down).1 _).1 ⟨_, found, by decide +kernel⟩⟩

/-! ## What is missed -/

/-- a path that is too long for its slashes: the folder it stands for is passed over -/
theorem find?_withSlashes {n : Nat} (placed : tree.IsPlaced) (down : p.LeadsDown) (many : FileTree.longestPath < n) :
    find? tree (p.withSlashes n) = (p.parents.map fun q => q.child fileName).find? tree.isFile := by
  have long : FileTree.longestPath < ((p.withSlashes n).child fileName).text.utf8ByteSize := by
    have := Path.size_withSlashes p n
    obtain ⟨text, -⟩ | ⟨text, -⟩ := Path.text_child (p := p.withSlashes n) isName_fileName.slashFree <;>
      simp only [text, String.utf8ByteSize_append] <;> omega
  have down : (p.withSlashes n).LeadsDown := by
    intro piece mem
    rw [Path.pieces_withSlashes, List.mem_append, List.mem_replicate] at mem
    obtain mem | ⟨-, rfl⟩ := mem
    · exact down piece mem
    · nofun
  have passed : tree.isFile ((p.withSlashes n).child fileName) = false := Bool.eq_false_iff.2 fun isFile =>
    Nat.not_le.2 long ((FileTree.isFile_child_iff placed down isName_fileName).1 isFile).1
  rw [find?, Path.parents_withSlashes, List.map_cons, List.find?_cons_of_neg (by simp [passed])]

/-- Settings that are missed: those above the working directory, from a relative path but not from the absolute path of the same
folder; and those of the start itself, if its path is too long. -/
theorem settings_missed :
    let tree := ((FileTree.empty ⟨"/w/sub"⟩).withFolder ⟨"/w/sub"⟩).withFile ⟨"/w/bindwire.toml"⟩ .empty
    let long := (Path.mk "/w").withSlashes 4100
    tree.HasFile ["w"] fileName ∧ ["w"] <+: tree.place ⟨"."⟩ ∧ find? tree ⟨"."⟩ = none ∧
      tree.place ⟨"/w/sub"⟩ = tree.place ⟨"."⟩ ∧ find? tree ⟨"/w/sub"⟩ = some ⟨"/w/bindwire.toml"⟩ ∧
      tree.place long = ["w"] ∧ find? tree long = none := by
  intro tree long
  have placed : tree.IsPlaced := ⟨by decide +kernel, by decide +kernel⟩
  have down : (Path.mk "/w").LeadsDown := by decide +kernel
  have place : tree.place ⟨"/w"⟩ = ["w"] := by decide +kernel
  have hasFile := ((FileTree.isFile_child_iff placed down isName_fileName).1 (by decide +kernel)).2
  have absolute : long.isAbsolute = true := by
    simp only [long, Path.isAbsolute, Path.withSlashes, String.toList_append]
    rfl
  have longPlace : tree.place long = ["w"] := by
    rw [FileTree.place, FileTree.origin, absolute, Path.names_withSlashes]
    decide +kernel
  refine ⟨place ▸ hasFile, by decide +kernel, by decide +kernel, by decide +kernel, by decide +kernel, longPlace, ?_⟩
  rw [find?_withSlashes placed down (by decide)]
  decide +kernel

end NativeBridge.Settings
