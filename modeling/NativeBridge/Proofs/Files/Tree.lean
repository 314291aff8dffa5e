/-
Where paths lead. The folder of a path is told by the names that lead to it from the root, and a file is in a folder if the
names of the folder and its own lead to it. A path that never goes up leads to just that.

- `FileNode.Leads`: a list of names leads from a node down to a part of it.
- `FilePlace.follow_pieces_iff`: following pieces that never go up is following their steps.
- `FileTree.isFile_child_iff`: there is a file of a name in the folder of a path, if the path to it can be followed at all.
-/
import NativeBridge.Proofs.Files.Path

namespace NativeBridge

/-! ## Ways down -/

/-- what a file or folder can be called -/
structure FileNode.IsName (name : String) : Prop where
  notIdle : Path.isIdle name.toList = false
  notUp : name.toList ≠ ['.', '.']
  slashFree : '/' ∉ name.toList
  zeroFree : '\x00' ∉ name.toList
  short : name.utf8ByteSize ≤ FilePlace.longestName

/-- the names lead from one node down to another -/
inductive FileNode.Leads : FileNode → List String → FileNode → Prop
  | here (node : FileNode) : Leads node [] node
  | down {entries : List (String × FileNode)} {name : String} {names : List String} {next node : FileNode}
      (entry : entries.lookup name = some next) (isName : IsName name) (rest : Leads next names node) :
      Leads (.folder entries) (name :: names) node

namespace Path

/-- a piece that stays in a folder or goes down from it -/
structure GoesDown (piece : List Char) : Prop where
  notUp : piece ≠ ['.', '.']
  slashFree : '/' ∉ piece
  zeroFree : '\x00' ∉ piece

/-- the path never goes up -/
def LeadsDown (p : Path) : Prop := ∀ piece ∈ p.pieces, piece ≠ ['.', '.']

instance (p : Path) : Decidable p.LeadsDown := inferInstanceAs (Decidable (∀ piece ∈ p.pieces, piece ≠ ['.', '.']))

theorem goesDown_of_mem_pieces {p : Path} {piece : List Char} (down : p.LeadsDown) (zeroFree : '\x00' ∉ p.text.toList)
    (mem : piece ∈ p.pieces) : GoesDown piece where
  notUp := down piece mem
  slashFree := slash_not_mem_of_mem_pieces mem
  zeroFree zero := zeroFree (exists_mem_split_iff.1 ⟨piece, mem, zero⟩).1

theorem IsAbove.leadsDown {q p : Path} (isAbove : q.IsAbove p) (down : p.LeadsDown) : q.LeadsDown := by
  intro piece mem
  obtain rfl | mem := isAbove.pieces piece mem
  · nofun
  · exact down piece mem

end Path

namespace FileNode

theorem isName_of_leads {node target : FileNode} {names : List String} {name : String} (leads : node.Leads names target)
    (mem : name ∈ names) : IsName name := by
  induction leads with
  | here => cases mem
  | down _ isName _ ih =>
    obtain rfl | mem := List.mem_cons.1 mem
    · exact isName
    · exact ih mem

theorem not_leads_file {content : ByteArray} {name : String} {names : List String} {target : FileNode} :
    ¬ (FileNode.file content).Leads (name :: names) target := nofun

theorem leads_cons_iff {entries : List (String × FileNode)} {name : String} {names : List String} {target : FileNode} :
    (FileNode.folder entries).Leads (name :: names) target ↔
      IsName name ∧ ∃ next, entries.lookup name = some next ∧ next.Leads names target := by
  constructor
  · intro leads
    cases leads with
    | down entry isName rest => exact ⟨isName, _, entry, rest⟩
  · rintro ⟨isName, next, entry, rest⟩
    exact .down entry isName rest

end FileNode

/-! ## Following a path -/

namespace FilePlace

variable {content : ByteArray} {entries : List (String × FileNode)} {above : List FileNode} {place : FilePlace}
  {piece : List Char} {pieces : List (List Char)} {node target : FileNode} {name : String}

theorem follow_file : FilePlace.follow ⟨.file content, above⟩ piece = .error .notDirectory := rfl

theorem follow_idle (idle : Path.isIdle piece = true) :
    FilePlace.follow ⟨.folder entries, above⟩ piece = .ok ⟨.folder entries, above⟩ := if_pos idle

/-- what a piece that is a name leads to: the entry, or a fault if there is none or nothing can be called so -/
theorem follow_name_ok_iff (idle : Path.isIdle piece = false) (down : Path.GoesDown piece) :
    FilePlace.follow ⟨.folder entries, above⟩ piece = .ok place ↔ FileNode.IsName (String.ofList piece) ∧
      ∃ next, entries.lookup (String.ofList piece) = some next ∧ place = ⟨next, .folder entries :: above⟩ := by
  have isName_iff : FileNode.IsName (String.ofList piece) ↔ (String.ofList piece).utf8ByteSize ≤ longestName := by
    refine ⟨fun isName => isName.short, fun short => ⟨?_, ?_, ?_, ?_, short⟩⟩ <;> rw [String.toList_ofList]
    exacts [idle, down.notUp, down.slashFree, down.zeroFree]
  simp only [follow, idle, Bool.false_eq_true, if_false, down.notUp, isName_iff]
  split
  · next long => simp [long]
  · next short =>
    rw [Nat.not_lt] at short
    split
    · next next entry => simp [short, entry, eq_comm]
    · next missing => simp [missing]

/-- **Following pieces that never go up is following their steps**, up to a name at the end. -/
theorem follow_pieces_iff (isName : FileNode.IsName name) (down : ∀ piece ∈ pieces, Path.GoesDown piece) :
    (∃ above', (pieces ++ [name.toList]).foldlM FilePlace.follow ⟨node, above⟩ = .ok ⟨target, above'⟩) ↔
      node.Leads (Path.steps pieces ++ [name]) target := by
  induction pieces generalizing node above with
  | nil =>
    rw [List.nil_append, Path.steps_nil, List.nil_append]
    simp only [List.foldlM_cons, List.foldlM_nil, bind_pure]
    cases node with
    | file content => simp [follow_file, FileNode.not_leads_file]
    | folder entries =>
      simp only [follow_name_ok_iff isName.notIdle ⟨isName.notUp, isName.slashFree, isName.zeroFree⟩, String.ofList_toList,
        FileNode.leads_cons_iff]
      constructor
      · rintro ⟨above', isName, next, entry, same⟩
        cases same
        exact ⟨isName, _, entry, .here _⟩
      · rintro ⟨isName, next, entry, ⟨⟩⟩
        exact ⟨_, isName, _, entry, rfl⟩
  | cons piece rest ih =>
    obtain ⟨pieceDown, down⟩ := List.forall_mem_cons.1 down
    rw [List.cons_append, List.foldlM_cons]
    cases node with
    | file content =>
      -- a file has no parts, and a name is still to come, however many idle pieces stand before it
      have some : Path.steps (piece :: rest) ++ [name] ≠ [] := by simp
      obtain ⟨first, others, whole⟩ := List.exists_cons_of_ne_nil some
      rw [follow_file, whole]
      exact ⟨nofun, fun leads => absurd leads FileNode.not_leads_file⟩
    | folder entries =>
      cases idle : Path.isIdle piece with
      | true =>
        rw [follow_idle idle, Path.steps_cons_of_isIdle idle]
        exact ih down
      | false =>
        rw [Path.steps_cons_of_not_isIdle idle, List.cons_append, FileNode.leads_cons_iff]
        have step (place : FilePlace) := @follow_name_ok_iff entries above place piece idle pieceDown
        cases followed : FilePlace.follow ⟨.folder entries, above⟩ piece with
        | error fault =>
          refine ⟨nofun, fun ⟨isName, next, entry, _⟩ => ?_⟩
          have := (step ⟨next, .folder entries :: above⟩).2 ⟨isName, next, entry, rfl⟩
          rw [followed] at this
          cases this
        | ok place =>
          obtain ⟨isName, next, entry, rfl⟩ := (step place).1 followed
          refine (ih down).trans ⟨fun leads => ⟨isName, next, entry, leads⟩, fun ⟨_, other, entry', leads⟩ => ?_⟩
          rw [entry] at entry'
          cases entry'
          exact leads

end FilePlace

/-! ## Folders and files -/

namespace FileTree

variable {tree : FileTree} {p : Path} {name : String}

/-- the pieces that are followed before those of a path: none from the root, else the way to the working directory -/
def lead (tree : FileTree) (p : Path) : List (List Char) := if p.isAbsolute then [] else tree.workingDirectory.pieces

/-- where a path begins: at the root, or in the working directory -/
def origin (tree : FileTree) (p : Path) : List String := if p.isAbsolute then [] else names tree.workingDirectory

/-- the names that lead from the root to the end of a path -/
def place (tree : FileTree) (p : Path) : List String := tree.origin p ++ names p

/-- the folder with these names from the root has a file of this name -/
def HasFile (tree : FileTree) (folder : List String) (name : String) : Prop :=
  ∃ content, tree.root.Leads (folder ++ [name]) (.file content)

/-- the working directory as the system tells it, by its way down from the root -/
structure IsPlaced (tree : FileTree) : Prop where
  down : tree.workingDirectory.LeadsDown
  zeroFree : '\x00' ∉ tree.workingDirectory.text.toList

theorem steps_lead (tree : FileTree) (p : Path) : Path.steps (tree.lead p) = tree.origin p := by
  unfold lead origin
  split <;> rfl

theorem goesDown_of_mem_lead {piece : List Char} (placed : tree.IsPlaced) (mem : piece ∈ tree.lead p) : Path.GoesDown piece := by
  unfold lead at mem
  split at mem
  · cases mem
  · exact Path.goesDown_of_mem_pieces placed.down placed.zeroFree mem

theorem place_child (slashFree : '/' ∉ name.toList) (idle : Path.isIdle name.toList = false) :
    tree.place (p.child name) = tree.place p ++ [name] := by
  simp only [place, origin, Path.isAbsolute_child slashFree, Path.names_child slashFree idle, List.append_assoc]

/-- a zero character of a path is in one of its steps -/
theorem exists_mem_names_of_zero (zero : '\x00' ∈ p.text.toList) : ∃ name ∈ names p, '\x00' ∈ name.toList := by
  obtain ⟨piece, mem, zero⟩ := Path.exists_mem_split_iff.2 ⟨zero, by decide⟩
  refine ⟨String.ofList piece, List.mem_map_of_mem (List.mem_filter.2 ⟨mem, ?_⟩), by rwa [String.toList_ofList]⟩
  have proper : piece ≠ [] ∧ piece ≠ ['.'] := by
    constructor <;> rintro rfl <;> revert zero <;> decide
  simp [Path.isIdle, proper]

theorem bind_node_ok_iff {outcome : Except FileFault FilePlace} {node : FileNode} :
    (do let place ← outcome; Except.ok place.node) = .ok node ↔ ∃ above, outcome = .ok ⟨node, above⟩ := by
  cases outcome with
  | error fault => exact ⟨nofun, nofun⟩
  | ok place =>
    constructor
    · rintro ⟨⟩
      exact ⟨place.above, rfl⟩
    · rintro ⟨above, ⟨⟩⟩
      rfl

theorem find_ok_iff {node : FileNode} : tree.find p = .ok node ↔
    '\x00' ∉ p.text.toList ∧ p.text ≠ "" ∧ p.text.utf8ByteSize ≤ longestPath ∧
      ∃ above, (tree.lead p ++ p.pieces).foldlM FilePlace.follow ⟨tree.root, []⟩ = .ok ⟨node, above⟩ := by
  have pieces : (if p.isAbsolute then p.pieces else tree.workingDirectory.pieces ++ p.pieces) = tree.lead p ++ p.pieces := by
    unfold lead
    split <;> rfl
  unfold find
  rw [pieces]
  split
  · next zero => exact ⟨nofun, fun found => absurd (List.contains_iff_mem.1 zero) found.1⟩
  · next zeroFree =>
    split
    · next empty => exact ⟨nofun, fun found => absurd empty found.2.1⟩
    · next some =>
      split
      · next long => exact ⟨nofun, fun found => absurd found.2.2.1 (Nat.not_le.2 long)⟩
      · next short =>
        rw [bind_node_ok_iff]
        exact ⟨fun found => ⟨mt List.contains_iff_mem.2 zeroFree, some, Nat.not_lt.1 short, found⟩, fun found => found.2.2.2⟩

/-- **There is a file of a name in the folder of a path** that never goes up, if the whole path is short enough to be followed. -/
theorem isFile_child_iff (placed : tree.IsPlaced) (down : p.LeadsDown) (isName : FileNode.IsName name) :
    tree.isFile (p.child name) = true ↔
      (p.child name).text.utf8ByteSize ≤ longestPath ∧ tree.HasFile (tree.place p) name := by
  obtain ⟨front, cut, steps, within⟩ := Path.pieces_child (p := p) isName.slashFree
  have zero_iff : '\x00' ∈ (p.child name).text.toList ↔ '\x00' ∈ p.text.toList := by
    have slash : '\x00' ∉ "/".toList := by decide
    obtain ⟨text, -⟩ | ⟨text, -⟩ := Path.text_child (p := p) isName.slashFree <;>
      simp only [text, String.toList_append, List.mem_append, isName.zeroFree, slash, or_false]
  have some : (p.child name).text ≠ "" := by
    intro empty
    rw [Path.pieces, empty] at cut
    have last := congrArg List.getLast? cut
    rw [List.getLast?_concat] at last
    exact absurd isName.notIdle (by rw [← Option.some.inj last]; decide)
  have lead : tree.lead (p.child name) = tree.lead p := by
    rw [FileTree.lead, FileTree.lead, Path.isAbsolute_child isName.slashFree]
  simp only [isFile_iff, find_ok_iff, zero_iff, lead, cut, ← List.append_assoc]
  by_cases zero : '\x00' ∈ p.text.toList
  · -- no such path is followed, and none of its steps can be a name
    obtain ⟨step, mem, zero'⟩ := exists_mem_names_of_zero zero
    have nothing : ¬ tree.HasFile (tree.place p) name := by
      rintro ⟨content, leads⟩
      exact (FileNode.isName_of_leads leads (List.mem_append_left _ (List.mem_append_right _ mem))).zeroFree zero'
    constructor
    · rintro ⟨-, zeroFree, -⟩
      exact absurd zero zeroFree
    · rintro ⟨-, hasFile⟩
      exact absurd hasFile nothing
  · have goesDown : ∀ piece ∈ tree.lead p ++ front, Path.GoesDown piece := List.forall_mem_append.2
      ⟨fun piece mem => goesDown_of_mem_lead placed mem,
        fun piece mem => Path.goesDown_of_mem_pieces down zero (within piece mem)⟩
    simp only [FilePlace.follow_pieces_iff isName goesDown, Path.steps_append, steps_lead, steps]
    constructor
    · rintro ⟨content, -, -, short, leads⟩
      exact ⟨short, content, leads⟩
    · rintro ⟨short, content, leads⟩
      exact ⟨content, zero, some, short, leads⟩

end FileTree

end NativeBridge
