/-
Files as a tree of folders, with a folder in which relative paths begin. A path is followed piece by piece: an idle piece
stays, two points go up, a name goes down. Every piece has to be looked for in a folder, the empty one behind a final slash
too.

- `FileTree.read`: the text of a file, or why there is none.
-/
import NativeBridge.Fault
import NativeBridge.Files.Path

namespace NativeBridge

/-- a file or a folder -/
inductive FileNode where
  | file (content : ByteArray)
  | folder (entries : List (String × FileNode))
deriving Inhabited

/-- all files, and where relative paths begin -/
structure FileTree where
  root : FileNode
  workingDirectory : Path

namespace FileNode

/-- the entries of a folder with another one under a name -/
def put (name : String) (node : FileNode) (entries : List (String × FileNode)) : List (String × FileNode) :=
  (name, node) :: entries.filter fun entry => entry.1 != name

/-- the node with the part below these names changed; folders that are missing are made -/
def alter (change : FileNode → FileNode) : List String → FileNode → FileNode
  | [], node => change node
  | name :: rest, folder entries =>
    folder (put name (alter change rest ((entries.lookup name).getD (folder []))) entries)
  | _ :: _, file content => file content

end FileNode

/-- a place in the tree: a node and the folders above it, the nearest first -/
structure FilePlace where
  node : FileNode
  above : List FileNode

namespace FilePlace

/-- the longest name of a file, in bytes -/
def longestName : Nat := 255

/-- follows one piece of a path -/
def follow (place : FilePlace) (piece : List Char) : Except FileFault FilePlace :=
  match place.node with
  | .file _ => .error .notDirectory
  | .folder entries =>
    if Path.isIdle piece then .ok place
    else if piece = ['.', '.'] then
      match place.above with
      | [] => .ok place
      | parent :: rest => .ok ⟨parent, rest⟩
    else
      let name := String.ofList piece
      if longestName < name.utf8ByteSize then .error .nameTooLong
      else
        match entries.lookup name with
        | some node => .ok ⟨node, place.node :: place.above⟩
        | none => .error .missing

end FilePlace

namespace FileTree

/-- the longest path that can be followed, in bytes -/
def longestPath : Nat := 4095

/-- the tree without files -/
def empty (workingDirectory : Path) : FileTree := ⟨.folder [], workingDirectory⟩

/-- the names along a path -/
def names (p : Path) : List String := (p.pieces.filter fun piece => !Path.isIdle piece).map String.ofList

/-- the tree with a file -/
def withFile (tree : FileTree) (p : Path) (content : ByteArray) : FileTree :=
  { tree with root := tree.root.alter (fun _ => .file content) (names p) }

/-- the tree with a folder -/
def withFolder (tree : FileTree) (p : Path) : FileTree := { tree with root := tree.root.alter id (names p) }

/-- follows a path -/
def find (tree : FileTree) (p : Path) : Except FileFault FileNode :=
  if p.text.toList.contains '\x00' then .error .zeroInPath
  else if p.text = "" then .error .missing
  else if longestPath < p.text.utf8ByteSize then .error .nameTooLong
  else do
    let pieces := if p.isAbsolute then p.pieces else tree.workingDirectory.pieces ++ p.pieces
    let place ← pieces.foldlM FilePlace.follow ⟨tree.root, []⟩
    .ok place.node

/-- there is a file at the end of the path -/
def isFile (tree : FileTree) (p : Path) : Bool :=
  match tree.find p with
  | .ok (.file _) => true
  | _ => false

/-- the text of a file -/
def read (tree : FileTree) (p : Path) : Except FileFault String := do
  match ← tree.find p with
  | .folder _ => .error .isDirectory
  | .file content =>
    match String.fromUTF8? content with
    | some text => .ok text
    | none => .error .notUtf8

theorem isFile_iff {tree : FileTree} {p : Path} :
    tree.isFile p = true ↔ ∃ content, tree.find p = .ok (.file content) := by
  unfold isFile
  split
  · next content h => simp [h]
  · next h => simpa using h

end FileTree

end NativeBridge
