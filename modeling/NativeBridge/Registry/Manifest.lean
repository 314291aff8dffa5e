/-
Manifests: texts with one declaration a line. Blank lines and lines that begin with a number sign declare nothing.
-/
import NativeBridge.Files.Tree
import NativeBridge.Text.Blank

namespace NativeBridge

/-- the declarations of a manifest, and the file they come from -/
structure Manifest where
  path : Option Path
  lines : List String
deriving DecidableEq

namespace Manifest

/-- the line declares something -/
def isDeclaration (line : List Char) : Bool :=
  match line with
  | [] => false
  | c :: _ => c != '#'

/-- the lines of a text, cut at the line feeds -/
def linesOf (s : List Char) : List (List Char) :=
  match s with
  | [] => [[]]
  | c :: rest =>
    match linesOf rest with
    | [] => [[c]]
    | first :: others => if c = '\n' then [] :: first :: others else (c :: first) :: others

/-- reads a manifest -/
def read (text : String) : Manifest :=
  ⟨none, (((linesOf text.toList).map Text.trim).filter isDeclaration).map String.ofList⟩

/-- reads the manifest in a file -/
def load (tree : FileTree) (p : Path) : Except Fault Manifest :=
  match tree.read p with
  | .ok text => .ok { read text with path := some p }
  | .error reason => .error (.load (.manifestUnreadable p.text reason))

end Manifest

end NativeBridge
