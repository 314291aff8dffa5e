/-
The search for the file of a native library. A name that is a path of its own, absolute or of several steps, is taken as it
stands if there is a file; otherwise each search path is tried in turn, first with the name itself if it has an extension,
then with the name made into that of a shared library.
-/
import NativeBridge.Environment
import NativeBridge.Files.Tree

namespace NativeBridge

/-- the folders in which libraries are looked for, in order -/
structure LibrarySearch where
  paths : List Path
deriving DecidableEq

namespace LibrarySearch

/-- where the loader of the system looks -/
def systemPaths : List Path := [⟨"/usr/local/lib"⟩, ⟨"/usr/lib"⟩]

/-- the folders that the variable of the loader names -/
def loaderPaths (env : Environment) : List Path :=
  match env.get? "LD_LIBRARY_PATH" with
  | some list => (list.splitOn ":").map Path.mk
  | none => []

/-- the search in the working directory, the folders of the loader variable and those of the system -/
def standard (env : Environment) (tree : FileTree) : LibrarySearch :=
  ⟨tree.workingDirectory :: loaderPaths env ++ systemPaths⟩

/-- the search with a folder that comes before all others -/
def addPath (s : LibrarySearch) (p : Path) : LibrarySearch := ⟨p :: s.paths⟩

/-- the name stands for a path of its own -/
def isExplicit (name : String) : Bool := (Path.mk name).isAbsolute || 1 < (Path.mk name).stepCount

/-- the names under which a library is looked for in a folder -/
def fileNames (name : String) : List String :=
  (if (Path.mk name).hasExtension then [name] else []) ++ ["lib" ++ name ++ ".so", name ++ ".so"]

/-- the files that may be the library of this name, in the order in which they are tried -/
def candidates (s : LibrarySearch) (name : String) : List Path :=
  (if isExplicit name then [⟨name⟩] else []) ++ s.paths.flatMap fun folder => (fileNames name).map folder.child

/-- the file of the library of this name -/
def resolve (s : LibrarySearch) (tree : FileTree) (name : String) : Option Path := (s.candidates name).find? tree.isFile

end LibrarySearch

end NativeBridge
