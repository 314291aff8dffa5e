/-
Registries as settings describe them: the library is looked for and opened, its manifest is read, and its functions are
bound. Opening a library is the work of the system, so it is a parameter here.
-/
import NativeBridge.Files.LibrarySearch
import NativeBridge.Registry
import NativeBridge.Registry.Manifest
import NativeBridge.Settings

namespace NativeBridge

/-- what a program finds around it: files, variables, and a loader that opens libraries -/
structure Surroundings where
  tree : FileTree
  environment : Environment
  openLibrary : Path → Option Library

namespace Registry

/-- the options that settings stand for -/
def optionsOf (s : BindingSettings) : RegistryOptions :=
  match s.expectedVersion with
  | some expected => ⟨s.leaders, some expected⟩
  | none => { leaders := s.leaders }

/-- the search with the folders of the settings before the standard ones -/
def searchOf (around : Surroundings) (s : LibrarySettings) : LibrarySearch :=
  s.searchPaths.foldr (fun p search => search.addPath p) (.standard around.environment around.tree)

/-- opens the library of this name -/
def openLibrary (around : Surroundings) (s : LibrarySettings) (name : String) : Except LoadFault Library :=
  match (searchOf around s).resolve around.tree name with
  | none => .error (.libraryNotFound name)
  | some file =>
    match around.openLibrary file with
    | some library => .ok library
    | none => .error (.notLoadable file.text)

/-- a setting that has to be there -/
def required {α : Type} (name : String) : Option α → Except Fault α
  | some a => .ok a
  | none => .error (.config (.invalid (name ++ " is required")))

/-- the registry that settings describe -/
def ofSettings (around : Surroundings) (s : Settings) : Except Fault Registry := do
  s.validate.mapError Fault.config
  let name ← required "library.path" s.library.path
  let file ← required "binding.declarations" s.binding.declarations
  let library ← (openLibrary around s.library name).mapError Fault.load
  let manifest ← Manifest.load around.tree file
  build (optionsOf s.binding) library manifest.lines

end Registry

end NativeBridge
