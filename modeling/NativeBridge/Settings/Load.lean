/-
Loading settings: from a file, from the nearest file in a folder or above it, and with variables of the environment put over
what the file says. The settings of a file are valid, and they still are when the variables have been put over them.
-/
import NativeBridge.Environment
import NativeBridge.Files.Tree
import NativeBridge.Settings
import NativeBridge.Toml

namespace NativeBridge.Settings

/-- the name of the file with the settings -/
def fileName : String := "bindwire.toml"

/-- the settings with the path of the manifest as seen from the file that names it -/
def locate (file : Path) (s : Settings) : Settings :=
  match s.binding.declarations, file.parent? with
  | some manifest, some folder => { s with binding := { s.binding with declarations := some (folder.join manifest) } }
  | _, _ => s

/-- reads the settings of a file -/
def ofFile (tree : FileTree) (file : Path) : Except ConfigFault Settings :=
  match tree.read file with
  | .error .missing => .error (.notFound file.text)
  | .error reason => .error (.unreadable reason)
  | .ok text =>
    match (Toml.read? text).bind (ofDocument? true) with
    | none => .error (.malformed file.text)
    | some s => do
      let s := locate file s
      s.validate
      .ok s

/-- the file with the settings for a folder: the first one in it or in a folder above it -/
def find? (tree : FileTree) (folder : Path) : Option Path :=
  ((folder :: folder.parents).map fun p => p.child fileName).find? tree.isFile

/-- the parts of a text between commas, without blanks around them and without empty ones -/
def listed (s : String) : List String := ((s.splitOn ",").map Text.trimmed).filter (· != "")

/-- the settings with the variables of the environment put over them -/
def override (env : Environment) (s : Settings) : Except ConfigFault Settings := do
  let s := match env.get? "BINDWIRE_LIBRARY" with
    | some path => { s with library.path := some path }
    | none => s
  let s ← match env.get? "BINDWIRE_PREFIXES" with
    | some text =>
      if listed text = [] then .error (.invalidValue "BINDWIRE_PREFIXES" "no prefixes given")
      else .ok { s with binding.leaders := listed text }
    | none => .ok s
  match env.get? "BINDWIRE_LOG_LEVEL" with
  | some level => .ok { s with logging.level := Text.lowercase level }
  | none => .ok s

/-- the last steps of loading; without an environment its variables are left aside -/
def finish (env : Option Environment) (s : Settings) : Except ConfigFault Settings := do
  let s ← match env with
    | some env => s.override env
    | none => .ok s
  s.validate
  .ok s

/-- loads the settings of a file -/
def loadFile (tree : FileTree) (env : Option Environment) (file : Path) : Except ConfigFault Settings := do
  (← ofFile tree file).finish env

/-- loads the settings for a folder; where there is no file, every setting is as it is by itself -/
def loadFolder (tree : FileTree) (env : Option Environment) (folder : Path) : Except ConfigFault Settings :=
  match find? tree folder with
  | some file => loadFile tree env file
  | none => finish env {}

end NativeBridge.Settings
