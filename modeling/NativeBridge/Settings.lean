/-
Settings: which library is opened, which of its functions are bound, and what is logged. They are read from a document, which
may leave out any setting but may not name others, and are valid if every setting that is given can be used.

- `Settings.ofDocument?`: the settings of a document.
- `Settings.validate`: the first setting that cannot be used, if there is one.
-/
import NativeBridge.Document
import NativeBridge.Fault
import NativeBridge.Files.Path
import NativeBridge.Text.Blank
import NativeBridge.Text.Lowercase

namespace NativeBridge

/-- which library is opened -/
structure LibrarySettings where
  /-- a path, or a name to be looked for -/
  path : Option String := none
  /-- folders that come before the standard ones -/
  searchPaths : List Path := []
deriving DecidableEq

/-- which functions are bound -/
structure BindingSettings where
  /-- what the symbols of bound functions begin with -/
  leaders : List String := ["python_bind_"]
  /-- the version that the library has to report -/
  expectedVersion : Option String := none
  /-- the manifest -/
  declarations : Option Path := none
deriving DecidableEq

/-- what is logged -/
structure LoggingSettings where
  level : String := "info"
  /-- as objects, one a line -/
  json : Bool := false
deriving DecidableEq

/-- all settings -/
structure Settings where
  library : LibrarySettings := {}
  binding : BindingSettings := {}
  logging : LoggingSettings := {}
deriving DecidableEq

namespace Settings

open Document

/-- a text that is a path -/
def path? (d : Document) : Option Path := d.text?.map Path.mk

/-- texts that are paths -/
def paths? (d : Document) : Option (List Path) := d.texts?.map fun texts => texts.map Path.mk

/-- reads the section of the library -/
def library? (surplus : Bool) (d : Document) : Option LibrarySettings := do
  let fields ← d.record? ⟨["path", "search-paths"], 1⟩ surplus
  let path ← field fields "path" none (nullable text?)
  let searchPaths ← field fields "search-paths" [] paths?
  some ⟨path, searchPaths⟩

/-- reads the section of the bound functions -/
def binding? (surplus : Bool) (d : Document) : Option BindingSettings := do
  let fields ← d.record? ⟨["prefixes", "expected-version", "declarations"], 3⟩ surplus
  let leaders ← field fields "prefixes" ({} : BindingSettings).leaders texts?
  let expectedVersion ← field fields "expected-version" none (nullable text?)
  let declarations ← field fields "declarations" none (nullable path?)
  some ⟨leaders, expectedVersion, declarations⟩

/-- reads the section of the log -/
def logging? (surplus : Bool) (d : Document) : Option LoggingSettings := do
  let fields ← d.record? ⟨["level", "json"], 0⟩ surplus
  let level ← field fields "level" ({} : LoggingSettings).level text?
  let json ← field fields "json" false flag?
  some ⟨level, json⟩

/-- reads settings; the flag tells whether a sequence may have more values than there are fields -/
def ofDocument? (surplus : Bool) (d : Document) : Option Settings := do
  let fields ← d.record? ⟨["library", "binding", "logging"], 0⟩ surplus
  let library ← field fields "library" {} (library? surplus)
  let binding ← field fields "binding" {} (binding? surplus)
  let logging ← field fields "logging" {} (logging? surplus)
  some ⟨library, binding, logging⟩

/-- the names of the levels of the log -/
def levelNames : List String := ["trace", "debug", "info", "warn", "error"]

/-- nothing but blanks -/
def isBlankText (s : String) : Bool := Text.trimmed s == ""

/-- the settings can be used -/
def validate (s : Settings) : Except ConfigFault Unit :=
  if s.binding.leaders = [] then .error (.invalidValue "binding.prefixes" "at least one prefix is required")
  else if s.binding.leaders.contains "" then .error (.invalidValue "binding.prefixes" "prefixes cannot be empty strings")
  else if s.binding.expectedVersion.any isBlankText then
    .error (.invalidValue "binding.expected-version" "version cannot be empty")
  else if !levelNames.contains (Text.lowercase s.logging.level) then
    .error (.invalidValue "logging.level"
      ("unknown level '" ++ s.logging.level ++ "', expected one of " ++ ", ".intercalate levelNames))
  else if s.library.path.any isBlankText then .error (.invalid "library.path cannot be empty")
  else .ok ()

end Settings

end NativeBridge
