/-
Native libraries, as far as binding needs them: a name, the functions they export, and the version they report through a
symbol of its own. Behind that symbol stands a function as well, which can be bound like any other.
-/
import NativeBridge.Call.Native
import NativeBridge.Text.Utf8
import NativeBridge.Version

namespace NativeBridge

/-- what a library exports as its version symbol -/
inductive VersionExport where
  /-- no such symbol -/
  | missing
  /-- a symbol that answers null -/
  | null
  /-- a symbol that answers these bytes, up to the first zero -/
  | text (bytes : ByteArray)

/-- where the text of a version lies; of this address nothing counts but that it is not null -/
def versionAddress : UInt64 := 0x7F0000002000

/-- the function behind the version symbol: it looks at no argument and returns the address of the text, or null -/
def VersionExport.function? : VersionExport → Option Native
  | .missing => none
  | .null => some fun _ => { returned := .word 0 }
  | .text _ => some fun _ => { returned := .word versionAddress }

/-- a native library -/
structure Library where
  name : String
  functions : List (String × Native)
  version : VersionExport := .missing

namespace Library

/-- every exported symbol with its function; the version symbol hides another function of the same name -/
def exports (library : Library) : List (String × Native) :=
  match library.version.function? with
  | none => library.functions
  | some native => (versionSymbol, native) :: library.functions.filter fun entry => entry.1 != versionSymbol

/-- the exported function with this symbol -/
def function (library : Library) (symbol : String) : Except Fault Native :=
  match library.exports.lookup symbol with
  | some native => .ok native
  | none => .error (.load (.symbolNotFound library.name symbol))

/-- the version the library reports -/
def reported? (library : Library) : Option String :=
  match library.version with
  | .missing | .null => none
  | .text bytes => some (Text.readLossy (WireText.untilZero bytes).bytes.data.toList)

/-- how many symbols the library exports -/
def symbolCount (library : Library) : Nat := library.exports.length

end Library

end NativeBridge
