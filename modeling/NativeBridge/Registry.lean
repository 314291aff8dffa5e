/-
Registries: the functions of a library that the host can call, by name. A declaration is bound if its symbol begins with one
of the configured leaders, and the rest of the symbol is the name of the function; other declarations are passed over. The
first declaration that cannot be bound is the fault of the whole registry.

- `Registry.build`: binds a list of declarations, after a look at the version of the library.
-/
import NativeBridge.Call.Run
import NativeBridge.Declaration
import NativeBridge.Registry.Library
import NativeBridge.Version

namespace NativeBridge

/-- how a registry is built -/
structure RegistryOptions where
  /-- what the symbols of bound functions begin with; the first one that fits counts -/
  leaders : List String := ["python_bind_"]
  /-- the version that the library has to report, if it reports one -/
  expectedVersion : Option String := some version
deriving DecidableEq

/-- the functions of a library, in the order of their names -/
structure Registry where
  library : Library
  functions : List (String × BoundFunction)

namespace RegistryOptions

/-- the rest of a symbol that begins with this leader -/
def afterLeader? (leader symbol : List Char) : Option (List Char) :=
  if leader.isPrefixOf symbol then some (symbol.drop leader.length) else none

/-- the name of the function with this symbol, if it is to be bound -/
def functionName? (options : RegistryOptions) (symbol : String) : Option String :=
  match options.leaders.findSome? fun leader => afterLeader? leader.toList symbol.toList with
  | some [] | none => none
  | some name => some (String.ofList name)

/-- the library reports the expected version, or none -/
def checkVersion (options : RegistryOptions) (library : Library) : Except Fault Unit :=
  match options.expectedVersion, library.reported? with
  | some expected, some found => if found = expected then .ok () else .error (.versionMismatch expected found)
  | _, _ => .ok ()

end RegistryOptions

namespace Registry

/-- the order in which functions are listed -/
def nameBefore (a b : String) : Bool := a < b

/-- the function of this name for a declaration -/
def bind (library : Library) (name text : String) : Except Fault BoundFunction := do
  let declaration ← Declaration.read text
  let native ← library.function declaration.symbol
  .ok (.declared name declaration.symbol library.name (.of declaration.params declaration.result) native)

/-- the functions with the one that a declaration binds, if it binds one -/
def addDeclaration (options : RegistryOptions) (library : Library) (functions : List (String × BoundFunction))
    (text : String) : Except Fault (List (String × BoundFunction)) :=
  match Declaration.split? text with
  | none => .error (Declaration.notUnderstood text)
  | some (symbol, _) =>
    match options.functionName? symbol with
    | none => .ok functions
    | some name =>
      if (functions.lookup name).isSome then .error (.duplicateBinding name)
      else (bind library name text).map fun f => Ordered.put nameBefore name f functions

/-- the registry of a library for these declarations -/
def build (options : RegistryOptions) (library : Library) (declarations : List String) : Except Fault Registry := do
  options.checkVersion library
  let functions ← declarations.foldlM (addDeclaration options library) []
  .ok ⟨library, functions⟩

/-- the function of this name -/
def get? (r : Registry) (name : String) : Option BoundFunction := r.functions.lookup name

/-- the function of this name, or the fault of there being none -/
def get (r : Registry) (name : String) : Except Fault BoundFunction :=
  match r.get? name with
  | some f => .ok f
  | none => .error (.unknownFunction name)

/-- the registry with a function in a new state -/
def set (r : Registry) (name : String) (f : BoundFunction) : Registry :=
  { r with functions := r.functions.map fun entry => if entry.1 = name then (name, f) else entry }

/-- the names of all functions, in order -/
def names (r : Registry) : List String := r.functions.map Prod.fst

/-- calls the function of this name -/
def call (r : Registry) (name : String) (values : List HostValue) : Metered HostValue := do
  let f ← Metered.ofExcept (r.get name)
  f.call values

/-- calls the function of this name and reads back every reference -/
def callWithReferences (r : Registry) (name : String) (values : List HostValue) : Metered CallResult := do
  let f ← Metered.ofExcept (r.get name)
  f.callWithReferences values

end Registry

end NativeBridge
