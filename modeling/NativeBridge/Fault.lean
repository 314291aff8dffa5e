/-
What can go wrong, from reading a declaration to decoding a result. A fault is a cause with its data; `Fault.message` gives
its wording. Three kinds of faults carry a position, a path of steps from the outside inwards, to which each enclosing
container, argument or result puts its own step in front.

- `position?_within`: a step is put in front of the position of exactly the faults that carry one.
-/
import NativeBridge.Key

namespace NativeBridge

/-- one step of a path into a type or a value -/
inductive Step where
  /-- an element of a tuple or list -/
  | index (i : Nat)
  /-- the element type of a list -/
  | element
  /-- a key of a dictionary -/
  | key
  /-- a value of a dictionary -/
  | value
  /-- an argument of a call -/
  | argument (i : Nat)
  /-- the result of a call -/
  | result
  /-- a step with a name of its own -/
  | named (text : String)
deriving DecidableEq

/-- a path, outermost step first -/
abbrev Position := List Step

/-- how a step is written -/
def Step.text : Step → String
  | .index i => "[" ++ toString i ++ "]"
  | .element => "[*]"
  | .key => ".key"
  | .value => ".value"
  | .argument i => "arg" ++ toString i
  | .result => "return"
  | .named text => text

/-- how a path is written -/
def Position.text (p : Position) : String := p.foldr (fun step rest => step.text ++ rest) ""

/-- why a file cannot be read -/
inductive FileFault where
  | missing
  | isDirectory
  | notDirectory
  | nameTooLong
  /-- a path with a zero character -/
  | zeroInPath
  | notUtf8
deriving DecidableEq

/-- the wording of the operating system -/
def FileFault.message : FileFault → String
  | .missing => "No such file or directory (os error 2)"
  | .isDirectory => "Is a directory (os error 21)"
  | .notDirectory => "Not a directory (os error 20)"
  | .nameTooLong => "File name too long (os error 36)"
  | .zeroInPath => "file name contained an unexpected NUL byte"
  | .notUtf8 => "stream did not contain valid UTF-8"

/-- why a library or its declarations cannot be used -/
inductive LoadFault where
  | libraryNotFound (name : String)
  | symbolNotFound (library symbol : String)
  | notLoadable (path : String)
  | manifestUnreadable (path : String) (reason : FileFault)
deriving DecidableEq

/-- the wording of a load fault -/
def LoadFault.message : LoadFault → String
  | .libraryNotFound name => "Library not found: " ++ name
  | .symbolNotFound library symbol => "Symbol '" ++ symbol ++ "' not found in library '" ++ library ++ "'"
  | .notLoadable path => "Failed to load library: " ++ path
  | .manifestUnreadable path reason => "Failed to read declarations from " ++ path ++ ": " ++ reason.message

/-- why a configuration cannot be used -/
inductive ConfigFault where
  | notFound (path : String)
  | unreadable (reason : FileFault)
  | malformed (path : String)
  | invalid (reason : String)
  | invalidValue (field reason : String)
deriving DecidableEq

/-- the wording of a configuration fault -/
def ConfigFault.message : ConfigFault → String
  | .notFound path => "Configuration file not found: " ++ path
  | .unreadable reason => "Failed to read configuration file: " ++ reason.message
  | .malformed path => "Malformed configuration file: " ++ path
  | .invalid reason => "Invalid configuration: " ++ reason
  | .invalidValue field reason => "Invalid value for '" ++ field ++ "': " ++ reason

/-- what can go wrong when functions are declared, bound and called -/
inductive Fault where
  | unsupportedType (token : String)
  | typeMismatch (expected found : String) (position : Position)
  | missingHint (symbol : String) (position : Position)
  | arityMismatch (symbol : String) (expected given : Nat)
  | invalidText (reason : String)
  | keyOutOfRange (kind : KeyKind) (value : Int)
  | intOutOfRange (width : IntWidth) (value : Int) (position : Position)
  | nullResult (symbol : String)
  | duplicateBinding (name : String)
  | unknownFunction (name : String)
  | versionMismatch (expected found : String)
  | load (cause : LoadFault)
  | config (cause : ConfigFault)
deriving DecidableEq

namespace Fault

/-- two types disagree right here -/
def mismatch (expected found : String) : Fault := typeMismatch expected found []

/-- the clause that names a position, if there is anything to name -/
def atClause (p : Position) : String := if p.text = "" then "" else " at " ++ p.text

/-- the wording of a fault -/
def message : Fault → String
  | unsupportedType token => "Unsupported type '" ++ token ++ "'"
  | typeMismatch expected found p => "Type mismatch" ++ atClause p ++ ": expected " ++ expected ++ ", found " ++ found
  | missingHint symbol p => "Missing type hint for '" ++ symbol ++ "'" ++ atClause p
  | arityMismatch symbol expected given =>
    "'" ++ symbol ++ "' expects " ++ toString expected ++ " arguments, got " ++ toString given
  | invalidText reason => "Invalid string: " ++ reason
  | keyOutOfRange kind value => "Key " ++ toString value ++ " is out of range for " ++ kind.name ++ " keys"
  | intOutOfRange width value p => "Integer " ++ toString value ++ " does not fit " ++ width.name ++ atClause p
  | nullResult symbol => "'" ++ symbol ++ "' returned a null wire value"
  | duplicateBinding name => "Duplicate binding '" ++ name ++ "'"
  | unknownFunction name => "Unknown function '" ++ name ++ "'"
  | versionMismatch expected found => "Version mismatch: expected " ++ expected ++ ", library reports " ++ found
  | load cause => cause.message
  | config cause => cause.message

/-- the fault seen from outside: one more step in front of its position -/
def within (step : Step) : Fault → Fault
  | typeMismatch expected found p => typeMismatch expected found (step :: p)
  | missingHint symbol p => missingHint symbol (step :: p)
  | intOutOfRange width value p => intOutOfRange width value (step :: p)
  | other => other

/-- the fault with the name of the function, if it reports one and has none yet -/
def forSymbol (name : String) : Fault → Fault
  | missingHint symbol p => missingHint (if symbol = "" then name else symbol) p
  | nullResult symbol => nullResult (if symbol = "" then name else symbol)
  | other => other

/-- the position of a fault that carries one -/
def position? : Fault → Option Position
  | typeMismatch _ _ p | missingHint _ p | intOutOfRange _ _ p => some p
  | _ => none

theorem position?_within (step : Step) (f : Fault) : (f.within step).position? = f.position?.map (step :: ·) := by
  cases f <;> rfl

end Fault

end NativeBridge
