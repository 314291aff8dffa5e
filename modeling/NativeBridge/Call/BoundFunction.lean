/-
Bound functions: a native function with its declared interface. It starts as declared; a hint narrows the type of one
parameter or of the result, after which the call is set up anew for the same native function. A hint that is not accepted
changes nothing.
-/
import NativeBridge.Call.Native
import NativeBridge.Signature.Refinement
import NativeBridge.Signature.Reader

namespace NativeBridge

/-- whether any hint has been accepted -/
inductive Refinement where
  | declared
  | refined
deriving DecidableEq, Repr

/-- a native function with the call interface set up for it -/
structure Target where
  native : Native
  params : List MachineType
  result : Slot
  arity : Nat

/-- the call set up for an interface -/
def Target.of (native : Native) (interface : Interface) : Target :=
  ⟨native, interface.slots.map Slot.machineType, interface.resultSlot, interface.arity⟩

/-- a native function that the host can call -/
structure BoundFunction where
  /-- the name by which the host calls the function -/
  name : String
  symbol : String
  interface : Interface
  target : Target
  state : Refinement
  /-- the name of the library that exports the symbol -/
  library : String

namespace BoundFunction

/-- a function as it was declared -/
def declared (name symbol library : String) (interface : Interface) (native : Native) : BoundFunction :=
  ⟨name, symbol, interface, .of native interface, .declared, library⟩

/-- the same native function with another interface -/
def redeclare (f : BoundFunction) (interface : Interface) : BoundFunction :=
  { f with interface, target := .of f.target.native interface, state := .refined }

/-- the function with the type of parameter `i` narrowed by a hint -/
def hintParam (f : BoundFunction) (i : Nat) (hint : Signature) : Except Fault BoundFunction :=
  match f.interface.params[i]? with
  | none => .error (.mismatch ("parameter index below " ++ toString f.interface.arity) (toString i))
  | some declared =>
    match declared.refine hint with
    | .ok refined => .ok (f.redeclare (f.interface.withParam i refined))
    | .error fault => .error (fault.within (.argument i))

/-- the function with the type of the result narrowed by a hint -/
def hintResult (f : BoundFunction) (hint : Signature) : Except Fault BoundFunction :=
  match f.interface.result.refine hint with
  | .ok refined => .ok (f.redeclare (f.interface.withResult refined))
  | .error fault => .error (fault.within .result)

/-- the same with a written hint -/
def hintParamRead (f : BoundFunction) (i : Nat) (hint : String) : Except Fault BoundFunction := do
  f.hintParam i (← Signature.read hint)

/-- the same with a written hint -/
def hintResultRead (f : BoundFunction) (hint : String) : Except Fault BoundFunction := do
  f.hintResult (← Signature.read hint)

/-- the function as a diagnostic text -/
def shown (f : BoundFunction) : String :=
  "FunctionProxy \x7b name: " ++ Text.quoted f.name ++ ", symbol: " ++ Text.quoted f.symbol ++ ", signature: " ++
    Text.quoted f.interface.written ++ ", state: " ++
    (match f.state with
      | .declared => "Declared"
      | .refined => "Refined") ++
    ", library: " ++ Text.quoted f.library ++ " \x7d"

end BoundFunction

end NativeBridge
