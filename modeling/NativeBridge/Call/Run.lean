/-
Calls of bound functions. A call checks that there are as many arguments as parameters and that no type it needs is unknown,
prepares the arguments in order, runs the native function, and decodes. A fault before the native function has run releases
what was prepared; a fault after it releases whatever the host still holds.

- `BoundFunction.call`: decodes the result, and releases the wire values that were only lent.
- `BoundFunction.callWithReferences`: also reads back what every reference points at.
- `BoundFunction.callRaw`: decodes nothing and needs no known result type.
-/
import NativeBridge.Call.BoundFunction

namespace NativeBridge

namespace Signature

/-- the type is a bare word of pointer size -/
def isWord (s : Signature) : Bool := s.shape matches .hole none

/-- a host value made ready to be passed as a parameter of this type -/
def prepare (s : Signature) (value : HostValue) : Metered Argument :=
  if s.isWord then
    match value with
    | .int v => pure (.word v.register)
    | value =>
      if value.isContainer then .fail (.missingHint "" [])
      else .fail (.mismatch "pointer-sized integer" value.typeName)
  else if s.isScalar then do
    let n ← Metered.ofExcept (Number.ofValue s value)
    pure (if s.access = .owned then .number n else .cell n)
  else do
    let wire ← s.encode value
    pure (if s.access.isReference then .borrowed wire else .moved wire)

end Signature

/-- what a call tells about one of its arguments -/
inductive ArgumentResult where
  | byValue
  | moved
  /-- what the reference points at after the call -/
  | read (value : HostValue)

/-- the result of a call and what it tells about the arguments -/
structure CallResult where
  result : HostValue
  arguments : List ArgumentResult

/-- what the host holds after a call, nothing decoded -/
structure RawCall where
  result : RawResult
  arguments : List Kept

/-- the objects that a raw call leaves to the host -/
def RawCall.size (c : RawCall) : Nat := c.result.size + Kept.sizeOfList c.arguments

/-- reads back one argument of the given type -/
def Kept.readBack (s : Signature) : Kept → Metered ArgumentResult
  | .byValue => pure .byValue
  | .moved => pure .moved
  | .cell n => do
    let value ← Metered.ofExcept n.read
    pure (.read value)
  | .borrowed v => do
    let value ← s.decode v
    pure (.read value)

namespace BoundFunction

/-- a fault at argument `i` of the function -/
def argumentFault (f : BoundFunction) (i : Nat) (fault : Fault) : Fault :=
  (fault.within (.argument i)).forSymbol f.name

/-- a fault at the result of the function -/
def resultFault (f : BoundFunction) (fault : Fault) : Fault := (fault.within .result).forSymbol f.name

/-- the first argument, counted from `i`, whose type has a hole that matters; a bare word takes any value but a container -/
def checkArgumentsFrom (f : BoundFunction) (i : Nat) : List Signature → List HostValue → Except Fault Unit
  | s :: rest, value :: values =>
    match if s.isWord && !value.isContainer then none else s.firstHole? with
    | some p => .error (f.argumentFault i (.missingHint "" p))
    | none => f.checkArgumentsFrom (i + 1) rest values
  | _, _ => .ok ()

/-- there are as many arguments as parameters, and every type is known that is needed to pass them -/
def checkArguments (f : BoundFunction) (values : List HostValue) : Except Fault Unit :=
  if values.length = f.interface.arity then f.checkArgumentsFrom 0 f.interface.params values
  else .error (.arityMismatch f.name f.interface.arity values.length)

/-- the result type is known; a bare word is an integer -/
def checkResult (f : BoundFunction) : Except Fault Unit :=
  match if f.interface.result.isWord then none else f.interface.result.firstHole? with
  | some p => .error (f.resultFault (.missingHint "" p))
  | none => .ok ()

/-- the function can be called with these arguments as far as the types tell -/
def check (f : BoundFunction) (values : List HostValue) : Except Fault Unit := do
  f.checkArguments values
  f.checkResult

/-- no hint is missing for a call with these arguments -/
def isCallableWith (f : BoundFunction) (values : List HostValue) : Bool := (f.check values).isOk

/-- the arguments from the `i`-th on, made ready in order -/
def prepareFrom (f : BoundFunction) (i : Nat) : List Signature → List HostValue → Metered (List Argument)
  | s :: rest, value :: values => do
    let first ← (s.prepare value).mapFault (f.argumentFault i)
    let others ← (f.prepareFrom (i + 1) rest values).releasingOnFault first.size
    pure (first :: others)
  | _, _ => pure []

/-- prepares the arguments and runs the native function -/
def run (f : BoundFunction) (values : List HostValue) : Metered RawCall := do
  let arguments ← f.prepareFrom 0 f.interface.params values
  let outcome := f.target.native arguments
  ⟨.ok ⟨outcome.returned.receive f.target.result, Kept.ofArguments arguments outcome.written⟩, outcome.tally⟩

/-- decodes what the native function returned; a bare word is an integer -/
def decodeResult (f : BoundFunction) (raw : RawResult) : Metered HostValue :=
  match f.interface.result.shape, raw with
  | .hole none, .pointer word => pure (.int (.wrap .i64 word.toNat))
  | _, raw => (f.interface.result.decodeResult raw).mapFault f.resultFault

/-- reads back the arguments from the `i`-th on, in order -/
def readBackFrom (f : BoundFunction) (i : Nat) : List Signature → List Kept → Metered (List ArgumentResult)
  | s :: rest, kept :: others => do
    let first ← ((kept.readBack s).mapFault (f.argumentFault i)).releasingOnFault (Kept.sizeOfList others)
    let results ← f.readBackFrom (i + 1) rest others
    pure (first :: results)
  | _, _ => pure []

/-- calls the function -/
def call (f : BoundFunction) (values : List HostValue) : Metered HostValue := do
  Metered.ofExcept (f.check values)
  let raw ← f.run values
  let lent := Kept.sizeOfList raw.arguments
  let result ← (f.decodeResult raw.result).releasingOnFault lent
  Metered.release lent
  pure result

/-- calls the function and reads back every reference -/
def callWithReferences (f : BoundFunction) (values : List HostValue) : Metered CallResult := do
  Metered.ofExcept (f.check values)
  let raw ← f.run values
  let result ← (f.decodeResult raw.result).releasingOnFault (Kept.sizeOfList raw.arguments)
  let arguments ← f.readBackFrom 0 f.interface.params raw.arguments
  pure ⟨result, arguments⟩

/-- calls the function and leaves everything as the call left it -/
def callRaw (f : BoundFunction) (values : List HostValue) : Metered RawCall := do
  Metered.ofExcept (f.checkArguments values)
  f.run values

end BoundFunction

end NativeBridge
