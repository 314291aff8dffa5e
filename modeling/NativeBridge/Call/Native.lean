/-
Native functions. A native function is any function from the arguments it sees to an outcome: what it returned, what it wrote
through the addresses it was given, and how many wire objects it created and released. Nothing is assumed about it here;
whether it keeps to the rules of ownership is a property of the function.

Every argument is stored as a number or as an address, and a returned word is read as the declared slot says.
-/
import NativeBridge.Call.Interface
import NativeBridge.Call.Number

namespace NativeBridge

/-- an argument as a native function sees it -/
inductive Argument where
  /-- a number in a register -/
  | number (value : Number)
  /-- a word of pointer size -/
  | word (value : UInt64)
  /-- the address of a number that the host reads back -/
  | cell (value : Number)
  /-- the address of a wire value that the host keeps -/
  | borrowed (value : WireValue)
  /-- the address of a wire value that the function now owns -/
  | moved (value : WireValue)

/-- what a native function did to what an argument points at -/
inductive Written where
  | nothing
  /-- the pattern of another number -/
  | number (pattern : UInt64)
  /-- the wire value in its new state -/
  | value (value : WireValue)

/-- what a native function returned -/
inductive Returned where
  /-- a word; null is the word zero -/
  | word (value : UInt64)
  | float32 (value : Binary32)
  | float64 (value : Binary64)
  /-- a wire value at this address -/
  | value (address : UInt64) (value : WireValue)

/-- everything a call of a native function comes to -/
structure Outcome where
  returned : Returned
  /-- by position; where the list is shorter, nothing was written -/
  written : List Written := []
  tally : Tally := 0

/-- a native function -/
abbrev Native := List Argument → Outcome

/-- how the call interface passes an argument -/
def Argument.machineType : Argument → MachineType
  | .number (.int w _) => .int w
  | .number (.float32 _) => .float32
  | .number (.float64 _) => .float64
  | .word _ | .cell _ | .borrowed _ | .moved _ => .address

/-- the objects that the host has created for an argument -/
def Argument.size : Argument → Nat
  | .borrowed value | .moved value => value.size
  | .number _ | .word _ | .cell _ => 0

namespace Returned

/-- the returned word -/
def bits : Returned → UInt64
  | word w => w
  | float32 x => x.bits.toUInt64
  | float64 x => x.bits
  | value address _ => address

/-- the returned float of 32 bits -/
def single : Returned → Binary32
  | float32 x => x
  | other => ⟨other.bits.toUInt32⟩

/-- the returned float of 64 bits -/
def double : Returned → Binary64
  | float64 x => x
  | other => ⟨other.bits⟩

/-- the returned wire value, which the host takes over -/
def adopted : Returned → Option WireValue
  | value _ v => some v
  | _ => none

/-- what was returned, read as the slot says; behind an indirect slot nothing is looked at and nothing is taken over -/
def receive (slot : Slot) (returned : Returned) : RawResult :=
  match slot.type, slot.indirect with
  | .void, _ => .void
  | _, true => .pointer returned.bits
  | .int w, false => .int (w.extend returned.bits)
  | .float32, false => .float32 returned.single
  | .float64, false => .float64 returned.double
  | .wire _, false => .wire returned.adopted
  | .pointer, false => .pointer returned.bits

end Returned

/-- what the host holds of an argument after a call -/
inductive Kept where
  | byValue
  | moved
  | cell (value : Number)
  | borrowed (value : WireValue)

namespace Kept

/-- the objects the host still has to release -/
def size : Kept → Nat
  | borrowed value => value.size
  | _ => 0

/-- the objects of several arguments -/
def sizeOfList : List Kept → Nat
  | [] => 0
  | kept :: rest => kept.size + sizeOfList rest

/-- an argument after the native function has written to it -/
def ofArgument : Argument → Written → Kept
  | .number _, _ | .word _, _ => byValue
  | .moved _, _ => moved
  | .cell n, .number pattern => cell (n.write pattern)
  | .cell n, _ => cell n
  | .borrowed _, .value v => borrowed v
  | .borrowed v, _ => borrowed v

/-- all arguments after the native function has written to them -/
def ofArguments : List Argument → List Written → List Kept
  | [], _ => []
  | argument :: rest, [] => ofArgument argument .nothing :: ofArguments rest []
  | argument :: rest, w :: ws => ofArgument argument w :: ofArguments rest ws

end Kept

end NativeBridge
