/-
Slots: how parameters and results are passed to native code. The type of a slot follows from the shape of a signature, and a
slot is indirect if the access is anything but owned. The call interface only tells a few machine types apart; every wire
value is passed by its address.
-/
import NativeBridge.Signature.Printer
import NativeBridge.Wire.Value

namespace NativeBridge

/-- what a slot carries -/
inductive SlotType where
  | void
  | int (width : IntWidth)
  | float32
  | float64
  | wire (kind : WireKind)
  | pointer
deriving DecidableEq, Repr

/-- a parameter or result of the call interface -/
structure Slot where
  type : SlotType
  /-- the value is behind an address -/
  indirect : Bool
deriving DecidableEq, Repr

/-- the classes of values that the call interface passes differently -/
inductive MachineType where
  | void
  | int (width : IntWidth)
  | float32
  | float64
  | address
deriving DecidableEq, Repr

/-- the wire kind of a container -/
def Container.wireKind : Container → WireKind
  | .tuple => .tuple
  | .list => .list
  | .dict => .dict

namespace Slot

/-- the slot type of a shape -/
def typeOf : Shape → SlotType
  | .primitive (.int w) => .int w
  | .primitive .float32 => .float32
  | .primitive .float64 => .float64
  | .primitive .bool => .wire .bool
  | .primitive .text => .wire .text
  | .tuple _ => .wire .tuple
  | .list _ => .wire .list
  | .dict _ _ => .wire .dict
  | .hole (some head) => .wire head.wireKind
  | .hole none => .pointer
  | .void => .void

/-- the slot that a signature declares -/
def ofSignature (s : Signature) : Slot := ⟨typeOf s.shape, s.access != .owned⟩

/-- a number passed in a register -/
def isByValue (slot : Slot) : Bool :=
  !slot.indirect && slot.type matches .int _ | .float32 | .float64

/-- how the call interface passes the slot -/
def machineType (slot : Slot) : MachineType :=
  match slot.type, slot.indirect with
  | .void, _ => .void
  | _, true => .address
  | .int w, false => .int w
  | .float32, false => .float32
  | .float64, false => .float64
  | .wire _, false | .pointer, false => .address

/-- the written form of a slot -/
def written (slot : Slot) : String :=
  (if slot.indirect then "*" else "") ++
    match slot.type with
    | .void => "void"
    | .int w => w.name
    | .float32 => "f32"
    | .float64 => "f64"
    | .wire kind => "*" ++ kind.name
    | .pointer => "*void"

end Slot

end NativeBridge
