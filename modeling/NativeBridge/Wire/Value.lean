/-
Wire values: the trees that the host and native code exchange. A tuple is a chain of elements with indices, as it was
linked, from its head; a list is in order; a dictionary has one key kind and lists its entries, in an order that says
nothing.

Every value, nested ones included, is an object of its own in memory; `WireValue.size` counts them.
-/
import NativeBridge.Key
import NativeBridge.Binary
import NativeBridge.Wire.Text

namespace NativeBridge

/-- the kinds of wire values -/
inductive WireKind where
  | text
  | bool
  | int
  | float32
  | float64
  | tuple
  | list
  | dict
deriving DecidableEq, Repr

namespace WireKind

/-- the name used in messages -/
def name : WireKind → String
  | text => "WireString"
  | bool => "WireBool"
  | int => "i64"
  | float32 => "f32"
  | float64 => "f64"
  | tuple => "WireTuple"
  | list => "WireList"
  | dict => "WireDict"

/-- the code by which foreign code tells kinds apart -/
def code : WireKind → Nat
  | text => 1
  | bool => 2
  | int => 3
  | float32 => 4
  | float64 => 5
  | tuple => 6
  | list => 7
  | dict => 8

end WireKind

/-- a wire value -/
inductive WireValue where
  | text (value : WireText)
  | bool (value : Bool)
  | int (value : HostInt)
  | float32 (value : Binary32)
  | float64 (value : Binary64)
  | tuple (chain : List (Nat × WireValue))
  | list (items : List WireValue)
  | dict (kind : KeyKind) (entries : List (WireKey × WireValue))

instance : Inhabited WireValue := ⟨.bool false⟩

namespace WireValue

/-- the kind of a value -/
def kind : WireValue → WireKind
  | text _ => .text
  | bool _ => .bool
  | int _ => .int
  | float32 _ => .float32
  | float64 _ => .float64
  | tuple _ => .tuple
  | list _ => .list
  | dict _ _ => .dict

mutual

/-- how many objects the value consists of; keys are no objects -/
def size : WireValue → Nat
  | tuple chain => 1 + sizeOfChain chain
  | list items => 1 + sizeOfItems items
  | dict _ entries => 1 + sizeOfEntries entries
  | text _ | bool _ | int _ | float32 _ | float64 _ => 1

/-- the objects in a chain -/
def sizeOfChain : List (Nat × WireValue) → Nat
  | [] => 0
  | (_, value) :: rest => value.size + sizeOfChain rest

/-- the objects in a list -/
def sizeOfItems : List WireValue → Nat
  | [] => 0
  | value :: rest => value.size + sizeOfItems rest

/-- the objects in a dictionary -/
def sizeOfEntries : List (WireKey × WireValue) → Nat
  | [] => 0
  | (_, value) :: rest => value.size + sizeOfEntries rest

end

/-- the objects of a value that may be missing -/
def sizeOfOption : Option WireValue → Nat
  | none => 0
  | some v => v.size

end WireValue

end NativeBridge
