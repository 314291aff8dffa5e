/-
Types of native values that can be exchanged without a signature, each with its values: numbers of a fixed width, truth
values, strings, lists, tuples, maps, and wire values themselves. A map lists its entries in the order of its keys, each key
once.
-/
import NativeBridge.Wire.Value

namespace NativeBridge

/-- a native type -/
inductive NativeType where
  | int (width : IntWidth)
  | float32
  | float64
  | bool
  | text
  /-- a wire value, as it is -/
  | wire
  | list (elem : NativeType)
  | tuple (elems : List NativeType)
  | map (key : KeyKind) (value : NativeType)
deriving Inhabited

/-- the native keys of a kind -/
@[reducible]
def KeyKind.Value : KeyKind → Type
  | .int w => BoundedInt w
  | .bool => Bool
  | .text => String

/-- a native key as a wire key -/
def KeyKind.toKey : (kind : KeyKind) → kind.Value → WireKey
  | .int w, v => .int w v
  | .bool, b => .bool b
  | .text, s => .text s

/-- a wire key as a native key, if it is of this kind -/
def KeyKind.ofKey? : (kind : KeyKind) → WireKey → Option kind.Value
  | .int w, .int found v => if h : found = w then some (h ▸ v) else none
  | .bool, .bool b => some b
  | .text, .text s => some s
  | _, _ => none

/-- the order in which native keys are listed, that of their wire keys -/
def KeyKind.before (kind : KeyKind) (a b : kind.Value) : Bool := (kind.toKey a).before (kind.toKey b)

namespace NativeType

mutual

/-- the values of a native type -/
@[reducible]
def Value : NativeType → Type
  | int w => BoundedInt w
  | float32 => Binary32
  | float64 => Binary64
  | bool => Bool
  | text => String
  | wire => WireValue
  | list elem => List elem.Value
  | tuple elems => Values elems
  | map key value => List (key.Value × value.Value)

/-- one value of each type -/
@[reducible]
def Values : List NativeType → Type
  | [] => Unit
  | elem :: rest => elem.Value × Values rest

end

/-- the name of a type in messages -/
def name : NativeType → String
  | int w => w.name
  | float32 => "f32"
  | float64 => "f64"
  | bool => "bool"
  | text => "String"
  | wire => "wire value"
  | list _ => "WireList"
  | tuple _ => "WireTuple"
  | map _ _ => "WireDict"

/-- the entries of a map with a value put under a key -/
abbrev putEntry {kind : KeyKind} {α : Type} (key : kind.Value) (value : α) (entries : List (kind.Value × α)) :
    List (kind.Value × α) := Ordered.put kind.before key value entries

end NativeType

end NativeBridge
