/-
Dictionary keys. A wire dictionary has one key kind; a `WireKey` carries a value of one kind. The host has three classes of
keys, ordered integers first, then truth values, then texts.

- `KeyKind.ofCode?_code`, `KeyKind.ofName?_name`: the code and the name of a kind lead back to it.
-/
import NativeBridge.IntWidth
import NativeBridge.Ordered
import NativeBridge.Text.Quoted

namespace NativeBridge

/-- what the keys of a wire dictionary are -/
inductive KeyKind where
  | int (width : IntWidth)
  | bool
  | text
deriving DecidableEq, Repr

/-- a class of host keys -/
inductive KeyClass where
  | int
  | bool
  | text
deriving DecidableEq, Repr

namespace KeyKind

/-- the name used in declarations and messages -/
def name : KeyKind → String
  | .int w => w.name
  | .bool => "bool"
  | .text => "String"

/-- the kind a declared key type names -/
def ofName? : String → Option KeyKind
  | "i8" => some (.int .i8)
  | "i16" => some (.int .i16)
  | "i32" => some (.int .i32)
  | "i64" => some (.int .i64)
  | "u8" => some (.int .u8)
  | "u16" => some (.int .u16)
  | "u32" => some (.int .u32)
  | "u64" => some (.int .u64)
  | "bool" => some .bool
  | "String" | "str" | "string" | "WireString" => some .text
  | _ => none

/-- the code by which foreign code names the kind -/
def code : KeyKind → Nat
  | .int .u8 => 1
  | .int .i8 => 2
  | .int .i16 => 3
  | .int .u16 => 4
  | .int .i32 => 5
  | .int .u32 => 6
  | .int .i64 => 7
  | .int .u64 => 8
  | .bool => 11
  | .text => 12

/-- the kind with this code -/
def ofCode? : Nat → Option KeyKind
  | 1 => some (.int .u8)
  | 2 => some (.int .i8)
  | 3 => some (.int .i16)
  | 4 => some (.int .u16)
  | 5 => some (.int .i32)
  | 6 => some (.int .u32)
  | 7 => some (.int .i64)
  | 8 => some (.int .u64)
  | 11 => some .bool
  | 12 => some .text
  | _ => none

/-- the class of host keys that the kind takes -/
def keyClass : KeyKind → KeyClass
  | .int _ => .int
  | .bool => .bool
  | .text => .text

theorem ofName?_name (k : KeyKind) : ofName? k.name = some k := by
  rcases k with w | _ | _
  · cases w <;> rfl
  · rfl
  · rfl

theorem ofCode?_code (k : KeyKind) : ofCode? k.code = some k := by
  rcases k with w | _ | _
  · cases w <;> rfl
  · rfl
  · rfl

end KeyKind

/-- a key inside a wire dictionary -/
inductive WireKey where
  | int (width : IntWidth) (value : BoundedInt width)
  | bool (value : Bool)
  | text (value : String)
deriving DecidableEq

/-- the kind of dictionary that a key belongs to -/
def WireKey.kind : WireKey → KeyKind
  | .int w _ => .int w
  | .bool _ => .bool
  | .text _ => .text

/-- the order in which keys of one kind are listed: integers by value, texts by code points -/
def WireKey.before : WireKey → WireKey → Bool
  | .int _ a, .int _ b => decide (a.val < b.val)
  | .bool a, .bool b => !a && b
  | .text a, .text b => decide (a < b)
  | _, _ => false

/-- a key inside a host dictionary -/
inductive HostKey where
  | int (value : HostInt)
  | bool (value : Bool)
  | text (value : String)
deriving DecidableEq

namespace HostKey

/-- the class of a key -/
def keyClass : HostKey → KeyClass
  | .int _ => .int
  | .bool _ => .bool
  | .text _ => .text

/-- the host's name of the key's type -/
def typeName : HostKey → String
  | .int _ => "int"
  | .bool _ => "bool"
  | .text _ => "str"

/-- the key as messages show it -/
def shown : HostKey → String
  | .int v => toString v.val
  | .bool b => if b then "true" else "false"
  | .text s => Text.quoted s

/-- the order of keys: integers, then truth values, then texts by code points -/
def before : HostKey → HostKey → Bool
  | .int a, .int b => decide (a.val < b.val)
  | .int _, _ => true
  | .bool a, .bool b => !a && b
  | .bool _, .text _ => true
  | .text a, .text b => decide (a < b)
  | _, _ => false

/-- a dictionary of the host in the order of its keys, with a value put under a key; an equal key is replaced -/
abbrev put {α : Type} (key : HostKey) (value : α) (entries : List (HostKey × α)) : List (HostKey × α) :=
  Ordered.put before key value entries

/-- the dictionary of the host with these entries, of equal keys the last -/
abbrev dictionary {α : Type} (entries : List (HostKey × α)) : List (HostKey × α) := Ordered.putAll before [] entries

end HostKey

end NativeBridge
