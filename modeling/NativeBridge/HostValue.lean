/-
Values of the host: the dynamic values that calls take and give. A dictionary lists its entries in the order of its keys,
each key once; `ofEntries` builds one from entries in any order.
-/
import NativeBridge.Key
import NativeBridge.Binary

namespace NativeBridge

/-- a value of the host -/
inductive HostValue where
  | none
  | bool (value : Bool)
  | int (value : HostInt)
  | float (value : Binary64)
  | text (value : String)
  | tuple (items : List HostValue)
  | list (items : List HostValue)
  | dict (entries : List (HostKey × HostValue))
deriving Inhabited

namespace HostValue

/-- the host's name of the value's type -/
def typeName : HostValue → String
  | none => "None"
  | bool _ => "bool"
  | int _ => "int"
  | float _ => "float"
  | text _ => "str"
  | tuple _ => "tuple"
  | list _ => "list"
  | dict _ => "dict"

/-- a tuple, list or dictionary -/
def isContainer : HostValue → Bool
  | tuple _ | list _ | dict _ => true
  | _ => false

/-- the integer, of an integer -/
def asInt? : HostValue → Option HostInt
  | int v => some v
  | _ => Option.none

/-- the text, of a text -/
def asText? : HostValue → Option String
  | text s => some s
  | _ => Option.none

/-- the dictionary with these entries, of equal keys the last -/
def ofEntries (entries : List (HostKey × HostValue)) : HostValue := dict (HostKey.dictionary entries)

mutual

/-- equality as the host sees it: floats are compared as numbers, so a value that holds what is not a number differs from
itself -/
def equal : HostValue → HostValue → Bool
  | none, none => true
  | bool a, bool b => a == b
  | int a, int b => a == b
  | float a, float b => a.equal b
  | text a, text b => a == b
  | tuple a, tuple b => equalItems a b
  | list a, list b => equalItems a b
  | dict a, dict b => equalEntries a b
  | _, _ => false

/-- equality of sequences -/
def equalItems : List HostValue → List HostValue → Bool
  | [], [] => true
  | a :: as, b :: bs => a.equal b && equalItems as bs
  | _, _ => false

/-- equality of dictionaries in the order of their keys -/
def equalEntries : List (HostKey × HostValue) → List (HostKey × HostValue) → Bool
  | [], [] => true
  | (k, a) :: as, (l, b) :: bs => k == l && a.equal b && equalEntries as bs
  | _, _ => false

end

end HostValue

end NativeBridge
