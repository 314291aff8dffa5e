/-
The interface of a function: the types of its parameters and its result, with the slots that are declared for them. A slot
always follows its type, also when a hint replaces the type.
-/
import NativeBridge.Call.Slot

namespace NativeBridge

/-- the types and slots of a function -/
structure Interface where
  params : List Signature
  result : Signature
  slots : List Slot := params.map Slot.ofSignature
  resultSlot : Slot := Slot.ofSignature result
deriving DecidableEq

namespace Interface

/-- the interface of a function with these types -/
def of (params : List Signature) (result : Signature) : Interface := { params, result }

/-- how many parameters there are -/
def arity (f : Interface) : Nat := f.params.length

/-- the interface with another type for a parameter -/
def withParam (f : Interface) (i : Nat) (s : Signature) : Interface :=
  { f with params := f.params.set i s, slots := f.slots.set i (Slot.ofSignature s) }

/-- the interface with another result type -/
def withResult (f : Interface) (s : Signature) : Interface :=
  { f with result := s, resultSlot := Slot.ofSignature s }

/-- no hole is left in any type -/
def isResolved (f : Interface) : Bool := f.params.all Signature.isResolved && f.result.isResolved

/-- the written form of an interface -/
def written (f : Interface) : String :=
  "(" ++ ", ".intercalate (f.params.map Signature.written) ++ ") -> " ++ f.result.written

end Interface

end NativeBridge
