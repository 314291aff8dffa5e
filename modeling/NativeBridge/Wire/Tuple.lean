/-
Tuples that foreign code holds: the chain of elements and, kept beside it, how many they are. Whatever changes the chain changes
the count in the same step.
-/
import NativeBridge.NativeType.Codec

namespace NativeBridge

/-- a chain of elements and the count that is kept of them -/
structure WireTuple where
  chain : List (Nat × WireValue)
  count : Nat

namespace WireTuple

/-- no elements -/
def empty : WireTuple := ⟨[], 0⟩

/-- nothing is counted -/
def isEmpty (t : WireTuple) : Bool := t.count == 0

/-- the tuple with an element linked at its head -/
def pushFront (index : Nat) (elem : WireValue) (t : WireTuple) : WireTuple :=
  ⟨Chain.pushFront index elem t.chain, t.count + 1⟩

/-- the element at an index -/
def get? (index : Nat) (t : WireTuple) : Option WireValue := Chain.get? index t.chain

/-- the element at an index, unlinked -/
def take? (index : Nat) (t : WireTuple) : Option (WireValue × WireTuple) :=
  (Chain.take? index t.chain).map fun (elem, rest) => (elem, ⟨rest, t.count - 1⟩)

/-- the tuple without the element at an index, if there is one -/
def without (index : Nat) (t : WireTuple) : WireTuple :=
  match t.take? index with
  | some (_, rest) => rest
  | none => t

/-- the element at an index as a native value; it is unlinked even if it is not of the type -/
def takeAs (type : NativeType) (index : Nat) (t : WireTuple) : Metered type.Value × WireTuple :=
  ((type.takeElem index t.chain).1, t.without index)

/-- all elements by ascending index -/
def drain (t : WireTuple) : List (Nat × WireValue) := Chain.drain t.chain

/-- the tuple of these elements, numbered as they stand and linked from the last one -/
def collect (elems : List WireValue) : WireTuple :=
  elems.zipIdx.foldr (fun (elem, index) t => t.pushFront index elem) empty

end WireTuple

end NativeBridge
