/-
Types of parameters and results of native functions. A signature is a shape with an access: how the value is reached. A
shape may be a hole, a position whose type the declaration does not tell: a bare word of pointer size, or a container
whose contents are unknown.

- `Signature.isResolved_iff`: a signature is resolved exactly when no hole is found in it.
-/
import NativeBridge.Fault

namespace NativeBridge

/-- a type without parts -/
inductive Primitive where
  | int (width : IntWidth)
  | float32
  | float64
  | bool
  | text
deriving DecidableEq, Repr

/-- a kind of container -/
inductive Container where
  | tuple
  | list
  | dict
deriving DecidableEq, Repr

/-- how native code reaches a value: as its own, by a reference, or by a raw pointer -/
inductive Access where
  | owned
  | borrowed
  | borrowedMut
  | rawConst
  | rawMut
deriving DecidableEq, Repr

/-- a reference: the host keeps the value across the call -/
def Access.isReference : Access → Bool
  | .borrowed | .borrowedMut => true
  | _ => false

mutual

/-- what a value consists of -/
inductive Shape where
  | primitive (kind : Primitive)
  | tuple (elems : List Signature)
  | list (elem : Signature)
  | dict (key : KeyKind) (value : Signature)
  /-- an unknown type, at most known to be a kind of container -/
  | hole (head : Option Container)
  /-- no value at all -/
  | void

/-- the type of a parameter or result -/
structure Signature where
  access : Access
  shape : Shape

end

mutual

/-- equality of shapes is decided part by part -/
def Shape.decEq : (a b : Shape) → Decidable (a = b)
  | .primitive a, .primitive b => decidable_of_iff (a = b) (by simp)
  | .tuple a, .tuple b => have := Signature.decEqList a b; decidable_of_iff (a = b) (by simp)
  | .list a, .list b => have := a.decEq b; decidable_of_iff (a = b) (by simp)
  | .dict k a, .dict l b => have := a.decEq b; decidable_of_iff (k = l ∧ a = b) (by simp)
  | .hole a, .hole b => decidable_of_iff (a = b) (by simp)
  | .void, .void => isTrue rfl
  | .primitive _, .tuple _ | .primitive _, .list _ | .primitive _, .dict .. | .primitive _, .hole _ => isFalse nofun
  | .tuple _, .primitive _ | .tuple _, .list _ | .tuple _, .dict .. | .tuple _, .hole _ => isFalse nofun
  | .list _, .primitive _ | .list _, .tuple _ | .list _, .dict .. | .list _, .hole _ => isFalse nofun
  | .dict .., .primitive _ | .dict .., .tuple _ | .dict .., .list _ | .dict .., .hole _ => isFalse nofun
  | .hole _, .primitive _ | .hole _, .tuple _ | .hole _, .list _ | .hole _, .dict .. => isFalse nofun
  | .void, .primitive _ | .void, .tuple _ | .void, .list _ | .void, .dict .. | .void, .hole _ => isFalse nofun
  | .primitive _, .void | .tuple _, .void | .list _, .void | .dict .., .void | .hole _, .void => isFalse nofun

/-- equality of signatures is decided part by part -/
def Signature.decEq : (a b : Signature) → Decidable (a = b)
  | ⟨a, s⟩, ⟨b, t⟩ => have := s.decEq t; decidable_of_iff (a = b ∧ s = t) (by simp)

/-- equality of lists of signatures is decided part by part -/
def Signature.decEqList : (a b : List Signature) → Decidable (a = b)
  | [], [] => isTrue rfl
  | a :: as, b :: bs =>
    have := a.decEq b
    have := Signature.decEqList as bs
    decidable_of_iff (a = b ∧ as = bs) (by simp)
  | [], _ :: _ | _ :: _, [] => isFalse nofun

end

instance : DecidableEq Shape := Shape.decEq

instance : DecidableEq Signature := Signature.decEq

instance : Inhabited Shape := ⟨.void⟩

instance : Inhabited Signature := ⟨⟨.owned, .void⟩⟩

/-- the kind of container that a shape is or is known to be -/
def Shape.container? : Shape → Option Container
  | .tuple _ => some .tuple
  | .list _ => some .list
  | .dict _ _ => some .dict
  | .hole head => head
  | .primitive _ | .void => none

namespace Signature

/-- a type that is its own value, not a reference to one -/
def owned (shape : Shape) : Signature := ⟨.owned, shape⟩

/-- a bare word of pointer size, of unknown type -/
def word : Signature := owned (.hole none)

/-- no value -/
def isVoid (s : Signature) : Bool := s.shape matches .void

/-- an integer or a float -/
def isScalar (s : Signature) : Bool := s.shape matches .primitive (.int _) | .primitive .float32 | .primitive .float64

end Signature

mutual

/-- the path to the first hole in a shape -/
def Shape.firstHole? : Shape → Option Position
  | .hole _ => some []
  | .tuple elems => Signature.firstHoleFrom? 0 elems
  | .list elem => elem.firstHole?.map (.element :: ·)
  | .dict _ value => value.firstHole?.map (.value :: ·)
  | .primitive _ | .void => none

/-- the path to the first hole in a signature -/
def Signature.firstHole? : Signature → Option Position
  | ⟨_, shape⟩ => shape.firstHole?

/-- the path to the first hole in the elements of a tuple, the first of which has the index `i` -/
def Signature.firstHoleFrom? (i : Nat) : List Signature → Option Position
  | [] => none
  | elem :: rest =>
    match elem.firstHole? with
    | some p => some (.index i :: p)
    | none => Signature.firstHoleFrom? (i + 1) rest

end

namespace Signature

/-- no hole is left -/
def isResolved (s : Signature) : Bool := s.firstHole?.isNone

theorem isResolved_iff {s : Signature} : s.isResolved = true ↔ s.firstHole? = none := by
  simp [isResolved]

end Signature

end NativeBridge
