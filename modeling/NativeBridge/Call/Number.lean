/-
Numbers in memory. A number is stored at its declared width, so the address of a stored number is also an address of a native
number of that width, and what native code writes there is exactly what is read back.

- `Number.ofInt_eq_ok_iff`: a host integer is stored exactly if the width holds it, and unchanged.
-/
import NativeBridge.Codec.Result

namespace NativeBridge

/-- a number in memory -/
inductive Number where
  | int (width : IntWidth) (value : BoundedInt width)
  | float32 (value : Binary32)
  | float64 (value : Binary64)
deriving DecidableEq

namespace Number

/-- the host integer stored at a width -/
def ofInt (w : IntWidth) (v : HostInt) : Except Fault Number :=
  if h : w.Holds v.val then .ok (.int w ⟨v.val, h⟩) else .error (.intOutOfRange w v.val [])

/-- the host value stored as a number of a scalar type -/
def ofValue (s : Signature) (value : HostValue) : Except Fault Number :=
  match s.shape, value with
  | .primitive (.int w), .int v => ofInt w v
  | .primitive .float32, .float x => .ok (.float32 x.narrow)
  | .primitive .float32, .int v => .ok (.float32 (.ofHostInt v))
  | .primitive .float64, .float x => .ok (.float64 x)
  | .primitive .float64, .int v => .ok (.float64 (.ofHostInt v))
  | _, value => .error (s.unfit value)

/-- the host value of a stored number; an unsigned integer of 64 bits may be too large -/
def read : Number → Except Fault HostValue
  | int w v =>
    match BoundedInt.ofInt? .i64 v.val with
    | some value => .ok (.int value)
    | none => .error (.intOutOfRange w v.val [])
  | float32 x => .ok (.float x.widen)
  | float64 x => .ok (.float x)

/-- the pattern of the number, sign-extended to a register -/
def register : Number → UInt64
  | int _ v => v.register
  | float32 x => x.bits.toUInt64
  | float64 x => x.bits

/-- the same memory after a pattern was written to it; bits that the number has no room for are not written -/
def write (pattern : UInt64) : Number → Number
  | int w _ => int w (.wrap w pattern.toNat)
  | float32 _ => float32 ⟨pattern.toUInt32⟩
  | float64 _ => float64 ⟨pattern⟩

theorem ofInt_eq_ok_iff {w : IntWidth} {v : HostInt} {n : Number} :
    ofInt w v = .ok n ↔ ∃ h : w.Holds v.val, n = .int w ⟨v.val, h⟩ := by
  unfold ofInt
  constructor
  · intro stored
    split at stored
    · next h => exact ⟨h, by cases stored; rfl⟩
    · cases stored
  · intro held
    obtain ⟨h, rfl⟩ := held
    exact dif_pos h

end Number

end NativeBridge
