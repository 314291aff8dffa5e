/-
Results of native functions. What a call leaves behind is a scalar, a word, a wire value that the host now owns, or nothing;
decoding turns it into a host value of the declared type.
-/
import NativeBridge.Codec.Decode

namespace NativeBridge

/-- what a native function returned, before it is decoded -/
inductive RawResult where
  | void
  | int (value : HostInt)
  | float32 (value : Binary32)
  | float64 (value : Binary64)
  /-- a word of pointer size that is not looked behind -/
  | pointer (word : UInt64)
  /-- a wire value, or null -/
  | wire (value : Option WireValue)

namespace RawResult

/-- the name used in messages -/
def name : RawResult → String
  | void => "()"
  | int _ => "i64"
  | float32 _ => "f32"
  | float64 _ => "f64"
  | pointer _ => "pointer"
  | wire _ => "wire value"

/-- the objects the host has to release -/
def size : RawResult → Nat
  | wire value => WireValue.sizeOfOption value
  | _ => 0

end RawResult

namespace IntWidth

/-- the host integer that came out of a slot of this width; the pattern of a negative one is a too large unsigned one of
64 bits -/
def ofSlot (w : IntWidth) (v : HostInt) : Except Fault HostInt :=
  if w = .u64 ∧ v.val < 0 then .error (.intOutOfRange w (IntWidth.wrap .u64 v.val) []) else .ok v

end IntWidth

namespace Signature

/-- the host value for what a native function of this result type returned -/
def decodeResult (s : Signature) (raw : RawResult) : Metered HostValue :=
  match s.shape, raw with
  | .void, .void => pure .none
  | .primitive (.int w), .int v => Metered.ofExcept ((w.ofSlot v).map .int)
  | .primitive .float32, .float32 x => pure (.float x.widen)
  | .primitive .float64, .float64 x => pure (.float x)
  | _, .wire none => .fail (.nullResult "")
  | _, .wire (some value) => s.decode value
  | _, raw => .fail (.mismatch s.written raw.name)

end Signature

end NativeBridge
