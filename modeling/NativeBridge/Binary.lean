/-
Binary floating-point numbers of 32 and 64 bits, held as their bit patterns, with the conversions that the exchange of
values needs: widening, narrowing, and from a host integer. A conversion that is not exact rounds to the nearest number
and, between two, to the one with an even last digit.

All conversions work on the digits in natural numbers: `roundedShift n k` is `n` without its last `k` digits, rounded as
above, and a significand that rounds up to the next power of two carries into the exponent by addition alone.
-/
import NativeBridge.IntWidth

namespace NativeBridge

/-- a floating-point number of 32 bits -/
structure Binary32 where
  bits : UInt32
deriving DecidableEq

/-- a floating-point number of 64 bits -/
structure Binary64 where
  bits : UInt64
deriving DecidableEq

/-- `n` without its last `k` digits, rounded to the nearest integer, a half to the even one -/
def roundedShift (n k : Nat) : Nat :=
  let quotient := n >>> k
  let weight := 1 <<< k
  let rest := n % weight
  if weight < 2 * rest ∨ (weight = 2 * rest ∧ quotient % 2 = 1) then quotient + 1 else quotient

/-- a positive number shifted so that its leading digit is digit `p` -/
def scaledTo (p n : Nat) : Nat := if n.log2 ≤ p then n <<< (p - n.log2) else roundedShift n (n.log2 - p)

namespace Binary32

/-- the sign digit -/
def sign (x : Binary32) : Nat := x.bits.toNat >>> 31

/-- the eight exponent digits -/
def exponent (x : Binary32) : Nat := (x.bits.toNat >>> 23) % 0x100

/-- the 23 digits after the leading one -/
def fraction (x : Binary32) : Nat := x.bits.toNat % 0x800000

/-- not a number -/
def isNaN (x : Binary32) : Bool := x.exponent == 255 && x.fraction != 0

/-- the number with this sign digit and these digits below it -/
def ofParts (sign magnitude : Nat) : Binary32 := ⟨UInt32.ofNat ((sign <<< 31) + magnitude)⟩

/-- the same number in 64 bits; a subnormal number gets its leading digit back -/
def widen (x : Binary32) : Binary64 :=
  let f := x.fraction
  let magnitude :=
    if x.exponent = 255 then (0x7FF <<< 52) + (if f = 0 then 0 else (1 <<< 51) + ((f % 0x400000) <<< 29))
    else if x.exponent = 0 then
      if f = 0 then 0 else ((f.log2 + 874) <<< 52) + ((f - (1 <<< f.log2)) <<< (52 - f.log2))
    else ((x.exponent + 896) <<< 52) + (f <<< 29)
  ⟨UInt64.ofNat ((x.sign <<< 63) + magnitude)⟩

/-- the nearest number to a host integer -/
def ofHostInt (v : HostInt) : Binary32 :=
  let n := v.val.natAbs
  if n = 0 then ⟨0⟩ else ofParts (if v.val < 0 then 1 else 0) (((n.log2 + 126) <<< 23) + scaledTo 23 n)

end Binary32

namespace Binary64

/-- the sign digit -/
def sign (x : Binary64) : Nat := x.bits.toNat >>> 63

/-- the eleven exponent digits -/
def exponent (x : Binary64) : Nat := (x.bits.toNat >>> 52) % 0x800

/-- the 52 digits after the leading one -/
def fraction (x : Binary64) : Nat := x.bits.toNat % 0x10000000000000

/-- not a number -/
def isNaN (x : Binary64) : Bool := x.exponent == 2047 && x.fraction != 0

/-- one of the two zeros -/
def isZero (x : Binary64) : Bool := x.exponent == 0 && x.fraction == 0

/-- the number with this sign digit and these digits below it -/
def ofParts (sign magnitude : Nat) : Binary64 := ⟨UInt64.ofNat ((sign <<< 63) + magnitude)⟩

/-- the nearest number of 32 bits; too large a number becomes an infinity -/
def narrow (x : Binary64) : Binary32 :=
  let magnitude :=
    if x.exponent = 2047 then (0xFF <<< 23) + (if x.fraction = 0 then 0 else (1 <<< 22) + (x.fraction >>> 29) % 0x400000)
    else if x.exponent = 0 then 0
    else min (0xFF <<< 23)
      (((x.exponent - 897) <<< 23) + roundedShift ((1 <<< 52) + x.fraction) (29 + (897 - x.exponent)))
  .ofParts x.sign magnitude

/-- the nearest number to a host integer -/
def ofHostInt (v : HostInt) : Binary64 :=
  let n := v.val.natAbs
  if n = 0 then ⟨0⟩ else ofParts (if v.val < 0 then 1 else 0) (((n.log2 + 1022) <<< 52) + scaledTo 52 n)

/-- equality of the numbers: the two zeros are equal, and nothing equals what is not a number -/
def equal (x y : Binary64) : Bool := !x.isNaN && !y.isNaN && (x == y || (x.isZero && y.isZero))

end Binary64

end NativeBridge
