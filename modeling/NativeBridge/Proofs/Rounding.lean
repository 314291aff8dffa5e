/-
Widening and narrowing of floating-point numbers.

- `Binary32.narrow_widen`: a number of 32 bits is not changed by widening and narrowing it.
- `Binary32.isNaN_narrow_widen`: what is not a number stays so.
- `Binary64.widen_narrow_of_single`: a number of 64 bits that 32 bits can hold is not changed by narrowing and widening it.

A number is taken apart into its sign, exponent and fraction digits, by one lemma on words for both sizes (`digits_of_parts`),
and all of the arithmetic is done there.
-/
import Mathlib.Tactic
import NativeBridge.Binary

namespace NativeBridge

/-- rounding drops digits that are all zero, and nothing else -/
theorem roundedShift_mul (n k : Nat) : roundedShift (n * 2 ^ k) k = n := by
  have quotient : (n * 2 ^ k) >>> k = n := by
    rw [Nat.shiftRight_eq_div_pow, Nat.mul_div_cancel _ (Nat.two_pow_pos k)]
  have rest : n * 2 ^ k % (1 <<< k) = 0 := by rw [Nat.one_shiftLeft, Nat.mul_mod_left]
  have positive : 0 < 1 <<< k := by rw [Nat.one_shiftLeft]; exact Nat.two_pow_pos k
  simp only [roundedShift, quotient, rest]
  rw [if_neg (by omega)]

/-! ## Digits, for any number `p` of them in the exponent and `q` in the fraction -/

section Digits

variable {p q s e f : Nat}

/-- the digits below the sign -/
theorem magnitude_lt (he : e < 2 ^ p) (hf : f < 2 ^ q) : e * 2 ^ q + f < 2 ^ (p + q) := by
  calc e * 2 ^ q + f
      < e * 2 ^ q + 2 ^ q := Nat.add_lt_add_left hf _
    _ = (e + 1) * 2 ^ q := (Nat.succ_mul e _).symm
    _ ≤ 2 ^ p * 2 ^ q := Nat.mul_le_mul_right _ he
    _ = 2 ^ (p + q) := (Nat.pow_add 2 p q).symm

/-- A word of `p + q + 1` digits that is made from a sign, an exponent and a fraction gives back all three. -/
theorem digits_of_parts {word : Nat} (hs : s < 2) (he : e < 2 ^ p) (hf : f < 2 ^ q)
    (made : word = ((s <<< (p + q)) + (e * 2 ^ q + f)) % 2 ^ (p + q + 1)) :
    word >>> (p + q) = s ∧ (word >>> q) % 2 ^ p = e ∧ word % 2 ^ q = f := by
  have below := magnitude_lt he hf
  have whole : word = 2 ^ (p + q) * s + (e * 2 ^ q + f) := by
    rw [made, Nat.shiftLeft_eq, Nat.mul_comm, Nat.pow_succ]
    apply Nat.mod_eq_of_lt
    have := Nat.mul_le_mul_left (2 ^ (p + q)) (Nat.le_of_lt_succ hs)
    omega
  have upper : word = 2 ^ q * (2 ^ p * s + e) + f := by
    rw [whole, Nat.pow_add]
    ring
  refine ⟨?_, ?_, ?_⟩
  · rw [whole, Nat.shiftRight_eq_div_pow, Nat.mul_add_div (Nat.two_pow_pos _), Nat.div_eq_of_lt below, Nat.add_zero]
  · rw [upper, Nat.shiftRight_eq_div_pow, Nat.mul_add_div (Nat.two_pow_pos _), Nat.div_eq_of_lt hf, Nat.add_zero,
      Nat.mul_add_mod, Nat.mod_eq_of_lt he]
  · rw [upper, Nat.mul_add_mod, Nat.mod_eq_of_lt hf]

end Digits

/-- the digits of a number made from its parts -/
theorem Binary64.parts {s e f : Nat} (hs : s < 2) (he : e < 2048) (hf : f < 2 ^ 52) :
    (ofParts s (e * 2 ^ 52 + f)).sign = s ∧ (ofParts s (e * 2 ^ 52 + f)).exponent = e ∧
      (ofParts s (e * 2 ^ 52 + f)).fraction = f :=
  digits_of_parts (p := 11) hs he hf UInt64.toNat_ofNat'

/-! ## Widening and narrowing -/

namespace Binary32

theorem sign_lt (x : Binary32) : x.sign < 2 := by
  have := x.bits.toNat_lt
  simp only [sign, Nat.shiftRight_eq_div_pow]
  omega

theorem exponent_lt (x : Binary32) : x.exponent < 256 := Nat.mod_lt _ (by decide)

theorem fraction_lt (x : Binary32) : x.fraction < 2 ^ 23 := Nat.mod_lt _ (by decide)

/-- a number is made from its parts -/
theorem eq_ofParts (x : Binary32) : ofParts x.sign (x.exponent * 2 ^ 23 + x.fraction) = x := by
  have bound := x.bits.toNat_lt
  have whole : (x.sign <<< 31) + (x.exponent * 2 ^ 23 + x.fraction) = x.bits.toNat := by
    simp only [sign, exponent, fraction, Nat.shiftRight_eq_div_pow, Nat.shiftLeft_eq]
    omega
  simp only [ofParts, whole, UInt32.ofNat_toNat]

/-- the digits of a number made from its parts -/
theorem parts {s e f : Nat} (hs : s < 2) (he : e < 256) (hf : f < 2 ^ 23) :
    (ofParts s (e * 2 ^ 23 + f)).sign = s ∧ (ofParts s (e * 2 ^ 23 + f)).exponent = e ∧
      (ofParts s (e * 2 ^ 23 + f)).fraction = f :=
  digits_of_parts (p := 8) hs he hf UInt32.toNat_ofNat'

/-- narrowing, digit by digit -/
theorem narrow_ofParts {s e f : Nat} (hs : s < 2) (he : e < 2048) (hf : f < 2 ^ 52) :
    (Binary64.ofParts s (e * 2 ^ 52 + f)).narrow = ofParts s
      (if e = 2047 then 255 * 2 ^ 23 + (if f = 0 then 0 else 2 ^ 22 + f / 2 ^ 29 % 2 ^ 22)
      else if e = 0 then 0
      else min (255 * 2 ^ 23) ((e - 897) * 2 ^ 23 + roundedShift (2 ^ 52 + f) (29 + (897 - e)))) := by
  obtain ⟨sign, exponent, fraction⟩ := Binary64.parts hs he hf
  simp only [Binary64.narrow]
  rw [sign, exponent, fraction]
  simp only [Nat.shiftLeft_eq, Nat.shiftRight_eq_div_pow, Nat.one_mul, Nat.reducePow]

theorem widen_special {x : Binary32} (he : x.exponent = 255) :
    x.widen = .ofParts x.sign (2047 * 2 ^ 52 + (if x.fraction = 0 then 0 else 2 ^ 51 + x.fraction % 2 ^ 22 * 2 ^ 29)) := by
  simp only [widen, he, ↓reduceIte, Nat.shiftLeft_eq, Nat.one_mul, Binary64.ofParts, Nat.reducePow]

theorem widen_zero {x : Binary32} (he : x.exponent = 0) (hf : x.fraction = 0) :
    x.widen = .ofParts x.sign (0 * 2 ^ 52 + 0) := by
  simp only [widen, he, hf, ↓reduceIte, Binary64.ofParts]
  rfl

theorem widen_subnormal {x : Binary32} (he : x.exponent = 0) (hf : x.fraction ≠ 0) :
    x.widen = .ofParts x.sign
      ((x.fraction.log2 + 874) * 2 ^ 52 + (x.fraction - 2 ^ x.fraction.log2) * 2 ^ (52 - x.fraction.log2)) := by
  simp only [widen, he, hf, ↓reduceIte, Nat.shiftLeft_eq, Nat.one_mul, Binary64.ofParts]
  rfl

theorem widen_normal {x : Binary32} (special : x.exponent ≠ 255) (zero : x.exponent ≠ 0) :
    x.widen = .ofParts x.sign ((x.exponent + 896) * 2 ^ 52 + x.fraction * 2 ^ 29) := by
  simp only [widen, special, zero, ↓reduceIte, Nat.shiftLeft_eq, Binary64.ofParts]

/-- a subnormal fraction gets its leading digit back, and loses it again -/
theorem shifted_fraction {f : Nat} (hf : f ≠ 0) (bound : f < 2 ^ 23) :
    f.log2 ≤ 22 ∧ (f - 2 ^ f.log2) * 2 ^ (52 - f.log2) < 2 ^ 52 ∧
      2 ^ 52 + (f - 2 ^ f.log2) * 2 ^ (52 - f.log2) = f * 2 ^ (52 - f.log2) := by
  have small : f.log2 < 23 := (Nat.log2_lt hf).2 bound
  have low : 2 ^ f.log2 ≤ f := Nat.log2_self_le hf
  have high : f < 2 ^ (f.log2 + 1) := Nat.lt_log2_self
  have split : 2 ^ f.log2 * 2 ^ (52 - f.log2) = 2 ^ 52 := by
    rw [← Nat.pow_add]
    congr 1
    omega
  have rest : f - 2 ^ f.log2 < 2 ^ f.log2 := by
    rw [Nat.pow_succ] at high
    omega
  refine ⟨by omega, ?_, ?_⟩
  · calc (f - 2 ^ f.log2) * 2 ^ (52 - f.log2)
        < 2 ^ f.log2 * 2 ^ (52 - f.log2) := Nat.mul_lt_mul_of_pos_right rest (Nat.two_pow_pos _)
      _ = 2 ^ 52 := split
  · rw [Nat.sub_mul, split]
    have : 2 ^ 52 ≤ f * 2 ^ (52 - f.log2) := split ▸ Nat.mul_le_mul_right _ low
    omega

/-- **Widening is exact**: narrowing undoes it on every number. -/
theorem narrow_widen {x : Binary32} (number : x.isNaN = false) : x.widen.narrow = x := by
  have hs := x.sign_lt
  have hf := x.fraction_lt
  have he := x.exponent_lt
  conv_rhs => rw [← eq_ofParts x]
  by_cases special : x.exponent = 255
  · have infinite : x.fraction = 0 := by simpa [isNaN, special] using number
    rw [widen_special special, infinite, if_pos rfl, narrow_ofParts hs (by decide) (by decide), if_pos rfl, if_pos rfl,
      special]
  · by_cases zero : x.exponent = 0
    · by_cases none : x.fraction = 0
      · rw [widen_zero zero none, narrow_ofParts hs (by decide) (by decide), if_neg (by decide), if_pos rfl, zero, none,
          Nat.zero_mul]
      · obtain ⟨small, fits, shifted⟩ := shifted_fraction none hf
        have places : 29 + (897 - (x.fraction.log2 + 874)) = 52 - x.fraction.log2 := by omega
        have value : min (255 * 2 ^ 23) ((x.fraction.log2 + 874 - 897) * 2 ^ 23 + x.fraction) =
            0 * 2 ^ 23 + x.fraction := by omega
        rw [widen_subnormal zero none, narrow_ofParts hs (by omega) fits, if_neg (by omega), if_neg (by omega), shifted,
          places, roundedShift_mul, value, zero]
    · have shifted : 2 ^ 52 + x.fraction * 2 ^ 29 = (2 ^ 23 + x.fraction) * 2 ^ 29 := by omega
      have places : 29 + (897 - (x.exponent + 896)) = 29 := by omega
      have value : min (255 * 2 ^ 23) ((x.exponent + 896 - 897) * 2 ^ 23 + (2 ^ 23 + x.fraction)) =
          x.exponent * 2 ^ 23 + x.fraction := by omega
      rw [widen_normal special zero, narrow_ofParts hs (by omega) (by omega), if_neg (by omega), if_neg (by omega),
        shifted, places, roundedShift_mul, value]

/-- what is not a number loses its signalling digit by widening and narrowing, and keeps the others -/
theorem narrow_widen_of_isNaN {x : Binary32} (nan : x.isNaN = true) :
    x.widen.narrow = ofParts x.sign (255 * 2 ^ 23 + (2 ^ 22 + x.fraction % 2 ^ 22)) := by
  have hs := x.sign_lt
  obtain ⟨special, fraction⟩ : x.exponent = 255 ∧ x.fraction ≠ 0 := by simpa [isNaN] using nan
  have digits : (2 ^ 51 + x.fraction % 2 ^ 22 * 2 ^ 29) / 2 ^ 29 % 2 ^ 22 = x.fraction % 2 ^ 22 := by omega
  rw [widen_special special, if_neg fraction, narrow_ofParts hs (by decide) (by omega), if_pos rfl, if_neg (by omega),
    digits]

theorem isNaN_narrow_widen {x : Binary32} (nan : x.isNaN = true) : x.widen.narrow.isNaN = true := by
  obtain ⟨-, exponent, fraction⟩ :=
    parts x.sign_lt (e := 255) (f := 2 ^ 22 + x.fraction % 2 ^ 22) (by decide) (by omega)
  rw [narrow_widen_of_isNaN nan, isNaN, exponent, fraction]
  simp

end Binary32

/-- **A number that 32 bits can hold survives narrowing**, and so does what is not a number, if it was widened before. -/
theorem Binary64.widen_narrow_of_single {x : Binary64} (single : ∃ y : Binary32, y.widen = x) : x.narrow.widen = x := by
  obtain ⟨y, rfl⟩ := single
  cases nan : y.isNaN with
  | false => rw [Binary32.narrow_widen nan]
  | true =>
    obtain ⟨sign, exponent, fraction⟩ :=
      Binary32.parts y.sign_lt (e := 255) (f := 2 ^ 22 + y.fraction % 2 ^ 22) (by decide) (by omega)
    obtain ⟨special, nonzero⟩ : y.exponent = 255 ∧ y.fraction ≠ 0 := by simpa [Binary32.isNaN] using nan
    have digits : (2 ^ 22 + y.fraction % 2 ^ 22) % 2 ^ 22 = y.fraction % 2 ^ 22 := by omega
    rw [Binary32.narrow_widen_of_isNaN nan, Binary32.widen_special exponent, sign, fraction, if_neg (by omega), digits,
      Binary32.widen_special special, if_neg nonzero]

end NativeBridge
