/-
Integers there and back. A host integer is checked against the width of its slot, stored at it, and read back from it; what
native code returns is cut to the width, extended to the host's, and refused if the host has no such integer.

- `IntWidth.ofSlot_extend_eq_ok_iff`, `IntWidth.ofSlot_extend_eq_error_iff`: what the host gets for a register, said through
  `Extends` and through the register alone.
- `IntWidth.extends_register_iff`: a width holds an integer exactly if the integer survives its own register.
- `passed_and_returned_agree`: so what may be passed at a width is what comes back at it, and what came back may be passed again.
-/
import NativeBridge.Proofs.Call.Results

namespace NativeBridge

namespace IntWidth

variable {w : IntWidth} {register : UInt64}

/-! ## Registers -/

theorem Extends.unique {a b : Int} (first : w.Extends register a) (second : w.Extends register b) : a = b :=
  calc a = w.wrap register.toNat := (wrap_eq_of_modEq first.holds first.congruent).symm
    _ = b := wrap_eq_of_modEq second.holds second.congruent

/-- a register of 64 bits without sign is read as it is -/
theorem extends_u64 (register : UInt64) : IntWidth.u64.Extends register register.toNat where
  holds := by
    have := register.toNat_lt
    simp only [Holds, least, greatest]
    omega
  congruent := Int.ModEq.refl _

theorem pow_bits_dvd (w : IntWidth) : (2 : Int) ^ w.bits ∣ 2 ^ 64 := pow_dvd_pow 2 (by cases w <;> decide)

/-- the host's integer has the low bits of the register, also where it is only the pattern of a larger one -/
theorem extend_modEq (w : IntWidth) (register : UInt64) : (w.extend register).val ≡ register.toNat [ZMOD 2 ^ w.bits] := by
  have extended : (w.extend register).val ≡ w.wrap register.toNat [ZMOD 2 ^ 64] := IntWidth.i64.wrap_modEq _
  exact (extended.of_dvd w.pow_bits_dvd).trans (w.wrap_modEq _)

/-- the host gets exactly the integer that the register carries at the width -/
theorem ofSlot_extend_eq_ok_iff {n : HostInt} : w.ofSlot (w.extend register) = .ok n ↔ w.Extends register n.val := by
  obtain ⟨low, carried, ⟨m, rfl, given⟩ | ⟨rfl, large, refused⟩⟩ := w.ofSlot_extend register
  · rw [given]
    constructor
    · rintro ⟨⟩
      exact carried
    · intro other
      rw [BoundedInt.ext (carried.unique other)]
  · rw [refused]
    constructor
    · nofun
    · intro other
      have := n.holds.2
      have := carried.unique other
      omega

/-- the host refuses exactly the integers without sign that it does not have, and tells them as they are -/
theorem ofSlot_extend_eq_error_iff {fault : Fault} : w.ofSlot (w.extend register) = .error fault ↔
    w = .u64 ∧ 2 ^ 63 ≤ register.toNat ∧ fault = .intOutOfRange .u64 register.toNat [] := by
  obtain ⟨low, carried, ⟨m, rfl, given⟩ | ⟨rfl, large, refused⟩⟩ := w.ofSlot_extend register
  · rw [given]
    constructor
    · nofun
    · rintro ⟨rfl, large, -⟩
      have small := m.holds.2
      have := carried.unique (extends_u64 register)
      simp only [greatest] at small
      omega
  · obtain rfl := carried.unique (extends_u64 register)
    simp only [greatest] at large
    rw [refused]
    constructor
    · rintro ⟨⟩
      exact ⟨rfl, by omega, rfl⟩
    · rintro ⟨-, -, rfl⟩
      rfl

theorem register_modEq {other : IntWidth} (v : BoundedInt other) : (v.register.toNat : Int) ≡ v.val [ZMOD 2 ^ 64] := by
  have nonneg : 0 ≤ v.val % 2 ^ 64 := Int.emod_nonneg _ (by decide)
  have below : v.val % 2 ^ 64 < 2 ^ 64 := Int.emod_lt_of_pos _ (by decide)
  have pattern : (v.register.toNat : Int) = v.val % 2 ^ 64 := by
    simp only [BoundedInt.register, UInt64.ofInt, UInt64.toNat_ofNat']
    omega
  rw [pattern]
  exact Int.mod_modEq _ _

/-- an integer survives its own register exactly at the widths that hold it -/
theorem extends_register_iff {other : IntWidth} {v : BoundedInt other} :
    w.Extends v.register v.val ↔ w.Holds v.val :=
  ⟨fun carried => carried.holds, fun holds => ⟨holds, ((register_modEq v).of_dvd w.pow_bits_dvd).symm⟩⟩

/-! ## Memory -/

theorem fits_iff {v : HostInt} : w.fits v = true ↔ w.Holds v.val := decide_eq_true_iff

theorem check_of_holds {v : HostInt} (holds : w.Holds v.val) : w.check v = .ok v := if_pos holds

theorem check_of_not_holds {v : HostInt} (holds : ¬ w.Holds v.val) : w.check v = .error (.intOutOfRange w v.val []) :=
  if_neg holds

end IntWidth

namespace Number

variable {w : IntWidth} {v : HostInt}

theorem ofInt_of_not_holds (holds : ¬ w.Holds v.val) : ofInt w v = .error (.intOutOfRange w v.val []) := dif_neg holds

/-- a stored integer that the host has is read back as it is -/
theorem read_int_of_val {stored : BoundedInt w} (same : stored.val = v.val) : (int w stored).read = .ok (.int v) := by
  simp only [read, BoundedInt.ofInt?_eq_some_iff.2 same]

end Number

/-! ## There and back -/

/-- **Passing and returning integers agree**, at every width. An integer can be passed exactly if it comes back from its own
register; one that can be passed is stored exactly and read back unchanged, and every other one is refused, checked or stored.
What is returned has the low bits of the register. It is refused exactly if it is an integer without sign that the host does not
have; otherwise it can be passed again, and then native code sees the low bits that it returned. -/
theorem passed_and_returned_agree (w : IntWidth) :
    (∀ v : HostInt, w.fits v = true ↔ w.ofSlot (w.extend v.register) = .ok v) ∧
      (∀ v : HostInt, w.fits v = true → w.check v = .ok v ∧ ∃ stored : BoundedInt w, stored.val = v.val ∧
        Number.ofInt w v = .ok (.int w stored) ∧ (Number.int w stored).read = .ok (.int v)) ∧
      (∀ v : HostInt, w.fits v = false → w.check v = .error (.intOutOfRange w v.val []) ∧
        Number.ofInt w v = .error (.intOutOfRange w v.val [])) ∧
      ∀ register : UInt64, (w.extend register).val ≡ register.toNat [ZMOD 2 ^ w.bits] ∧
        (∀ fault, w.ofSlot (w.extend register) = .error fault ↔
          w = .u64 ∧ 2 ^ 63 ≤ register.toNat ∧ fault = .intOutOfRange .u64 register.toNat []) ∧
        ∀ n : HostInt, w.ofSlot (w.extend register) = .ok n → w.fits n = true ∧ ∃ stored : BoundedInt w,
          Number.ofInt w n = .ok (.int w stored) ∧ stored.val = n.val ∧ stored.val ≡ register.toNat [ZMOD 2 ^ w.bits] ∧
          w.ofSlot (w.extend (Number.int w stored).register) = .ok n := by
  refine ⟨fun v => ?_, fun v fits => ?_, fun v unfit => ?_, fun register => ⟨w.extend_modEq register, fun fault => ?_, ?_⟩⟩
  · rw [IntWidth.fits_iff, IntWidth.ofSlot_extend_eq_ok_iff, IntWidth.extends_register_iff]
  · have holds := IntWidth.fits_iff.1 fits
    exact ⟨IntWidth.check_of_holds holds, ⟨v.val, holds⟩, rfl, Number.ofInt_eq_ok_iff.2 ⟨holds, rfl⟩,
      Number.read_int_of_val rfl⟩
  · have holds : ¬ w.Holds v.val := fun holds => Bool.false_ne_true (unfit.symm.trans (IntWidth.fits_iff.2 holds))
    exact ⟨IntWidth.check_of_not_holds holds, Number.ofInt_of_not_holds holds⟩
  · exact IntWidth.ofSlot_extend_eq_error_iff
  · intro n returned
    have carried := IntWidth.ofSlot_extend_eq_ok_iff.1 returned
    let stored : BoundedInt w := ⟨n.val, carried.holds⟩
    have again : w.Extends stored.register n.val := IntWidth.extends_register_iff.2 carried.holds
    exact ⟨IntWidth.fits_iff.2 carried.holds, stored, Number.ofInt_eq_ok_iff.2 ⟨carried.holds, rfl⟩, rfl, carried.congruent,
      IntWidth.ofSlot_extend_eq_ok_iff.2 again⟩

/-- 200 is no signed byte, 0x180 is returned as -128, which is one, and the least integer that the host lacks is refused -/
theorem passed_and_returned_agree_bytes :
    Number.ofInt .i8 ⟨200, by decide⟩ = .error (.intOutOfRange .i8 200 []) ∧
      IntWidth.i8.ofSlot (IntWidth.i8.extend 0x180) = .ok ⟨-128, by decide⟩ ∧
      Number.ofInt .i8 ⟨-128, by decide⟩ = .ok (.int .i8 ⟨-128, by decide⟩) ∧
      (Number.int .i8 ⟨-128, by decide⟩).read = .ok (.int ⟨-128, by decide⟩) ∧
      IntWidth.u64.ofSlot (IntWidth.u64.extend 0x8000000000000000) =
        .error (.intOutOfRange .u64 0x8000000000000000 []) := by
  obtain ⟨-, passed, refused, returned⟩ := passed_and_returned_agree .i8
  have out := (refused ⟨200, by decide⟩ (by decide)).2
  have back : IntWidth.i8.ofSlot (IntWidth.i8.extend 0x180) = .ok ⟨-128, by decide⟩ := by rfl
  obtain ⟨fits, -⟩ := (returned 0x180).2.2 ⟨-128, by decide⟩ back
  obtain ⟨-, stored, same, kept, read⟩ := passed ⟨-128, by decide⟩ fits
  obtain rfl : stored = ⟨-128, by decide⟩ := BoundedInt.ext same
  exact ⟨out, back, kept, read,
    (((passed_and_returned_agree .u64).2.2.2 0x8000000000000000).2.1 _).2 ⟨rfl, by decide, by rfl⟩⟩

end NativeBridge
