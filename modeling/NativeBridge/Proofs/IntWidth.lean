/-
Low bits of integers.

- `IntWidth.wrap_modEq`, `IntWidth.wrap_eq_of_modEq`: the low bits read at a width are the one integer of the width that is
  congruent to the whole.
- `IntWidth.holds_i64`: only the width of 64 bits without sign has integers that the host does not have.
-/
import Mathlib.Tactic
import NativeBridge.IntWidth

namespace NativeBridge.IntWidth

theorem count_eq (w : IntWidth) : w.count = 2 ^ w.bits := by cases w <;> rfl

theorem wrap_modEq (w : IntWidth) (v : Int) : w.wrap v ≡ v [ZMOD 2 ^ w.bits] := by
  rw [wrap, ← count_eq]
  calc (v - w.least) % w.count + w.least ≡ v - w.least + w.least [ZMOD w.count] := (Int.mod_modEq _ _).add_right _
    _ = v := sub_add_cancel v w.least

/-- no other integer of the width has these low bits -/
theorem wrap_eq_of_modEq {w : IntWidth} {a v : Int} (holds : w.Holds a) (same : a ≡ v [ZMOD 2 ^ w.bits]) : w.wrap v = a := by
  have residue : (v - w.least) % w.count = (a - w.least) % w.count := by
    rw [count_eq]
    exact (same.sub_right w.least).symm
  rw [wrap, residue]
  exact wrap_of_holds holds

/-- what a narrow width holds, the host holds -/
theorem holds_i64 {w : IntWidth} {v : Int} (narrow : w ≠ .u64) (h : w.Holds v) : IntWidth.i64.Holds v := by
  cases w with
  | u64 => exact absurd rfl narrow
  | _ =>
    simp only [Holds, least, greatest] at h ⊢
    omega

end NativeBridge.IntWidth
