/-
Integers of a declared width. The eight widths are those of the native integer types; a `BoundedInt w` is an integer
that a slot of width `w` can hold, and a host integer is one of width `i64`.

- `holds_wrap`: the low bits of any integer, read at a width, give an integer that the width holds.
- `wrap_of_holds`: an integer that the width holds is not changed by reading its low bits at that width.
-/
namespace NativeBridge

/-- the width and signedness of a native integer -/
inductive IntWidth where
  | i8
  | i16
  | i32
  | i64
  | u8
  | u16
  | u32
  | u64
deriving DecidableEq, Repr

namespace IntWidth

/-- the name used in declarations and messages -/
def name : IntWidth → String
  | i8 => "i8"
  | i16 => "i16"
  | i32 => "i32"
  | i64 => "i64"
  | u8 => "u8"
  | u16 => "u16"
  | u32 => "u32"
  | u64 => "u64"

/-- the width an integer type name declares: the names above, the pointer-sized signed integer, and the integer types of C
on a 64-bit platform whose `long` has 64 bits -/
def ofName? : String → Option IntWidth
  | "i8" | "c_schar" => some i8
  | "i16" | "c_short" => some i16
  | "i32" | "c_int" => some i32
  | "i64" | "isize" | "c_long" | "c_longlong" => some i64
  | "u8" | "c_uchar" => some u8
  | "u16" | "c_ushort" => some u16
  | "u32" | "c_uint" => some u32
  | "u64" | "c_ulong" | "c_ulonglong" => some u64
  | _ => none

/-- how many bits a slot of this width has -/
def bits : IntWidth → Nat
  | i8 | u8 => 8
  | i16 | u16 => 16
  | i32 | u32 => 32
  | i64 | u64 => 64

/-- the least integer of this width -/
def least : IntWidth → Int
  | i8 => -0x80
  | i16 => -0x8000
  | i32 => -0x80000000
  | i64 => -0x8000000000000000
  | u8 | u16 | u32 | u64 => 0

/-- the greatest integer of this width -/
def greatest : IntWidth → Int
  | i8 => 0x7F
  | i16 => 0x7FFF
  | i32 => 0x7FFFFFFF
  | i64 => 0x7FFFFFFFFFFFFFFF
  | u8 => 0xFF
  | u16 => 0xFFFF
  | u32 => 0xFFFFFFFF
  | u64 => 0xFFFFFFFFFFFFFFFF

/-- the integer can be represented at this width -/
def Holds (w : IntWidth) (v : Int) : Prop := w.least ≤ v ∧ v ≤ w.greatest

instance (w : IntWidth) (v : Int) : Decidable (w.Holds v) := inferInstanceAs (Decidable (_ ∧ _))

/-- how many integers a slot of this width can hold -/
def count (w : IntWidth) : Int := w.greatest - w.least + 1

/-- the low bits of an integer, read at this width: the one integer of the width that differs from it by a multiple of
`count`, so the top bit is a sign for a signed width and a digit otherwise -/
def wrap (w : IntWidth) (v : Int) : Int := (v - w.least) % w.count + w.least

theorem count_pos (w : IntWidth) : 0 < w.count := by cases w <;> decide

theorem holds_wrap (w : IntWidth) (v : Int) : w.Holds (w.wrap v) := by
  have pos := w.count_pos
  have := Int.emod_nonneg (v - w.least) (Int.ne_of_gt pos)
  have := Int.emod_lt_of_pos (v - w.least) pos
  simp only [Holds, wrap, count] at *
  omega

theorem wrap_of_holds {w : IntWidth} {v : Int} (h : w.Holds v) : w.wrap v = v := by
  have : (v - w.least) % w.count = v - w.least :=
    Int.emod_eq_of_lt (by simp only [Holds] at h; omega) (by simp only [Holds, count] at *; omega)
  simp only [wrap]
  omega

end IntWidth

/-- an integer that a slot of width `w` can hold -/
structure BoundedInt (w : IntWidth) where
  val : Int
  holds : w.Holds val
deriving DecidableEq

/-- the integers of the host -/
abbrev HostInt := BoundedInt .i64

namespace BoundedInt

@[ext]
theorem ext {w : IntWidth} {a b : BoundedInt w} (h : a.val = b.val) : a = b := by
  cases a; cases b; simp_all

/-- the low bits of an integer as an integer of width `w` -/
def wrap (w : IntWidth) (v : Int) : BoundedInt w := ⟨w.wrap v, w.holds_wrap v⟩

/-- the integer itself, if width `w` holds it -/
def ofInt? (w : IntWidth) (v : Int) : Option (BoundedInt w) := if h : w.Holds v then some ⟨v, h⟩ else none

theorem ofInt?_eq_some_iff {w : IntWidth} {v : Int} {b : BoundedInt w} : ofInt? w v = some b ↔ v = b.val := by
  unfold ofInt?
  split
  · simp [BoundedInt.ext_iff]
  · next h => exact ⟨nofun, fun e => absurd (e ▸ b.holds) h⟩

instance {w : IntWidth} : Inhabited (BoundedInt w) := ⟨wrap w 0⟩

/-- the pattern of a 64-bit register that carries the integer, sign-extended -/
def register {w : IntWidth} (v : BoundedInt w) : UInt64 := UInt64.ofInt v.val

end BoundedInt

namespace IntWidth

/-- whether a host integer can be passed at this width -/
def fits (w : IntWidth) (v : HostInt) : Bool := decide (w.Holds v.val)

/-- the host integer a register carries at this width: its low bits, sign- or zero-extended; the 64 bits of an unsigned
register keep their pattern -/
def extend (w : IntWidth) (register : UInt64) : HostInt := .wrap .i64 (w.wrap register.toNat)

end IntWidth

end NativeBridge
