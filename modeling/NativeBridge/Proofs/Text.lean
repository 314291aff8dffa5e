/-
Strings that can be sent. A byte of a character is zero only if the character is, so that a string can be sent exactly if it
has no zero character.

- `zero_mem_utf8EncodeChar_iff`, `zero_mem_toByteArray_iff`: where zero bytes come from.
- `WireText.ofString_ok_iff`, `WireText.exists_ofString_iff`: which strings become texts on the wire, and which text.
- `WireText.toString?_getD_ofString?`: what is read if the empty text stands in for the others.
-/
import Mathlib.Tactic
import NativeBridge.Codec.Encode

namespace NativeBridge

theorem zero_eq_ofNat_iff {n : Nat} (h : n < 256) : (0 : UInt8) = UInt8.ofNat n ↔ n = 0 := by
  rw [← UInt8.toNat_inj, UInt8.toNat_ofNat_of_lt' h]
  exact eq_comm

/-- Only the first byte of a character can be less than 128, and it is then the only one. -/
theorem zero_mem_utf8EncodeChar_iff {c : Char} : 0 ∈ String.utf8EncodeChar c ↔ c = '\x00' := by
  rw [Char.ext_iff, UInt32.ext_iff]
  show _ ↔ c.val.toNat = 0
  fun_cases String.utf8EncodeChar with
  | case1 v small => rw [List.mem_singleton, zero_eq_ofNat_iff (by omega)]
  | case2 v =>
    simp only [List.mem_cons, List.not_mem_nil, or_false]
    rw [zero_eq_ofNat_iff (by omega), zero_eq_ofNat_iff (by omega)]
    omega
  | case3 v =>
    simp only [List.mem_cons, List.not_mem_nil, or_false]
    rw [zero_eq_ofNat_iff (by omega), zero_eq_ofNat_iff (by omega), zero_eq_ofNat_iff (by omega)]
    omega
  | case4 v =>
    simp only [List.mem_cons, List.not_mem_nil, or_false]
    rw [zero_eq_ofNat_iff (by omega), zero_eq_ofNat_iff (by omega), zero_eq_ofNat_iff (by omega),
      zero_eq_ofNat_iff (by omega)]
    omega

theorem zero_mem_toByteArray_iff {s : String} : 0 ∈ s.toByteArray.data ↔ '\x00' ∈ s.toList := by
  have bytes : s.toByteArray.data.toList = s.toList.flatMap String.utf8EncodeChar := by
    rw [← String.utf8Encode_toList, List.utf8Encode]
    simp
  rw [← Array.mem_toList_iff, bytes, List.mem_flatMap]
  simp only [zero_mem_utf8EncodeChar_iff, exists_eq_right]

namespace WireText

theorem ofString_ok_iff {s : String} {t : WireText} : ofString s = .ok t ↔ ofString? s = some t := by
  unfold ofString
  cases ofString? s with
  | some made => simp
  | none => simp

/-- A string can be sent exactly if it has no zero character. -/
theorem exists_ofString_iff {s : String} : (∃ t, ofString s = .ok t) ↔ '\x00' ∉ s.toList := by
  simp only [ofString_ok_iff, ofString?, ofBytes?, ← zero_mem_toByteArray_iff]
  split_ifs with free
  · simp [free]
  · simp [free]

theorem ofString?_eq_none_iff {s : String} : ofString? s = none ↔ '\x00' ∈ s.toList := by
  simp only [ofString?, ofBytes?, ← zero_mem_toByteArray_iff]
  split_ifs with free
  · simpa using free
  · simpa using free

theorem ofString?_of_toString? {t : WireText} {s : String} (h : t.toString? = some s) :
    ofString? s = some t := by
  have free : 0 ∉ s.toByteArray.data := bytes_of_toString? h ▸ t.noZero
  rw [ofString?, ofBytes?, dif_pos free]
  exact congrArg some (ext (bytes_of_toString? h))

theorem toString?_empty : empty.toString? = some "" := by
  have bytes : ByteArray.empty = ⟨#[]⟩ := rfl
  have written : ofString? "" = some empty := by simp [ofString?, ofBytes?, empty, untilZero, bytes]
  exact toString?_of_ofString? written

/-- what is read where a string has been written, or nothing in its place -/
theorem toString?_getD_ofString? (s : String) :
    ((ofString? s).getD empty).toString? = some (if '\x00' ∈ s.toList then "" else s) := by
  split_ifs with zero
  · rw [ofString?_eq_none_iff.2 zero]
    exact toString?_empty
  · obtain ⟨t, made⟩ := exists_ofString_iff.2 zero
    have made := ofString_ok_iff.1 made
    rw [made]
    exact toString?_of_ofString? made

end WireText

end NativeBridge
