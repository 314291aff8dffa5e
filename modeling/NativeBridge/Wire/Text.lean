/-
Texts on the wire: bytes without a zero byte, which ends a text in foreign code. They need not be valid UTF-8.

- `WireText.toString?_of_ofString?`: a string that can be sent is read back.
- `WireText.bytes_of_toString?`: a text that is read as a string has the bytes of that string.
-/
namespace NativeBridge

/-- a text on the wire -/
structure WireText where
  bytes : ByteArray
  noZero : 0 ∉ bytes.data

namespace WireText

@[ext]
theorem ext {a b : WireText} (h : a.bytes = b.bytes) : a = b := by
  cases a; cases b; simp_all

instance : DecidableEq WireText := fun a b =>
  if h : a.bytes.data = b.bytes.data then isTrue (ext (ByteArray.ext h))
  else isFalse fun equal => h (congrArg (fun t => t.bytes.data) equal)

/-- the bytes as a text, if none of them is zero -/
def ofBytes? (bytes : ByteArray) : Option WireText := if h : 0 ∉ bytes.data then some ⟨bytes, h⟩ else none

/-- the bytes up to the first zero -/
def untilZero (bytes : ByteArray) : WireText :=
  ⟨⟨(bytes.data.toList.takeWhile (· != 0)).toArray⟩, by
    intro h
    have all := List.all_takeWhile (p := (· != 0)) (l := bytes.data.toList)
    have := List.all_eq_true.1 all 0 (by simpa using h)
    simp at this⟩

/-- the text without bytes -/
def empty : WireText := untilZero ⟨#[]⟩

/-- the bytes of a string, if it has no zero character -/
def ofString? (s : String) : Option WireText := ofBytes? s.toByteArray

/-- the string, if the bytes are valid UTF-8 -/
def toString? (t : WireText) : Option String := String.fromUTF8? t.bytes

/-- how many bytes the text has -/
def size (t : WireText) : Nat := t.bytes.size

theorem bytes_of_ofBytes? {bytes : ByteArray} {t : WireText} (h : ofBytes? bytes = some t) : t.bytes = bytes := by
  unfold ofBytes? at h
  split at h
  · cases h; rfl
  · cases h

theorem bytes_of_toString? {t : WireText} {s : String} (h : t.toString? = some s) : s.toByteArray = t.bytes := by
  simp only [toString?, String.fromUTF8?] at h
  split at h
  · cases h; rfl
  · cases h

theorem toString?_of_ofString? {s : String} {t : WireText} (h : ofString? s = some t) : t.toString? = some s := by
  have bytes := bytes_of_ofBytes? h
  simp only [toString?, String.fromUTF8?, bytes, s.isValidUTF8, ↓reduceDIte]
  rfl

end WireText

/-- the place of the first zero byte of a string -/
def firstZero? (s : String) : Option Nat := s.toByteArray.data.toList.findIdx? (· == 0)

end NativeBridge
