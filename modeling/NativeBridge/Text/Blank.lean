/-
Blank characters and trimming. A character is blank if it has the Unicode property White_Space; the trimming
functions work on lists of characters, which is the form the readers of this library consume.

- `trimStart_eq_nil_iff`: nothing is left exactly when every character is blank.
-/
namespace NativeBridge.Text

/-- blank: the characters with the Unicode property White_Space -/
def isBlank (c : Char) : Bool :=
  let n := c.toNat
  (9 ≤ n && n ≤ 13) || n == 0x20 || n == 0x85 || n == 0xA0 || n == 0x1680 || (0x2000 ≤ n && n ≤ 0x200A) ||
    n == 0x2028 || n == 0x2029 || n == 0x202F || n == 0x205F || n == 0x3000

/-- the text without its leading blanks -/
def trimStart (s : List Char) : List Char := s.dropWhile isBlank

/-- the text without its trailing blanks -/
def trimEnd (s : List Char) : List Char := (s.reverse.dropWhile isBlank).reverse

/-- the text without leading and trailing blanks -/
def trim (s : List Char) : List Char := trimEnd (trimStart s)

/-- trimming of a string -/
def trimmed (s : String) : String := String.ofList (trim s.toList)

theorem trimStart_eq_nil_iff {s : List Char} : trimStart s = [] ↔ ∀ c ∈ s, isBlank c = true := by
  induction s with
  | nil => simp [trimStart]
  | cons c r ih => cases h : isBlank c <;> simp_all [trimStart]

theorem length_trimStart_le (s : List Char) : (trimStart s).length ≤ s.length :=
  (List.dropWhile_sublist _).length_le

theorem trimStart_idem (s : List Char) : trimStart (trimStart s) = trimStart s := by
  induction s with
  | nil => rfl
  | cons c r ih =>
    cases h : isBlank c with
    | true => simpa [trimStart, List.dropWhile_cons, h] using ih
    | false => simp [trimStart, h]

end NativeBridge.Text
