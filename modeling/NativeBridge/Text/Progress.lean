/-
What a reader leaves of its input. A reader that gives its rest together with the fact that it is shorter can be repeated
without end in sight: the length of what is left goes down. Two readers after each other leave less than either.

- `Shorter.length_lt`, `Shorter.turn_lt`, `NoLonger.turn_lt`: why readers that call themselves or each other end.
-/
namespace NativeBridge.Text

/-- what is left after something was read from `s` -/
abbrev Shorter (s : List Char) := { rest : List Char // rest.length < s.length }

/-- what is left after something or nothing was read from `s` -/
abbrev NoLonger (s : List Char) := { rest : List Char // rest.length ≤ s.length }

theorem length_dropWhile_le (p : Char → Bool) (s : List Char) : (s.dropWhile p).length ≤ s.length :=
  (List.dropWhile_sublist p).length_le

namespace NoLonger

variable {s : List Char}

/-- nothing was read -/
def all (s : List Char) : NoLonger s := ⟨s, Nat.le_refl _⟩

/-- the characters of a class were read -/
def dropWhile (p : Char → Bool) (s : List Char) : NoLonger s := ⟨s.dropWhile p, length_dropWhile_le p s⟩

/-- so many characters were read, or all -/
def drop (count : Nat) (s : List Char) : NoLonger s := ⟨s.drop count, by simp⟩

/-- something or nothing was read, and again -/
def andThen (first : NoLonger s) (second : NoLonger first.1) : NoLonger s := ⟨second, Nat.le_trans second.2 first.2⟩

/-- something or nothing was read, and then something -/
def andRead (first : NoLonger s) (second : Shorter first.1) : Shorter s := ⟨second, Nat.lt_of_lt_of_le second.2 first.2⟩

/-- something or nothing was read, and then a value -/
def followed {α : Type} (first : NoLonger s) (r : Option (α × Shorter first.1)) : Option (α × Shorter s) :=
  r.map fun (a, rest) => (a, first.andRead rest)

/-- of readers that hand over to each other, the one whose turn comes earlier may go on where nothing was read -/
theorem turn_lt (rest : NoLonger s) {turns i j : Nat} (h : i < j) : turns * rest.1.length + i < turns * s.length + j :=
  Nat.add_lt_add_of_le_of_lt (Nat.mul_le_mul_left turns rest.2) h

end NoLonger

namespace Shorter

variable {s : List Char}

/-- one character was read -/
def tail (c : Char) (rest : List Char) : Shorter (c :: rest) := ⟨rest, by simp⟩

/-- one character was read, perhaps with something before it -/
def ofTail {c : Char} {rest : List Char} (h : (c :: rest).length ≤ s.length) : Shorter s := ⟨rest, h⟩

/-- something was read, so something or nothing was -/
def weaken (rest : Shorter s) : NoLonger s := ⟨rest, Nat.le_of_lt rest.2⟩

/-- something was read, and then something or nothing -/
def andThen (first : Shorter s) (second : NoLonger first.1) : Shorter s := ⟨second, Nat.lt_of_le_of_lt second.2 first.2⟩

/-- something was read, and then something -/
def andRead (first : Shorter s) (second : Shorter first.1) : Shorter s := first.andThen second.weaken

/-- something was read, and then a value -/
def followed {α : Type} (first : Shorter s) (r : Option (α × Shorter first.1)) : Option (α × Shorter s) :=
  r.map fun (a, rest) => (a, first.andRead rest)

/-- the next reader may begin wherever something was read -/
theorem length_lt (rest : Shorter s) : rest.1.length < s.length := rest.2

/-- of readers that hand over to each other, any may go on where something was read -/
theorem turn_lt (rest : Shorter s) {turns i j : Nat} (h : i < turns) : turns * rest.1.length + i < turns * s.length + j :=
  calc turns * rest.1.length + i < turns * rest.1.length + turns := Nat.add_lt_add_left h _
    _ = turns * (rest.1.length + 1) := (Nat.mul_succ turns _).symm
    _ ≤ turns * s.length := Nat.mul_le_mul_left turns rest.2
    _ ≤ turns * s.length + j := Nat.le_add_right _ j

end Shorter

end NativeBridge.Text
