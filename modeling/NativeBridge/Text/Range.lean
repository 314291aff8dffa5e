/-
Tables of characters: a table lists ranges of code points, both ends included, in ascending order.
-/
namespace NativeBridge.Text

/-- whether the character lies in one of the ranges -/
def inRanges (table : List (Nat × Nat)) (c : Char) : Bool :=
  table.any fun range => range.1 ≤ c.toNat && c.toNat ≤ range.2

end NativeBridge.Text
