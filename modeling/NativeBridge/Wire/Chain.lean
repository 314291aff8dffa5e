/-
The chain of a tuple: elements with indices, linked at the head. Indices may come in any order, may repeat and may be
missing; of equal indices the element linked last stands first.

- `length_drain`: draining yields every element.
-/
namespace NativeBridge.Chain

variable {α : Type}

/-- the chain with an element linked at its head -/
def pushFront (index : Nat) (elem : α) (chain : List (Nat × α)) : List (Nat × α) := (index, elem) :: chain

/-- the first element with this index -/
def get? (index : Nat) : List (Nat × α) → Option α
  | [] => none
  | (i, elem) :: rest => if i = index then some elem else get? index rest

/-- the first element with this index, and the chain without it -/
def take? (index : Nat) : List (Nat × α) → Option (α × List (Nat × α))
  | [] => none
  | (i, elem) :: rest =>
    if i = index then some (elem, rest)
    else (take? index rest).map fun (taken, others) => (taken, (i, elem) :: others)

/-- puts an element in front of the first one whose index is not smaller -/
def insertByIndex (link : Nat × α) : List (Nat × α) → List (Nat × α)
  | [] => [link]
  | other :: rest => if link.1 ≤ other.1 then link :: other :: rest else other :: insertByIndex link rest

/-- all elements by ascending index, equal indices as they stand in the chain -/
def drain (chain : List (Nat × α)) : List (Nat × α) := chain.foldr insertByIndex []

/-- the elements with the indices from `first` on, in order -/
def number (first : Nat) : List α → List (Nat × α)
  | [] => []
  | elem :: rest => (first, elem) :: number (first + 1) rest

theorem length_insertByIndex (link : Nat × α) (chain : List (Nat × α)) :
    (insertByIndex link chain).length = chain.length + 1 := by
  induction chain with
  | nil => rfl
  | cons other rest ih =>
    simp only [insertByIndex]
    split
    · rfl
    · simp [ih]

theorem length_drain (chain : List (Nat × α)) : (drain chain).length = chain.length := by
  induction chain with
  | nil => rfl
  | cons link rest ih =>
    simp only [drain, List.foldr_cons, length_insertByIndex] at ih ⊢
    simp [ih]

end NativeBridge.Chain
