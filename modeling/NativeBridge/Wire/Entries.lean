/-
The entries of a wire dictionary. A key stands for at most one entry; putting a value under a key that is there already
replaces the value that was there, and gives it back.

- `get?_put`: a value is found under its key, and the other keys are not disturbed.
-/
import NativeBridge.Key

namespace NativeBridge.Entries

variable {α : Type}

/-- the value under a key -/
def get? (key : WireKey) : List (WireKey × α) → Option α
  | [] => none
  | (k, value) :: rest => if k = key then some value else get? key rest

/-- the entries with a value under a key -/
def put (key : WireKey) (value : α) : List (WireKey × α) → List (WireKey × α)
  | [] => [(key, value)]
  | (k, old) :: rest => if k = key then (key, value) :: rest else (k, old) :: put key value rest

theorem get?_put (key k : WireKey) (value : α) (entries : List (WireKey × α)) :
    get? k (put key value entries) = if key = k then some value else get? k entries := by
  induction entries with
  | nil => rfl
  | cons entry rest ih =>
    by_cases h : entry.1 = key
    · by_cases hk : key = k <;> simp_all [put, get?]
    · by_cases hk : key = k
      · simp_all [put, get?]
      · simp [put, get?, h, ih, hk]

end NativeBridge.Entries
