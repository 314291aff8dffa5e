/-
The objects of a wire value: the value itself, and the objects of the values it contains.

- `WireValue.size_eq`: a value has one object more than its parts have together, whatever kind of container it is.
- `WireValue.sizeOfItems_perm`: the order of values does not matter for their objects.
-/
import Mathlib.Tactic
import NativeBridge.Proofs.Chain
import NativeBridge.Wire.Value

namespace NativeBridge.WireValue

/-- the values that a value contains, without those that they contain in turn -/
def parts : WireValue → List WireValue
  | tuple chain => chain.map Prod.snd
  | list items => items
  | dict _ entries => entries.map Prod.snd
  | text _ | bool _ | int _ | float32 _ | float64 _ => []

theorem sizeOfChain_eq (chain : List (Nat × WireValue)) : sizeOfChain chain = sizeOfItems (chain.map Prod.snd) := by
  induction chain with
  | nil => rfl
  | cons link rest ih => rw [sizeOfChain, List.map_cons, sizeOfItems, ih]

theorem sizeOfEntries_eq (entries : List (WireKey × WireValue)) :
    sizeOfEntries entries = sizeOfItems (entries.map Prod.snd) := by
  induction entries with
  | nil => rfl
  | cons entry rest ih => rw [sizeOfEntries, List.map_cons, sizeOfItems, ih]

theorem size_eq (v : WireValue) : v.size = 1 + sizeOfItems v.parts := by
  cases v with
  | tuple chain => rw [size, parts, sizeOfChain_eq]
  | list items => rw [size, parts]
  | dict kind entries => rw [size, parts, sizeOfEntries_eq]
  | _ => rfl

theorem sizeOfItems_append (items others : List WireValue) :
    sizeOfItems (items ++ others) = sizeOfItems items + sizeOfItems others := by
  induction items with
  | nil => exact (Nat.zero_add _).symm
  | cons item rest ih => rw [List.cons_append, sizeOfItems, sizeOfItems, ih, Nat.add_assoc]

theorem sizeOfItems_perm {items others : List WireValue} (h : items.Perm others) :
    sizeOfItems items = sizeOfItems others := by
  induction h with
  | nil => rfl
  | cons item _ ih => rw [sizeOfItems, sizeOfItems, ih]
  | swap a b rest =>
    simp only [sizeOfItems]
    omega
  | trans _ _ first second => exact first.trans second

theorem sizeOfItems_filterMap {α : Type} (value? : α → Option WireValue) (holders : List α) :
    sizeOfItems (holders.filterMap value?) = (holders.map fun holder => sizeOfOption (value? holder)).sum := by
  induction holders with
  | nil => rfl
  | cons holder rest ih =>
    rw [List.map_cons, List.sum_cons, ← ih]
    cases found : value? holder with
    | none => rw [List.filterMap_cons_none found, sizeOfOption, Nat.zero_add]
    | some value => rw [List.filterMap_cons_some found, sizeOfItems, sizeOfOption]

theorem sizeOfChain_drain (chain : List (Nat × WireValue)) : sizeOfChain (Chain.drain chain) = sizeOfChain chain := by
  rw [sizeOfChain_eq, sizeOfChain_eq]
  exact sizeOfItems_perm ((Chain.drain_perm chain).map Prod.snd)

/-- the objects of an element that is taken out of a chain, and of those that stay -/
theorem sizeOfChain_take? {index : Nat} {chain others : List (Nat × WireValue)} {elem : WireValue}
    (h : Chain.take? index chain = some (elem, others)) : elem.size + sizeOfChain others = sizeOfChain chain := by
  rw [sizeOfChain_eq, sizeOfChain_eq, sizeOfItems_perm ((Chain.take?_perm h).map Prod.snd)]
  rfl

end NativeBridge.WireValue
