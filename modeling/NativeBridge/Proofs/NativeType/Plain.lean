/-
Native types without wire values in them, and what matters of their values: whether they can be sent, and whether their maps
are in order. What the maps of a value list is the same in whatever order they list it; `ordered` gives them the order in which
they are read back.

- `Plain`: the types; `Sendable`: the values that can become wire values.
- `InOrder`, `ordered`: values with their maps in order at every depth, and the same value so.
- `inOrder_ordered`, `ordered_of_inOrder`: the one is always the other, and changes nothing if it holds already.
-/
import NativeBridge.Proofs.NativeType.Maps

namespace NativeBridge.NativeType

/-- no wire values as they are, at any depth -/
inductive Plain : NativeType → Prop
  | int (w : IntWidth) : Plain (.int w)
  | float32 : Plain .float32
  | float64 : Plain .float64
  | bool : Plain .bool
  | text : Plain .text
  | list {elem : NativeType} (part : Plain elem) : Plain (.list elem)
  | tuple {elems : List NativeType} (parts : ∀ elem ∈ elems, Plain elem) : Plain (.tuple elems)
  | map {key : KeyKind} {value : NativeType} (part : Plain value) : Plain (.map key value)

mutual

/-- no integer of 64 unsigned bits is too large for a wire integer, and no string has a zero character; the keys of maps
may be anything -/
def Sendable : (t : NativeType) → t.Value → Prop
  | int w, v => w = .u64 → v.val ≤ IntWidth.i64.greatest
  | text, s => '\x00' ∉ s.toList
  | list elem, items => ∀ item ∈ items, Sendable elem item
  | tuple elems, values => AllSendable elems values
  | map _ value, entries => ∀ entry ∈ entries, Sendable value entry.2
  | float32, _ | float64, _ | bool, _ | wire, _ => True

/-- the same for the elements of a tuple -/
def AllSendable : (ts : List NativeType) → Values ts → Prop
  | [], _ => True
  | t :: ts, (value, values) => Sendable t value ∧ AllSendable ts values

end

mutual

/-- every map in the value is in the order of its keys, each key once -/
def InOrder : (t : NativeType) → t.Value → Prop
  | list elem, items => ∀ item ∈ items, InOrder elem item
  | tuple elems, values => AllInOrder elems values
  | map _ value, entries => Ascending entries ∧ ∀ entry ∈ entries, InOrder value entry.2
  | int _, _ | float32, _ | float64, _ | bool, _ | text, _ | wire, _ => True

/-- the same for the elements of a tuple -/
def AllInOrder : (ts : List NativeType) → Values ts → Prop
  | [], _ => True
  | t :: ts, (value, values) => InOrder t value ∧ AllInOrder ts values

end

mutual

/-- the value with every map in it in the order of its keys, of equal keys the last -/
def ordered : (t : NativeType) → t.Value → t.Value
  | list elem, items => items.map (ordered elem)
  | tuple elems, values => orderedElems elems values
  | map _ value, entries => mapOf (entries.map fun entry => (entry.1, ordered value entry.2))
  | int _, v => v
  | float32, x => x
  | float64, x => x
  | bool, b => b
  | text, s => s
  | wire, value => value

/-- the same for the elements of a tuple -/
def orderedElems : (ts : List NativeType) → Values ts → Values ts
  | [], _ => ()
  | t :: ts, (value, values) => (ordered t value, orderedElems ts values)

end

variable {t : NativeType}

theorem inOrder_ordered (plain : t.Plain) (value : t.Value) : t.InOrder (t.ordered value) := by
  induction plain with
  | list _ part =>
    intro item mem
    obtain ⟨given, -, rfl⟩ := List.mem_map.1 mem
    exact part given
  | @tuple elems plain parts =>
    clear plain
    show AllInOrder elems (orderedElems elems value)
    induction elems with
    | nil => trivial
    | cons elem elems ih =>
      obtain ⟨first, others⟩ := value
      obtain ⟨here, there⟩ := List.forall_mem_cons.1 parts
      exact ⟨here first, ih there others⟩
  | map _ part =>
    refine ⟨ascending_mapOf _, ?_⟩
    rintro ⟨key, item⟩ mem
    obtain ⟨before, after, split, -⟩ := mem_mapOf_iff.1 mem
    have listed : (key, item) ∈ List.map (fun entry => (entry.1, ordered _ entry.2)) value :=
      split ▸ List.mem_append_right _ List.mem_cons_self
    obtain ⟨given, -, same⟩ := List.mem_map.1 listed
    cases same
    exact part given.2
  | _ => trivial

theorem ordered_of_inOrder (plain : t.Plain) {value : t.Value} (sorted : t.InOrder value) : t.ordered value = value := by
  induction plain with
  | list _ part =>
    refine (List.map_congr_left ?_).trans (List.map_id value)
    exact fun item mem => part (sorted item mem)
  | @tuple elems plain parts =>
    clear plain
    replace sorted : AllInOrder elems value := sorted
    show orderedElems elems value = value
    induction elems with
    | nil => rfl
    | cons elem elems ih =>
      obtain ⟨first, others⟩ := value
      obtain ⟨here, there⟩ := List.forall_mem_cons.1 parts
      exact Prod.ext (here sorted.1) (ih there sorted.2)
  | map _ part =>
    obtain ⟨ascending, sorted⟩ := sorted
    have same : List.map (fun entry => (entry.1, ordered _ entry.2)) value = value := by
      refine (List.map_congr_left ?_).trans (List.map_id value)
      exact fun entry mem => Prod.ext rfl (part (sorted entry mem))
    show mapOf _ = value
    rw [same]
    exact Ordered.putAll_of_ascending ascending
  | _ => rfl

end NativeBridge.NativeType
