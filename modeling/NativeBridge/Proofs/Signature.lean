/-
Induction over signatures, and what it means for a signature to be resolved.

- `Signature.induction`: what holds of a container whenever it holds of its parts, and of every signature without parts, holds
  of every signature, whatever the accesses are.
- `firstHole?_tuple_iff`, `firstHole?_list_iff`, `firstHole?_dict_iff`: a container has no hole exactly if its parts have none.
- `hasHole_iff`: the search for the first hole finds one exactly if there is one, at whatever depth it stands.
-/
import Mathlib.Tactic
import NativeBridge.Signature

namespace NativeBridge.Signature

/-- **Induction over signatures**: the parts of a container come before it. -/
@[elab_as_elim]
theorem induction {P : Signature → Prop}
    (primitive : ∀ access kind, P ⟨access, .primitive kind⟩)
    (tuple : ∀ access elems, (∀ elem ∈ elems, P elem) → P ⟨access, .tuple elems⟩)
    (list : ∀ access elem, P elem → P ⟨access, .list elem⟩)
    (dict : ∀ access key value, P value → P ⟨access, .dict key value⟩)
    (hole : ∀ access head, P ⟨access, .hole head⟩)
    (void : ∀ access, P ⟨access, .void⟩) (s : Signature) : P s := by
  refine @Signature.rec (fun shape => ∀ access, P ⟨access, shape⟩) P (fun elems => ∀ elem ∈ elems, P elem)
    ?_ ?_ ?_ ?_ ?_ ?_ ?_ ?_ ?_ s
  · exact fun kind access => primitive access kind
  · exact fun elems parts access => tuple access elems parts
  · exact fun elem part access => list access elem part
  · exact fun key value part access => dict access key value part
  · exact fun head access => hole access head
  · exact fun access => void access
  · exact fun access shape whole => whole access
  · exact fun elem h => absurd h List.not_mem_nil
  · intro elem rest first others other h
    rcases List.mem_cons.1 h with rfl | h
    · exact first
    · exact others other h

/-! ## Resolved signatures -/

theorem firstHoleFrom?_eq_none_iff {i : Nat} {elems : List Signature} :
    firstHoleFrom? i elems = none ↔ ∀ elem ∈ elems, elem.firstHole? = none := by
  induction elems generalizing i with
  | nil => simp [firstHoleFrom?]
  | cons elem rest ih =>
    rw [firstHoleFrom?, List.forall_mem_cons, ← @ih (i + 1)]
    cases elem.firstHole? with
    | none => simp
    | some p => simp

theorem firstHole?_tuple_iff {access : Access} {elems : List Signature} :
    firstHole? ⟨access, .tuple elems⟩ = none ↔ ∀ elem ∈ elems, elem.firstHole? = none := by
  rw [firstHole?, Shape.firstHole?]
  exact firstHoleFrom?_eq_none_iff

theorem firstHole?_list_iff {access : Access} {elem : Signature} :
    firstHole? ⟨access, .list elem⟩ = none ↔ elem.firstHole? = none := by
  rw [firstHole?, Shape.firstHole?]
  exact Option.map_eq_none_iff

theorem firstHole?_dict_iff {access : Access} {key : KeyKind} {value : Signature} :
    firstHole? ⟨access, .dict key value⟩ = none ↔ value.firstHole? = none := by
  rw [firstHole?, Shape.firstHole?]
  exact Option.map_eq_none_iff

theorem firstHole?_hole (access : Access) (head : Option Container) : firstHole? ⟨access, .hole head⟩ = some [] := by
  rw [firstHole?, Shape.firstHole?]

/-! ## Signatures with holes -/

/-- the signature is a hole, or some part of it has one -/
inductive HasHole : Signature → Prop
  | here (access : Access) (head : Option Container) : HasHole ⟨access, .hole head⟩
  | tuple {access : Access} {elems : List Signature} {elem : Signature} (mem : elem ∈ elems) (part : HasHole elem) :
      HasHole ⟨access, .tuple elems⟩
  | list {access : Access} {elem : Signature} (part : HasHole elem) : HasHole ⟨access, .list elem⟩
  | dict {access : Access} {key : KeyKind} {value : Signature} (part : HasHole value) :
      HasHole ⟨access, .dict key value⟩

theorem HasHole.firstHole?_ne_none {s : Signature} (h : s.HasHole) : s.firstHole? ≠ none := by
  induction h with
  | here access head => rw [firstHole?_hole]; nofun
  | tuple mem _ ih => exact fun resolved => ih (firstHole?_tuple_iff.1 resolved _ mem)
  | list _ ih => exact fun resolved => ih (firstHole?_list_iff.1 resolved)
  | dict _ ih => exact fun resolved => ih (firstHole?_dict_iff.1 resolved)

theorem hasHole_of_firstHole?_ne_none {s : Signature} (h : s.firstHole? ≠ none) : s.HasHole := by
  induction s using Signature.induction with
  | primitive access kind => exact absurd rfl h
  | tuple access elems parts =>
    rw [ne_eq, firstHole?_tuple_iff] at h
    push Not at h
    obtain ⟨elem, mem, found⟩ := h
    exact .tuple mem (parts elem mem found)
  | list access elem part => exact .list (part fun resolved => h (firstHole?_list_iff.2 resolved))
  | dict access key value part => exact .dict (part fun resolved => h (firstHole?_dict_iff.2 resolved))
  | hole access head => exact .here access head
  | void access => exact absurd rfl h

theorem hasHole_iff {s : Signature} : s.HasHole ↔ ∃ p, s.firstHole? = some p := by
  rw [← Option.ne_none_iff_exists']
  exact ⟨HasHole.firstHole?_ne_none, hasHole_of_firstHole?_ne_none⟩

end NativeBridge.Signature
