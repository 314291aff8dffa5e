/-
Reading undoes writing. The written form of a signature is read as the signature itself, but for the lists that do not tell
their elements: such a list is written as `WireList`, and this is read as a list of words. A void signature below the root is
written like any other, and refused.

- `Signature.expanded`: the signature as its written form is read, and `expanded_eq_self` where this is the same.
- `Signature.reread_of_not_hasVoidBelow`, `Signature.reread_of_hasVoidBelow`: the two outcomes, by induction on the signature.
- `Signature.read_written`: reading after writing, for every signature and for those that were read.
-/
import NativeBridge.Proofs.Reader.Settled
import NativeBridge.Proofs.Reader.Written

namespace NativeBridge

/-! ## Lists of words -/

mutual

/-- the shape with lists of words for the lists that do not tell their elements -/
def Shape.expanded : Shape → Shape
  | .tuple elems => .tuple (Signature.expandedList elems)
  | .list elem => .list elem.expanded
  | .dict key value => .dict key value.expanded
  | .hole (some .list) => .list .word
  | .hole head => .hole head
  | .primitive kind => .primitive kind
  | .void => .void

/-- the signature with lists of words for the lists that do not tell their elements -/
def Signature.expanded : Signature → Signature
  | ⟨access, shape⟩ => ⟨access, shape.expanded⟩

/-- several signatures with lists of words for the lists that do not tell their elements -/
def Signature.expandedList : List Signature → List Signature
  | [] => []
  | elem :: rest => elem.expanded :: Signature.expandedList rest

end

namespace Signature

variable {s : Signature} {elems : List Signature} {fault : Fault}

theorem isVoid_expanded (s : Signature) : s.expanded.isVoid = s.isVoid := by
  obtain ⟨access, shape⟩ := s
  match shape with
  | .primitive _ | .tuple _ | .list _ | .dict .. | .void => rfl
  | .hole none | .hole (some .tuple) | .hole (some .list) | .hole (some .dict) => rfl

theorem expandedList_eq_self (same : ∀ elem ∈ elems, elem.expanded = elem) : expandedList elems = elems := by
  induction elems with
  | nil => rfl
  | cons elem rest ih =>
    obtain ⟨first, others⟩ := List.forall_mem_cons.1 same
    rw [expandedList, first, ih others]

/-- Where every list tells its elements, expansion changes nothing. -/
theorem expanded_eq_self (told : ¬ s.HasBareList) : s.expanded = s := by
  induction s using Signature.induction with
  | primitive access kind => rfl
  | tuple access elems parts =>
    have same : expandedList elems = elems := expandedList_eq_self fun elem mem =>
      parts elem mem fun bare => told (hasBareList_iff.2 (.inr ⟨elem, mem, bare⟩))
    rw [expanded, Shape.expanded, same]
  | list access elem part =>
    have same : elem.expanded = elem :=
      part fun bare => told (hasBareList_iff.2 (.inr ⟨elem, List.mem_singleton_self elem, bare⟩))
    rw [expanded, Shape.expanded, same]
  | dict access key value part =>
    have same : value.expanded = value :=
      part fun bare => told (hasBareList_iff.2 (.inr ⟨value, List.mem_singleton_self value, bare⟩))
    rw [expanded, Shape.expanded, same]
  | hole access head =>
    match head with
    | none | some .tuple | some .dict => rfl
    | some .list => exact absurd (hasBareList_iff.2 (.inl rfl)) told
  | void access => rfl

/-! ## The two outcomes -/

/-- a part that is neither void nor has something void below it -/
theorem reread_asPart_of_solid (solid : ¬ (s.isVoid = true ∨ s.HasVoidBelow))
    (reread : ¬ s.HasVoidBelow → s.reread = .ok s.expanded) : s.reread >>= asPart = .ok s.expanded := by
  have notVoid : s.expanded.isVoid = false := by
    rw [isVoid_expanded]
    exact eq_false_of_ne_true fun void => solid (.inl void)
  rw [reread fun below => solid (.inr below), Reader.ok_bind, asPart, notVoid]
  rfl

theorem rereadParts_of_solid (solid : ∀ elem ∈ elems, elem.reread >>= asPart = .ok elem.expanded) :
    rereadParts elems = .ok (expandedList elems) := by
  induction elems with
  | nil => rfl
  | cons elem rest ih =>
    obtain ⟨first, others⟩ := List.forall_mem_cons.1 solid
    rw [rereadParts, first, Reader.ok_bind, ih others, Reader.ok_bind, expandedList]

theorem reread_of_not_hasVoidBelow (solid : ¬ s.HasVoidBelow) : s.reread = .ok s.expanded := by
  induction s using Signature.induction with
  | primitive access kind => rfl
  | tuple access elems parts =>
    have elemsReread : rereadParts elems = .ok (expandedList elems) := rereadParts_of_solid fun elem mem =>
      reread_asPart_of_solid (fun void => solid (hasVoidBelow_iff.2 ⟨elem, mem, void⟩)) (parts elem mem)
    rw [reread, Shape.reread, elemsReread]
    rfl
  | list access elem part =>
    have elemReread : elem.reread >>= asPart = .ok elem.expanded := reread_asPart_of_solid
      (fun void => solid (hasVoidBelow_iff.2 ⟨elem, List.mem_singleton_self elem, void⟩)) part
    rw [reread, Shape.reread, elemReread]
    rfl
  | dict access key value part =>
    have valueReread : value.reread >>= asPart = .ok value.expanded := reread_asPart_of_solid
      (fun void => solid (hasVoidBelow_iff.2 ⟨value, List.mem_singleton_self value, void⟩)) part
    rw [reread, Shape.reread, valueReread]
    rfl
  | hole access head =>
    match head with
    | none | some .tuple | some .list | some .dict => rfl
  | void access => rfl

/-- a part that is void or has something void below it -/
theorem reread_asPart_of_void (void : s.isVoid = true ∨ s.HasVoidBelow)
    (reread : s.HasVoidBelow → s.reread = .error (.unsupportedType "()")) :
    s.reread >>= asPart = .error (.unsupportedType "()") := by
  by_cases below : s.HasVoidBelow
  · rw [reread below, Reader.error_bind]
  · have isVoid : s.expanded.isVoid = true := by
      rw [isVoid_expanded]
      exact void.resolve_right below
    rw [reread_of_not_hasVoidBelow below, Reader.ok_bind, asPart, isVoid]
    rfl

/-- Of several parts, the first that is void or has something void below it decides. -/
theorem rereadParts_of_void (void : ∃ elem ∈ elems, elem.isVoid = true ∨ elem.HasVoidBelow)
    (parts : ∀ elem ∈ elems, elem.HasVoidBelow → elem.reread = .error (.unsupportedType "()")) :
    rereadParts elems = .error (.unsupportedType "()") := by
  induction elems with
  | nil => exact absurd void (by simp)
  | cons elem rest ih =>
    obtain ⟨first, others⟩ := List.forall_mem_cons.1 parts
    rw [rereadParts]
    by_cases here : elem.isVoid = true ∨ elem.HasVoidBelow
    · rw [reread_asPart_of_void here first, Reader.error_bind]
    · obtain ⟨bad, mem, later⟩ := void
      have mem : bad ∈ rest := (List.mem_cons.1 mem).resolve_left fun same => here (same ▸ later)
      rw [reread_asPart_of_solid here reread_of_not_hasVoidBelow, Reader.ok_bind, ih ⟨bad, mem, later⟩ others,
        Reader.error_bind]

theorem reread_of_hasVoidBelow (void : s.HasVoidBelow) : s.reread = .error (.unsupportedType "()") := by
  induction s using Signature.induction with
  | primitive access kind => exact absurd (hasVoidBelow_iff.1 void) (by simp [parts])
  | tuple access elems parts =>
    have elemsVoid : ∃ elem ∈ elems, elem.isVoid = true ∨ elem.HasVoidBelow := hasVoidBelow_iff.1 void
    rw [reread, Shape.reread, rereadParts_of_void elemsVoid parts]
    rfl
  | list access elem part =>
    have elemVoid : elem.isVoid = true ∨ elem.HasVoidBelow := by simpa [parts] using hasVoidBelow_iff.1 void
    rw [reread, Shape.reread, reread_asPart_of_void elemVoid part]
    rfl
  | dict access key value part =>
    have valueVoid : value.isVoid = true ∨ value.HasVoidBelow := by simpa [parts] using hasVoidBelow_iff.1 void
    rw [reread, Shape.reread, reread_asPart_of_void valueVoid part]
    rfl
  | hole access head => exact absurd (hasVoidBelow_iff.1 void) (by simp [parts])
  | void access => exact absurd (hasVoidBelow_iff.1 void) (by simp [parts])

theorem hasVoidBelow_iff_reread : s.HasVoidBelow ↔ s.reread.isOk = false := by
  by_cases void : s.HasVoidBelow
  · simp [void, reread_of_hasVoidBelow void, Except.isOk, Except.toBool]
  · simp [void, reread_of_not_hasVoidBelow void, Except.isOk, Except.toBool]

instance (s : Signature) : Decidable s.HasVoidBelow :=
  decidable_of_iff (s.reread.isOk = false) hasVoidBelow_iff_reread.symm

/-! ## Reading after writing -/

/-- **Reading undoes writing.** A signature with nothing void below its root is read as it was written, with lists of words
for the lists that do not tell their elements; any other signature is refused for the void part. A signature that was itself
read has neither, and is read back as it is. -/
theorem read_written (s : Signature) :
    (¬ s.HasVoidBelow → read s.written = .ok s.expanded) ∧
      (s.HasVoidBelow → read s.written = .error (.unsupportedType "()")) ∧
      ∀ text : String, read text = .ok s → ¬ s.HasVoidBelow ∧ ¬ s.HasBareList ∧ read s.written = .ok s := by
  rw [read_written_eq_reread]
  refine ⟨reread_of_not_hasVoidBelow, reread_of_hasVoidBelow, fun text reads => ?_⟩
  obtain ⟨noVoid, told⟩ := settled_of_read reads
  refine ⟨noVoid, told, ?_⟩
  rw [reread_of_not_hasVoidBelow noVoid, expanded_eq_self told]

/-- A bare list inside a dictionary comes back as a list of words, and this comes back as it is; a void element of a tuple is
refused. -/
theorem read_written_nested_bare_list :
    read "Dict<u8, &mut WireList>" = .ok (.owned (.dict (.int .u8) ⟨.borrowedMut, .list .word⟩)) ∧
      read "Dict<u8, &mut List<usize>>" = .ok (.owned (.dict (.int .u8) ⟨.borrowedMut, .list .word⟩)) ∧
      read "*const Tuple(f64, &())" = .error (.unsupportedType "()") := by
  have bare := (read_written (.owned (.dict (.int .u8) ⟨.borrowedMut, .hole (some .list)⟩))).1 (by decide)
  have void := (read_written ⟨.rawConst, .tuple [.owned (.primitive .float64), ⟨.borrowed, .void⟩]⟩).2.1 (by decide)
  exact ⟨bare, ((read_written _).2.2 _ bare).2.2, void⟩

end Signature

end NativeBridge
