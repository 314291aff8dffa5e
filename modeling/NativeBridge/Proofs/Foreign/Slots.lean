/-
The slots of a session.

- `held?_clear`, `held?_set`, `held?_take`: what happens to one slot does not disturb the others.
- `size_set`, `size_clear`: what is put into a slot or taken out of it is all that changes the objects behind the slots.
-/
import Mathlib.Tactic
import NativeBridge.Foreign.Session

namespace NativeBridge.Foreign

/-- the objects behind a slot that may be empty -/
def Held.sizeOfOption : Option Held → Nat
  | none => 0
  | some held => held.size

namespace Session

/-! ## One slot and the others -/

theorem lookup_cons_eq {α : Type} (slot : String × α) (rest : List (String × α)) (name : String) :
    (slot :: rest).lookup name = if name = slot.1 then some slot.2 else rest.lookup name := by
  obtain ⟨key, held⟩ := slot
  rw [List.lookup_cons]
  by_cases same : name = key
  · simp [same]
  · simp [same, beq_eq_false_iff_ne.2 same]

theorem lookup_filter_ne {α : Type} (slots : List (String × α)) (name other : String) :
    (slots.filter fun slot => slot.1 != name).lookup other = if other = name then none else slots.lookup other := by
  induction slots with
  | nil => simp
  | cons slot rest ih =>
    by_cases here : slot.1 = name
    · rw [List.filter_cons_of_neg (by simp [here]), ih, lookup_cons_eq, here]
      split_ifs <;> rfl
    · rw [List.filter_cons_of_pos (by simp [here]), lookup_cons_eq, lookup_cons_eq, ih]
      by_cases same : other = slot.1
      · rw [if_pos same, if_pos same, if_neg (same ▸ here)]
      · rw [if_neg same, if_neg same]

theorem held?_clear (s : Session) (name : String) (other : SlotName) :
    (s.clear name).held? other = if other = some name then none else s.held? other := by
  cases other with
  | none => rfl
  | some other =>
    simp only [held?, clear, lookup_filter_ne, Option.some.injEq]

theorem held?_set (s : Session) (name : String) (held : Held) (other : SlotName) :
    (s.set name held).held? other = if other = some name then some held else s.held? other := by
  cases other with
  | none => rfl
  | some other =>
    simp only [held?, set, clear, lookup_cons_eq, lookup_filter_ne, Option.some.injEq]
    split_ifs <;> rfl

theorem value?_congr {s t : Session} {name : SlotName} (h : s.held? name = t.held? name) :
    s.value? name = t.value? name := by
  rw [value?, value?, h]

theorem value?_eq_some_iff {s : Session} {name : SlotName} {v : WireValue} :
    s.value? name = some v ↔ s.held? name = some (.value v) := by
  unfold value?
  split
  · next held => simp [held]
  · next other =>
    simp only [reduceCtorEq, false_iff]
    exact other v

/-! ## Taking a value out of its slot -/

/-- a slot that holds no value is left alone; a value leaves its slot empty -/
theorem take_cases (s : Session) (name : SlotName) :
    (s.value? name = none ∧ s.take name = (none, s)) ∨
      ∃ slot v, name = some slot ∧ s.held? name = some (.value v) ∧ s.take name = (some v, s.clear slot) := by
  cases found : s.value? name with
  | none =>
    refine .inl ⟨rfl, ?_⟩
    cases name <;> simp [take, found]
  | some v =>
    have held := value?_eq_some_iff.1 found
    cases name with
    | none => cases held
    | some slot => exact .inr ⟨slot, v, rfl, held, by simp [take, found]⟩

theorem take_fst (s : Session) (name : SlotName) : (s.take name).1 = s.value? name := by
  rcases s.take_cases name with ⟨empty, h⟩ | ⟨slot, v, rfl, held, h⟩
  · rw [h, empty]
  · rw [h, value?_eq_some_iff.2 held]

theorem tally_take (s : Session) (name : SlotName) : (s.take name).2.tally = s.tally := by
  rcases s.take_cases name with ⟨-, h⟩ | ⟨slot, v, rfl, -, h⟩
  · rw [h]
  · rw [h]
    rfl

theorem held?_take_of_ne (s : Session) {name other : SlotName} (ne : other ≠ name) :
    (s.take name).2.held? other = s.held? other := by
  rcases s.take_cases name with ⟨-, h⟩ | ⟨slot, v, rfl, -, h⟩
  · rw [h]
  · rw [h, held?_clear, if_neg ne]

theorem value?_take_self (s : Session) (name : SlotName) : (s.take name).2.value? name = none := by
  rcases s.take_cases name with ⟨empty, h⟩ | ⟨slot, v, rfl, -, h⟩
  · rwa [h]
  · rw [h, value?, held?_clear, if_pos rfl]

theorem value?_take (s : Session) (name other : SlotName) :
    (s.take name).2.value? other = if other = name then none else s.value? other := by
  split_ifs with same
  · rw [same, value?_take_self]
  · exact value?_congr (s.held?_take_of_ne same)

/-! ## The objects behind the slots -/

/-- each slot stands in the session once -/
def NamesDiffer (s : Session) : Prop := (s.slots.map Prod.fst).Nodup

theorem NamesDiffer.clear {s : Session} (h : s.NamesDiffer) (name : String) : (s.clear name).NamesDiffer :=
  (List.filter_sublist.map Prod.fst).nodup h

theorem NamesDiffer.set {s : Session} (h : s.NamesDiffer) (name : String) (held : Held) :
    (s.set name held).NamesDiffer := by
  refine List.nodup_cons.2 ⟨?_, h.clear name⟩
  intro mem
  obtain ⟨slot, mem, same⟩ := List.mem_map.1 mem
  exact absurd same (by simpa using List.of_mem_filter mem)

/-- emptying a slot takes away what stood there -/
theorem size_clear {s : Session} (h : s.NamesDiffer) (name : String) :
    (s.clear name).size + Held.sizeOfOption (s.held? (some name)) = s.size := by
  obtain ⟨slots, tally⟩ := s
  simp only [NamesDiffer] at h
  simp only [clear, size, held?]
  induction slots with
  | nil => rfl
  | cons slot rest ih =>
    obtain ⟨fresh, h⟩ := List.nodup_cons.1 h
    by_cases here : slot.1 = name
    · -- no other slot has this name
      have others : rest.filter (fun slot => slot.1 != name) = rest := by
        rw [List.filter_eq_self]
        intro other mem
        have : other.1 ≠ name := fun same => fresh (here ▸ same ▸ List.mem_map_of_mem mem)
        simpa using this
      rw [List.filter_cons_of_neg (by simp [here]), others, lookup_cons_eq, if_pos here.symm, List.foldr_cons,
        Held.sizeOfOption]
      omega
    · rw [List.filter_cons_of_pos (by simp [here]), lookup_cons_eq, if_neg (Ne.symm here), List.foldr_cons,
        List.foldr_cons, ← ih h]
      omega

/-- filling a slot adds what is put there and takes away what stood there -/
theorem size_set {s : Session} (h : s.NamesDiffer) (name : String) (held : Held) :
    (s.set name held).size + Held.sizeOfOption (s.held? (some name)) = s.size + held.size := by
  have cleared := size_clear h name
  have added : (s.set name held).size = held.size + (s.clear name).size := rfl
  omega

end Session

end NativeBridge.Foreign
