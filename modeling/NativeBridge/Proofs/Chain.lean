/-
Chains whose elements are numbered in order, as they stand in a tuple that fits its type.

- `drain_perm`: draining yields the elements of the chain.
- `drain_number`: draining such a chain changes nothing.
- `eq_number_iff`: a chain is numbered in order exactly if its indices count up.
- `take?_perm`, `drain_of_take?`: an element that is taken out at the least index is the one that is drained first.
-/
import Mathlib.Tactic
import NativeBridge.Wire.Chain

namespace NativeBridge.Chain

variable {α : Type}

theorem drain_of_ascending {chain : List (Nat × α)} (h : chain.Pairwise fun a b => a.1 ≤ b.1) :
    drain chain = chain := by
  induction chain with
  | nil => rfl
  | cons link rest ih =>
    obtain ⟨least, sorted⟩ := List.pairwise_cons.1 h
    show insertByIndex link (drain rest) = link :: rest
    rw [ih sorted]
    cases rest with
    | nil => rfl
    | cons other rest => rw [insertByIndex, if_pos (least other List.mem_cons_self)]

theorem insertByIndex_perm (link : Nat × α) (chain : List (Nat × α)) :
    (insertByIndex link chain).Perm (link :: chain) := by
  induction chain with
  | nil => exact .refl _
  | cons other rest ih =>
    rw [insertByIndex]
    split_ifs
    · exact .refl _
    · exact (ih.cons other).trans (.swap _ _ _)

/-- draining only changes the order -/
theorem drain_perm (chain : List (Nat × α)) : (drain chain).Perm chain := by
  induction chain with
  | nil => exact .refl _
  | cons link rest ih => exact (insertByIndex_perm link (drain rest)).trans (ih.cons link)

theorem length_number (i : Nat) (elems : List α) : (number i elems).length = elems.length := by
  induction elems generalizing i with
  | nil => rfl
  | cons elem rest ih => simp [number, ih]

theorem map_fst_number (i : Nat) (elems : List α) : (number i elems).map Prod.fst = List.range' i elems.length := by
  induction elems generalizing i with
  | nil => rfl
  | cons elem rest ih => simp [number, ih, List.range'_succ]

theorem map_snd_number (i : Nat) (elems : List α) : (number i elems).map Prod.snd = elems := by
  induction elems generalizing i with
  | nil => rfl
  | cons elem rest ih => simp [number, ih]

theorem drain_number (i : Nat) (elems : List α) : drain (number i elems) = number i elems := by
  apply drain_of_ascending
  have counted : ((number i elems).map Prod.fst).Pairwise (· ≤ ·) := by
    rw [map_fst_number]
    exact List.pairwise_le_range'
  exact List.pairwise_map.1 counted

theorem eq_number_iff {i : Nat} {links : List (Nat × α)} :
    links = number i (links.map Prod.snd) ↔ links.map Prod.fst = List.range' i links.length := by
  constructor
  · intro h
    rw [h, map_fst_number, length_number, List.length_map]
  · intro h
    induction links generalizing i with
    | nil => rfl
    | cons link rest ih =>
      rw [List.map_cons, List.length_cons, List.range'_succ, List.cons.injEq] at h
      rw [List.map_cons, number, ← ih h.2, ← h.1]

/-! ## Taking an element out -/

theorem take?_eq_none_iff_forall {index : Nat} {chain : List (Nat × α)} :
    take? index chain = none ↔ ∀ link ∈ chain, link.1 ≠ index := by
  induction chain with
  | nil => simp [take?]
  | cons link rest ih =>
    rw [take?, List.forall_mem_cons]
    split_ifs with here
    · simp [here]
    · rw [Option.map_eq_none_iff, ih]
      exact (and_iff_right here).symm

/-- taking an element out only removes this one -/
theorem take?_perm {index : Nat} {chain rest : List (Nat × α)} {elem : α} (h : take? index chain = some (elem, rest)) :
    chain.Perm ((index, elem) :: rest) := by
  induction chain generalizing rest with
  | nil => cases h
  | cons link chain ih =>
    rw [take?] at h
    split_ifs at h with here
    · cases h
      subst here
      exact .refl _
    · obtain ⟨⟨taken, others⟩, found, same⟩ := Option.map_eq_some_iff.1 h
      cases same
      exact ((ih found).cons link).trans (.swap _ _ _)

/-- The element that is taken out of a chain at its least index is the one that is drained first. -/
theorem drain_of_take? {index : Nat} {chain rest : List (Nat × α)} {elem : α} (low : ∀ link ∈ chain, index ≤ link.1)
    (h : take? index chain = some (elem, rest)) : drain chain = (index, elem) :: drain rest := by
  induction chain generalizing rest with
  | nil => cases h
  | cons link chain ih =>
    obtain ⟨least, low⟩ := List.forall_mem_cons.1 low
    show insertByIndex link (drain chain) = (index, elem) :: drain rest
    rw [take?] at h
    split_ifs at h with here
    · cases h
      subst here
      cases drained : drain chain with
      | nil => rfl
      | cons other others =>
        have mem : other ∈ chain := (drain_perm chain).mem_iff.1 (drained ▸ List.mem_cons_self)
        rw [insertByIndex, if_pos (low other mem)]
    · obtain ⟨⟨taken, others⟩, found, same⟩ := Option.map_eq_some_iff.1 h
      cases same
      rw [ih low found, insertByIndex, if_neg fun le => here (Nat.le_antisymm le least)]
      rfl

end NativeBridge.Chain
