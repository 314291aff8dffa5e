/-
Entries of dictionaries on the wire, which are listed in any order.

- `Entries.nodup_putAll`: entries that are put one after the other never share a key.
- `Entries.get?_putAll`: of the entries that are put under one key the last one stays.
- `Entries.putAll_eq`: putting entries with different keys into a wire dictionary lists them in the order they were put.
- `Entries.get?_eq_some_iff`, `Entries.get?_perm`: among entries with different keys, a value is found exactly under its key,
  wherever it stands.
-/
import Mathlib.Tactic
import NativeBridge.Proofs.Partners
import NativeBridge.Wire.Entries

namespace NativeBridge

namespace Entries

variable {α : Type}

theorem put_eq_append {key : WireKey} {value : α} {entries : List (WireKey × α)} (h : key ∉ entries.map Prod.fst) :
    put key value entries = entries ++ [(key, value)] := by
  induction entries with
  | nil => rfl
  | cons first rest ih =>
    rw [List.map_cons, List.mem_cons, not_or] at h
    rw [put, if_neg (Ne.symm h.1), ih h.2, List.cons_append]

theorem mem_of_mem_put {key : WireKey} {value : α} {entries : List (WireKey × α)} {entry : WireKey × α}
    (mem : entry ∈ put key value entries) : entry = (key, value) ∨ entry ∈ entries := by
  induction entries with
  | nil => exact .inl (List.mem_singleton.1 mem)
  | cons first rest ih =>
    rw [put] at mem
    split_ifs at mem
    · exact (List.mem_cons.1 mem).imp_right (List.mem_cons_of_mem first)
    · rcases List.mem_cons.1 mem with rfl | mem
      · exact .inr List.mem_cons_self
      · exact (ih mem).imp_right (List.mem_cons_of_mem first)

/-- a key that is there already stays where it is -/
theorem map_fst_put {key : WireKey} {value : α} {entries : List (WireKey × α)} (h : key ∈ entries.map Prod.fst) :
    (put key value entries).map Prod.fst = entries.map Prod.fst := by
  induction entries with
  | nil => cases h
  | cons first rest ih =>
    rw [put]
    split_ifs with same
    · exact congrArg (· :: rest.map Prod.fst) same.symm
    · exact congrArg (first.1 :: ·) (ih ((List.mem_cons.1 h).resolve_left (Ne.symm same)))

theorem nodup_put {key : WireKey} {value : α} {entries : List (WireKey × α)} (h : (entries.map Prod.fst).Nodup) :
    ((put key value entries).map Prod.fst).Nodup := by
  by_cases mem : key ∈ entries.map Prod.fst
  · rw [map_fst_put mem]
    exact h
  · rw [put_eq_append mem, List.map_append, List.map_singleton, ← List.concat_eq_append]
    exact h.concat mem

/-- entries with further ones put among them, one after the other -/
def putAll (entries : List (WireKey × α)) (more : List (WireKey × α)) : List (WireKey × α) :=
  more.foldl (fun dict entry => put entry.1 entry.2 dict) entries

theorem putAll_cons (entries : List (WireKey × α)) (entry : WireKey × α) (more : List (WireKey × α)) :
    putAll entries (entry :: more) = putAll (put entry.1 entry.2 entries) more := rfl

theorem mem_of_mem_putAll {entries more : List (WireKey × α)} {entry : WireKey × α} (mem : entry ∈ putAll entries more) :
    entry ∈ entries ∨ entry ∈ more := by
  induction more generalizing entries with
  | nil => exact .inl mem
  | cons first more ih =>
    rcases ih mem with mem | mem
    · rcases mem_of_mem_put mem with rfl | mem
      · exact .inr List.mem_cons_self
      · exact .inl mem
    · exact .inr (List.mem_cons_of_mem first mem)

theorem nodup_putAll {entries : List (WireKey × α)} (more : List (WireKey × α)) (h : (entries.map Prod.fst).Nodup) :
    ((putAll entries more).map Prod.fst).Nodup := by
  induction more generalizing entries with
  | nil => exact h
  | cons entry more ih => exact ih (nodup_put h)

theorem get?_append (key : WireKey) (front rest : List (WireKey × α)) :
    get? key (front ++ rest) = (get? key front).or (get? key rest) := by
  induction front with
  | nil => rfl
  | cons entry front ih =>
    rw [List.cons_append, get?, get?, ih]
    split_ifs <;> rfl

/-- under each key stands the last value that was put there -/
theorem get?_putAll (key : WireKey) (entries more : List (WireKey × α)) :
    get? key (putAll entries more) = (get? key more.reverse).or (get? key entries) := by
  induction more generalizing entries with
  | nil => rfl
  | cons entry more ih =>
    rw [putAll_cons, ih, get?_put, List.reverse_cons, get?_append, Option.or_assoc]
    congr 1
    rw [get?, get?]
    split_ifs <;> rfl

theorem putAll_eq {entries more : List (WireKey × α)} (h : ((entries ++ more).map Prod.fst).Nodup) :
    putAll entries more = entries ++ more := by
  induction more generalizing entries with
  | nil => simp [putAll]
  | cons entry more ih =>
    have fresh : entry.1 ∉ entries.map Prod.fst := by
      intro mem
      rw [List.map_append, List.nodup_append] at h
      exact h.2.2 entry.1 mem entry.1 (List.mem_map_of_mem List.mem_cons_self) rfl
    rw [putAll_cons, put_eq_append fresh, ih (by simpa using h)]
    simp

theorem mem_of_get? {key : WireKey} {value : α} {entries : List (WireKey × α)} (h : get? key entries = some value) :
    (key, value) ∈ entries := by
  induction entries with
  | nil => cases h
  | cons first rest ih =>
    rw [get?] at h
    split_ifs at h with same
    · cases h
      exact List.mem_cons.2 (.inl (Prod.ext same.symm rfl))
    · exact List.mem_cons_of_mem first (ih h)

theorem get?_eq_none {key : WireKey} {entries : List (WireKey × α)} (h : key ∉ entries.map Prod.fst) :
    get? key entries = none := by
  rw [Option.eq_none_iff_forall_ne_some]
  exact fun value found => h (List.mem_map_of_mem (mem_of_get? found))

theorem get?_eq_some_iff {key : WireKey} {value : α} {entries : List (WireKey × α)}
    (h : (entries.map Prod.fst).Nodup) : get? key entries = some value ↔ (key, value) ∈ entries := by
  refine ⟨mem_of_get?, ?_⟩
  intro mem
  induction entries with
  | nil => cases mem
  | cons first rest ih =>
    rw [List.map_cons, List.nodup_cons] at h
    rcases List.mem_cons.1 mem with rfl | mem
    · rw [get?, if_pos rfl]
    · have other : first.1 ≠ key := by
        intro same
        exact h.1 (List.mem_map.2 ⟨(key, value), mem, same.symm⟩)
      rw [get?, if_neg other]
      exact ih h.2 mem

/-- among entries with different keys, the order says nothing -/
theorem get?_perm {entries others : List (WireKey × α)} (nodup : (entries.map Prod.fst).Nodup)
    (perm : entries.Perm others) (key : WireKey) : get? key entries = get? key others := by
  have nodup' : (others.map Prod.fst).Nodup := (perm.map Prod.fst).nodup_iff.1 nodup
  apply Option.ext
  intro value
  rw [get?_eq_some_iff nodup, get?_eq_some_iff nodup', perm.mem_iff]

/-- lists of entries that are related one by one are related under each key -/
theorem rel_get? {β : Type} {R : α → β → Prop} {entries : List (WireKey × α)} {others : List (WireKey × β)}
    (h : List.Forall₂ (fun a b => a.1 = b.1 ∧ R a.2 b.2) entries others) (key : WireKey) :
    Option.Rel R (get? key entries) (get? key others) := by
  induction h with
  | nil => exact .none
  | @cons entry other rest rest' first _ ih =>
    rw [get?, get?, first.1]
    split_ifs
    · exact .some first.2
    · exact ih

/-- entries that are related under each key have partners -/
theorem exists_of_rel_get? {β : Type} {R : α → β → Prop} {entries : List (WireKey × α)} {others : List (WireKey × β)}
    (nodup : (others.map Prod.fst).Nodup) (h : ∀ key, Option.Rel R (get? key entries) (get? key others)) :
    ∀ other ∈ others, ∃ a, (other.1, a) ∈ entries ∧ R a other.2 := by
  intro other mem
  have here := h other.1
  rw [(get?_eq_some_iff nodup).2 mem] at here
  generalize found : get? other.1 entries = side at here
  cases here with
  | some related => exact ⟨_, mem_of_get? found, related⟩

end Entries

end NativeBridge
