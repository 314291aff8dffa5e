/-
Maps in the order of their keys, for every strict and total order.

- `ascending_putAll`: entries that are put one after the other are listed in order, each key once.
- `Ascending.eq_of_perm`: the entries of a map decide their order.
- `putAll_perm`: from entries with different keys nothing is lost and nothing is added.
- `putAll_of_ascending`, `putAll_eq_of_perm`: entries that are in order already are the map; from entries with different keys, the
  order in which they are put says nothing.
- `map_put`: where keys keep their order, they are put at the same places.
-/
import Mathlib.Tactic
import NativeBridge.Ordered

namespace NativeBridge.Ordered

variable {K L α β : Type} {before : K → K → Bool} {key : K} {value : α} {entry : K × α} {entries others more : List (K × α)}

/-- entries in the order of their keys, each key once -/
def Ascending (before : K → K → Bool) (entries : List (K × α)) : Prop := entries.Pairwise fun a b => before a.1 b.1 = true

/-! ## Members -/

theorem mem_of_mem_put (mem : entry ∈ put before key value entries) : entry = (key, value) ∨ entry ∈ entries := by
  induction entries with
  | nil => exact .inl (List.mem_singleton.1 mem)
  | cons first rest ih =>
    rw [put] at mem
    split_ifs at mem
    · exact List.mem_cons.1 mem
    · rcases List.mem_cons.1 mem with rfl | mem
      · exact .inr List.mem_cons_self
      · exact (ih mem).imp_right (List.mem_cons_of_mem first)
    · exact (List.mem_cons.1 mem).imp_right (List.mem_cons_of_mem first)

theorem mem_of_mem_putAll (mem : entry ∈ putAll before entries more) : entry ∈ entries ∨ entry ∈ more := by
  induction more generalizing entries with
  | nil => exact .inl mem
  | cons first more ih =>
    rcases ih mem with mem | mem
    · rcases mem_of_mem_put mem with rfl | mem
      · exact .inr List.mem_cons_self
      · exact .inl mem
    · exact .inr (List.mem_cons_of_mem first mem)

/-! ## Keys that keep their order -/

/-- Where keys keep their order, entries are put at the same places. -/
theorem map_put {before' : L → L → Bool} {f : K → L} {g : α → β}
    (same : ∀ entry ∈ entries, before' (f key) (f entry.1) = before key entry.1 ∧
      before' (f entry.1) (f key) = before entry.1 key) :
    (put before key value entries).map (Prod.map f g) = put before' (f key) (g value) (entries.map (Prod.map f g)) := by
  induction entries with
  | nil => rfl
  | cons first rest ih =>
    obtain ⟨⟨here, there⟩, others⟩ := List.forall_mem_cons.1 same
    rw [List.map_cons, put, put, Prod.map_fst, here, there]
    split_ifs
    · rfl
    · rw [List.map_cons, ih others]
    · rfl

/-- related values are put at the same places -/
theorem put_pairs {R : α → β → Prop} {value' : β} {others : List (K × β)} (new : R value value')
    (h : List.Forall₂ (fun a b => a.1 = b.1 ∧ R a.2 b.2) entries others) :
    List.Forall₂ (fun a b => a.1 = b.1 ∧ R a.2 b.2) (put before key value entries) (put before key value' others) := by
  induction h with
  | nil => exact .cons ⟨rfl, new⟩ .nil
  | cons first rest ih =>
    rw [put, put, first.1]
    split_ifs
    · exact .cons ⟨rfl, new⟩ (.cons first rest)
    · exact .cons first ih
    · exact .cons ⟨rfl, new⟩ rest

/-! ## Maps are in order -/

section Order

variable [IsStrictTotalOrder K (before · · = true)] {a b c : K}

theorem before_trans (first : before a b = true) (second : before b c = true) : before a c = true :=
  trans_of (before · · = true) first second

theorem not_before_of_before (h : before a b = true) : ¬ before b a = true := asymm_of (before · · = true) h

theorem ne_of_before (h : before a b = true) : a ≠ b := ne_of_irrefl (r := (before · · = true)) h

theorem eq_of_not_before (first : ¬ before a b = true) (second : ¬ before b a = true) : a = b :=
  Std.Trichotomous.trichotomous (r := (before · · = true)) a b first second

theorem Ascending.nodup (h : Ascending before entries) : (entries.map Prod.fst).Nodup := List.pairwise_map.2 (h.imp ne_of_before)

/-- what comes before an entry stands in front of it -/
theorem Ascending.mem_of_before {front rest : List (K × α)} {other : K × α} (h : Ascending before (front ++ entry :: rest))
    (mem : other ∈ front ++ entry :: rest) (first : before other.1 entry.1 = true) : other ∈ front := by
  obtain ⟨-, sorted, -⟩ := List.pairwise_append.1 h
  rcases List.mem_append.1 mem with mem | mem
  · exact mem
  · rcases List.mem_cons.1 mem with rfl | mem
    · exact absurd rfl (ne_of_before first)
    · exact absurd first (not_before_of_before ((List.pairwise_cons.1 sorted).1 other mem))

theorem ascending_put (key : K) (value : α) (h : Ascending before entries) : Ascending before (put before key value entries) := by
  induction entries with
  | nil => exact List.pairwise_singleton _ _
  | cons first rest ih =>
    obtain ⟨least, sorted⟩ := List.pairwise_cons.1 h
    rw [put]
    split_ifs with here there
    · refine List.pairwise_cons.2 ⟨fun entry mem => ?_, h⟩
      rcases List.mem_cons.1 mem with rfl | mem
      · exact here
      · exact before_trans here (least entry mem)
    · refine List.pairwise_cons.2 ⟨fun entry mem => ?_, ih sorted⟩
      rcases mem_of_mem_put mem with rfl | mem
      · exact there
      · exact least entry mem
    · obtain rfl := eq_of_not_before here there
      exact List.pairwise_cons.2 ⟨least, sorted⟩

theorem ascending_putAll (more : List (K × α)) (h : Ascending before entries) :
    Ascending before (putAll before entries more) := by
  induction more generalizing entries with
  | nil => exact h
  | cons entry more ih => exact ih (ascending_put entry.1 entry.2 h)

/-- The entries of a map decide their order. -/
theorem Ascending.eq_of_perm (perm : entries.Perm others) (h : Ascending before entries) (h' : Ascending before others) :
    entries = others := by
  refine perm.eq_of_pairwise ?_ h h'
  intro a b _ _ first second
  exact absurd second (not_before_of_before first)

/-! ## Entries with different keys -/

theorem put_perm (fresh : key ∉ entries.map Prod.fst) : (put before key value entries).Perm ((key, value) :: entries) := by
  induction entries with
  | nil => exact .refl _
  | cons first rest ih =>
    rw [List.map_cons, List.mem_cons, not_or] at fresh
    rw [put]
    split_ifs with here there
    · exact .refl _
    · exact ((ih fresh.2).cons first).trans (.swap _ _ _)
    · exact absurd (eq_of_not_before here there) fresh.1

/-- From entries with different keys nothing is lost. -/
theorem putAll_perm (nodup : ((entries ++ more).map Prod.fst).Nodup) : (putAll before entries more).Perm (entries ++ more) := by
  induction more generalizing entries with
  | nil => rw [List.append_nil]; rfl
  | cons entry more ih =>
    have fresh : entry.1 ∉ entries.map Prod.fst := by
      rw [List.map_append, List.map_cons, List.nodup_append'] at nodup
      exact fun mem => nodup.2.2 mem List.mem_cons_self
    have moved : (put before entry.1 entry.2 entries ++ more).Perm (entries ++ entry :: more) :=
      ((put_perm fresh).append_right more).trans List.perm_middle.symm
    exact (ih ((moved.map Prod.fst).nodup_iff.2 nodup)).trans moved

theorem putAll_nil_perm (nodup : (entries.map Prod.fst).Nodup) : (putAll before [] entries).Perm entries := putAll_perm nodup

/-- Entries that are in order already are the map. -/
theorem putAll_of_ascending (h : Ascending before entries) : putAll before [] entries = entries :=
  (ascending_putAll entries .nil).eq_of_perm (putAll_nil_perm h.nodup) h

/-- From entries with different keys, the order in which they are put says nothing. -/
theorem putAll_eq_of_perm (nodup : (entries.map Prod.fst).Nodup) (perm : entries.Perm others) :
    putAll before [] entries = putAll before [] others := by
  have nodup' : (others.map Prod.fst).Nodup := (perm.map Prod.fst).nodup_iff.1 nodup
  exact (ascending_putAll entries .nil).eq_of_perm ((putAll_nil_perm nodup).trans (perm.trans (putAll_nil_perm nodup').symm))
    (ascending_putAll others .nil)

end Order

end NativeBridge.Ordered
