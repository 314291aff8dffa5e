/-
Lists of partners: two lists of one length whose elements belong together, one by one.

- `exists_forall₂_iff`: a list has partners when each of its elements has one.
- `forall_mem_of_forall₂`, `mem_left_of_forall₂`: what holds of every partner, and whose partner an element is.
- `exists_forall₂_back`: steps back from every partner are one step back from the list.
- `nodup_keys_of_forall₂`: keys that correspond one to one are different on both sides.
-/
import Mathlib.Tactic

namespace NativeBridge

variable {α β γ : Type} {R : α → β → Prop}

theorem exists_forall₂_iff {as : List α} : (∃ bs, List.Forall₂ R as bs) ↔ ∀ a ∈ as, ∃ b, R a b := by
  induction as with
  | nil => simp
  | cons a as ih =>
    rw [List.forall_mem_cons, ← ih]
    constructor
    · intro h
      rcases h with ⟨_, first | ⟨first, others⟩⟩
      exact ⟨⟨_, first⟩, ⟨_, others⟩⟩
    · intro h
      rcases h with ⟨⟨b, first⟩, ⟨bs, others⟩⟩
      exact ⟨b :: bs, .cons first others⟩

theorem forall_mem_of_forall₂ {P : β → Prop} {as : List α} {bs : List β} (h : List.Forall₂ R as bs)
    (step : ∀ a ∈ as, ∀ b, R a b → P b) : ∀ b ∈ bs, P b := by
  induction h with
  | nil => simp
  | @cons a b as bs first _ ih =>
    rw [List.forall_mem_cons]
    exact ⟨step a List.mem_cons_self b first, ih fun a mem => step a (List.mem_cons_of_mem _ mem)⟩

/-- a step back for every pair of partners makes a whole list of such steps -/
theorem exists_forall₂_back {S : β → γ → Prop} {T : γ → α → Prop} {as : List α} {bs : List β}
    (h : List.Forall₂ R as bs) (step : ∀ a ∈ as, ∀ b, R a b → ∃ c, S b c ∧ T c a) :
    ∃ cs, List.Forall₂ S bs cs ∧ List.Forall₂ T cs as := by
  induction h with
  | nil => exact ⟨[], .nil, .nil⟩
  | @cons a b as bs first _ ih =>
    obtain ⟨c, hs, ht⟩ := step a List.mem_cons_self b first
    obtain ⟨cs, others, others'⟩ := ih fun a mem => step a (List.mem_cons_of_mem _ mem)
    exact ⟨c :: cs, .cons hs others, .cons ht others'⟩

/-- every partner is the partner of an element -/
theorem mem_left_of_forall₂ {as : List α} {bs : List β} (h : List.Forall₂ R as bs) : ∀ b ∈ bs, ∃ a ∈ as, R a b :=
  forall_mem_of_forall₂ h fun a mem _ part => ⟨a, mem, part⟩

/-- entries whose keys correspond one to one have different keys on one side if they have on the other -/
theorem nodup_keys_of_forall₂ {K L α β : Type} {R : K → L → Prop} (unique : Relator.BiUnique R) {entries : List (K × α)}
    {others : List (L × β)} (h : List.Forall₂ (fun a b => R a.1 b.1) entries others)
    (nodup : (entries.map Prod.fst).Nodup) : (others.map Prod.fst).Nodup := by
  have keys : List.Forall₂ R (entries.map Prod.fst) (others.map Prod.fst) := by
    rw [List.forall₂_map_left_iff, List.forall₂_map_right_iff]
    exact h
  exact (List.rel_nodup unique keys).1 nodup

end NativeBridge
