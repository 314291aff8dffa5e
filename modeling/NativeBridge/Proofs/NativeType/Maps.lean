/-
Native maps, and the entries of wire dictionaries they are made of.

- `eq_of_get?`: a map is known by what stands under its keys.
- `rel_putAll`: entries put into a map and into a wire dictionary at the same time stand under the same keys.
- `mem_mapOf_iff`: the entries of a map are those after which their key does not come again.
-/
import NativeBridge.NativeType
import NativeBridge.Proofs.Dictionary
import NativeBridge.Proofs.Ordered

namespace NativeBridge

/-! ## The order of native keys -/

namespace KeyKind

variable {kind : KeyKind} {a b c : kind.Value}

theorem toKey_injective : Function.Injective kind.toKey := by
  intro a b same
  cases kind with
  | int w =>
    cases same
    rfl
  | bool => exact WireKey.bool.inj same
  | text => exact WireKey.text.inj same

theorem kind_toKey (a : kind.Value) : (kind.toKey a).kind = kind := by
  cases kind <;> rfl

theorem ofKey?_toKey (a : kind.Value) : kind.ofKey? (kind.toKey a) = some a := by
  cases kind with
  | int w => exact dif_pos rfl
  | bool => rfl
  | text => rfl

theorem ofKey?_eq_some_iff {key : WireKey} : kind.ofKey? key = some a ↔ kind.toKey a = key := by
  constructor
  · intro read
    unfold ofKey? at read
    split at read
    · split_ifs at read with same
      subst same
      cases read
      rfl
    · cases read
      rfl
    · cases read
      rfl
    · cases read
  · rintro rfl
    exact ofKey?_toKey a

theorem before_irrefl (a : kind.Value) : kind.before a a = false := by
  cases kind with
  | int w => simp [before, toKey, WireKey.before]
  | bool => simp [before, toKey, WireKey.before]
  | text => exact decide_eq_false (String.lt_irrefl a)

theorem before_trans (hab : kind.before a b = true) (hbc : kind.before b c = true) : kind.before a c = true := by
  cases kind <;> simp only [before, toKey, WireKey.before, decide_eq_true_eq, Bool.and_eq_true, Bool.not_eq_true'] at hab hbc ⊢
  · omega
  · exact ⟨hab.1, hbc.2⟩
  · exact String.lt_trans hab hbc

/-- of two different keys of a kind one comes before the other -/
theorem eq_of_not_before (first : kind.before a b = false) (second : kind.before b a = false) : a = b := by
  cases kind with
  | int w =>
    simp only [before, toKey, WireKey.before, decide_eq_false_iff_not] at first second
    exact BoundedInt.ext (by omega)
  | bool => cases a <;> cases b <;> simp_all [before, toKey, WireKey.before]
  | text =>
    simp only [before, toKey, WireKey.before, decide_eq_false_iff_not] at first second
    exact String.le_antisymm (String.not_lt.1 second) (String.not_lt.1 first)

instance (kind : KeyKind) : IsStrictTotalOrder kind.Value (kind.before · · = true) where
  irrefl a := Bool.eq_false_iff.1 (before_irrefl a)
  trans _ _ _ := before_trans
  trichotomous _ _ first second := eq_of_not_before (Bool.eq_false_iff.2 first) (Bool.eq_false_iff.2 second)

end KeyKind

namespace NativeType

variable {kind : KeyKind} {α β : Type}

/-- entries in the order of their keys, each key once -/
abbrev Ascending (entries : List (kind.Value × α)) : Prop := Ordered.Ascending kind.before entries

/-- the map with these entries, of equal keys the last -/
abbrev mapOf (entries : List (kind.Value × α)) : List (kind.Value × α) := Ordered.putAll kind.before [] entries

/-- the entries under their keys on the wire -/
def keyed (entries : List (kind.Value × α)) : List (WireKey × α) :=
  entries.map fun entry => (kind.toKey entry.1, entry.2)

theorem mapOf_append_singleton (entries : List (kind.Value × α)) (entry : kind.Value × α) :
    mapOf (entries ++ [entry]) = putEntry entry.1 entry.2 (mapOf entries) :=
  List.foldl_append

theorem ascending_mapOf (entries : List (kind.Value × α)) : Ascending (mapOf entries) := Ordered.ascending_putAll entries .nil

theorem nodup_keyed {entries : List (kind.Value × α)} (h : Ascending entries) : ((keyed entries).map Prod.fst).Nodup := by
  have keys : (keyed entries).map Prod.fst = (entries.map Prod.fst).map kind.toKey := by simp [keyed]
  rw [keys]
  exact h.nodup.map KeyKind.toKey_injective

/-! ## What stands under a key -/

theorem mem_keyed_iff {key : kind.Value} {value : α} {entries : List (kind.Value × α)} :
    (kind.toKey key, value) ∈ keyed entries ↔ (key, value) ∈ entries := by
  rw [keyed, List.mem_map]
  constructor
  · rintro ⟨⟨other, item⟩, mem, same⟩
    obtain ⟨keys, rfl⟩ := Prod.mk.inj same
    obtain rfl := KeyKind.toKey_injective keys
    exact mem
  · intro mem
    exact ⟨_, mem, rfl⟩

theorem get?_keyed_cons (k : WireKey) (entry : kind.Value × α) (rest : List (kind.Value × α)) :
    Entries.get? k (keyed (entry :: rest)) =
      if kind.toKey entry.1 = k then some entry.2 else Entries.get? k (keyed rest) := rfl

theorem get?_keyed_putEntry (key : kind.Value) (k : WireKey) (value : α) (entries : List (kind.Value × α)) :
    Entries.get? k (keyed (putEntry key value entries)) =
      if kind.toKey key = k then some value else Entries.get? k (keyed entries) := by
  induction entries with
  | nil => rfl
  | cons first rest ih =>
    by_cases here : kind.before key first.1 = true
    · rw [putEntry, Ordered.put, if_pos here, get?_keyed_cons]
    by_cases there : kind.before first.1 key = true
    · rw [putEntry, Ordered.put, if_neg here, if_pos there, get?_keyed_cons, get?_keyed_cons, ih]
      split_ifs with old new
      · exact absurd (KeyKind.toKey_injective (old.trans new.symm)) (Ordered.ne_of_before there)
      · rfl
      · rfl
      · rfl
    · obtain rfl := Ordered.eq_of_not_before here there
      rw [putEntry, Ordered.put, if_neg here, if_neg there, get?_keyed_cons, get?_keyed_cons]
      split_ifs <;> rfl

theorem get?_keyed_eq_some_iff {key : kind.Value} {value : α} {entries : List (kind.Value × α)} (h : Ascending entries) :
    Entries.get? (kind.toKey key) (keyed entries) = some value ↔ (key, value) ∈ entries := by
  rw [Entries.get?_eq_some_iff (nodup_keyed h), mem_keyed_iff]

/-- A map is known by what stands under its keys. -/
theorem eq_of_get? {entries others : List (kind.Value × α)} (sorted : Ascending entries) (sorted' : Ascending others)
    (same : ∀ k, Entries.get? k (keyed entries) = Entries.get? k (keyed others)) : entries = others := by
  have perm : entries.Perm others := by
    apply (List.perm_ext_iff_of_nodup (List.Nodup.of_map _ sorted.nodup) (List.Nodup.of_map _ sorted'.nodup)).2
    rintro ⟨key, value⟩
    rw [← get?_keyed_eq_some_iff sorted, ← get?_keyed_eq_some_iff sorted', same]
  exact sorted.eq_of_perm perm sorted'

/-- Entries put into a map and into a wire dictionary at the same time stand under the same keys. -/
theorem rel_putAll {R : α → β → Prop} {entries more : List (kind.Value × α)} {built wires : List (WireKey × β)}
    (before : ∀ k, Option.Rel R (Entries.get? k (keyed entries)) (Entries.get? k built))
    (put : List.Forall₂ (fun entry wire => kind.toKey entry.1 = wire.1 ∧ R entry.2 wire.2) more wires) :
    ∀ k, Option.Rel R (Entries.get? k (keyed (Ordered.putAll kind.before entries more)))
      (Entries.get? k (Entries.putAll built wires)) := by
  induction put generalizing entries built with
  | nil => exact before
  | @cons entry wire more wires first _ ih =>
    apply ih
    intro k
    rw [get?_keyed_putEntry, Entries.get?_put, first.1]
    split_ifs
    · exact .some first.2
    · exact before k

theorem rel_mapOf {R : α → β → Prop} {entries : List (kind.Value × α)} {wires : List (WireKey × β)}
    (put : List.Forall₂ (fun entry wire => kind.toKey entry.1 = wire.1 ∧ R entry.2 wire.2) entries wires) :
    ∀ k, Option.Rel R (Entries.get? k (keyed (mapOf entries))) (Entries.get? k (Entries.putAll [] wires)) :=
  rel_putAll (fun _ => .none) put

/-- Of the entries a map is made of, those stay after which their key does not come again. -/
theorem mem_mapOf_iff {key : kind.Value} {value : α} {entries : List (kind.Value × α)} :
    (key, value) ∈ mapOf entries ↔
      ∃ before after, entries = before ++ (key, value) :: after ∧ key ∉ after.map Prod.fst := by
  induction entries using List.reverseRecOn with
  | nil => simp [mapOf, Ordered.putAll]
  | append_singleton entries last ih =>
    rw [← get?_keyed_eq_some_iff (ascending_mapOf _), mapOf_append_singleton, get?_keyed_putEntry]
    constructor
    · intro found
      split_ifs at found with same
      · obtain rfl := Option.some.inj found
        exact ⟨entries, [], by rw [← KeyKind.toKey_injective same], List.not_mem_nil⟩
      · rw [get?_keyed_eq_some_iff (ascending_mapOf _), ih] at found
        obtain ⟨before, after, rfl, fresh⟩ := found
        refine ⟨before, after ++ [last], by simp, ?_⟩
        rw [List.map_append, List.mem_append, not_or]
        exact ⟨fresh, fun mem => same (congrArg kind.toKey (List.mem_singleton.1 mem).symm)⟩
    · rintro ⟨before, after, split, fresh⟩
      rcases List.eq_nil_or_concat after with rfl | ⟨after, other, rfl⟩
      · obtain ⟨-, same⟩ := List.append_inj' split rfl
        obtain rfl := List.singleton_inj.1 same
        exact if_pos rfl
      · rw [List.concat_eq_append] at split fresh
        rw [← List.cons_append, ← List.append_assoc] at split
        obtain ⟨rfl, same⟩ := List.append_inj' split rfl
        obtain rfl := List.singleton_inj.1 same
        rw [List.map_append, List.mem_append, not_or] at fresh
        have different : kind.toKey last.1 ≠ kind.toKey key := by
          intro keys
          exact fresh.2 (List.mem_singleton.2 (KeyKind.toKey_injective keys).symm)
        rw [if_neg different, get?_keyed_eq_some_iff (ascending_mapOf _), ih]
        exact ⟨before, after, rfl, fresh.1⟩

end NativeType

end NativeBridge
