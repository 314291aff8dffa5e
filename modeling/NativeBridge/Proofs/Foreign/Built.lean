/-
Where dictionaries come from, and what their keys are like.

- `Built`: the dictionaries that host values, native values and foreign code make, one entry after the other.
- `sound_of_built`: no key stands in a dictionary twice, all are of its kind, and only those that native code gives as they are
  can have a zero character.
-/
import NativeBridge.Foreign.Operations
import NativeBridge.Proofs.Codec.Order
import NativeBridge.Proofs.Foreign.Keys
import NativeBridge.Proofs.NativeType.RoundTrip
import NativeBridge.Wire.Dictionary

namespace NativeBridge

open Metered

namespace Foreign

/-- The dictionaries that can be built, where `given` holds of the keys that native code gives as they are: an empty one, one
with an entry that native code or foreign code puts into it, one made of native entries, and one made of a host value. A
dictionary inside another value is made by the same steps. Its entries may be listed in any order. -/
inductive Built (given : WireKey → Prop) : KeyKind → List (WireKey × WireValue) → Prop
  | new (kind : KeyKind) : Built given kind []
  | insert {kind : KeyKind} {key : WireKey} {value : WireValue} {entries made : List (WireKey × WireValue)}
      (before : Built given kind entries) (key_given : given key)
      (inserted : WireValue.insert kind key value entries = .ok made) : Built given kind made
  | fromEntries {kind : KeyKind} {t : NativeType} {entries : List (kind.Value × t.Value)}
      {made : List (WireKey × WireValue)} (keys_given : ∀ entry ∈ entries, given (kind.toKey entry.1))
      (encoded : (NativeType.encodeEntries kind t.toWire [] entries).result = .ok made) : Built given kind made
  | ofHost {kind : KeyKind} {s : Signature} {value : HostValue} {made : List (WireKey × WireValue)}
      (encoded : (s.encodeValue value).result = .ok (.dict kind made)) : Built given kind made
  | insertDict {kind : KeyKind} {key value : Option WireValue} {entries made : List (WireKey × WireValue)}
      (before : Built given kind entries)
      (inserted : (Foreign.insertDict (some (.dict kind entries)) key value).target = some (.dict kind made)) :
      Built given kind made
  | reordered {kind : KeyKind} {entries others : List (WireKey × WireValue)} (before : Built given kind entries)
      (order : entries.Perm others) : Built given kind others

theorem forall_keys_put {P : WireKey → Prop} {key : WireKey} {value : WireValue} {entries : List (WireKey × WireValue)}
    (here : P key) (before : ∀ entry ∈ entries, P entry.1) : ∀ entry ∈ Entries.put key value entries, P entry.1 := by
  intro entry mem
  rcases Entries.mem_of_mem_put mem with rfl | mem
  · exact here
  · exact before entry mem

theorem forall_keys_putAll {P : WireKey → Prop} {entries more : List (WireKey × WireValue)}
    (before : ∀ entry ∈ entries, P entry.1) (there : ∀ entry ∈ more, P entry.1) :
    ∀ entry ∈ Entries.putAll entries more, P entry.1 :=
  fun entry mem => (Entries.mem_of_mem_putAll mem).elim (before entry) (there entry)

/-- only a type of dictionaries makes a dictionary, and one of its own kind -/
theorem exists_entries_of_encodeValue {s : Signature} {value : HostValue} {kind : KeyKind} {made : List (WireKey × WireValue)}
    (encoded : (s.encodeValue value).result = .ok (.dict kind made)) :
    ∃ wires, made = Entries.putAll [] wires ∧ ∀ entry ∈ wires, entry.1.kind = kind ∧ entry.1.Clean := by
  obtain ⟨access, shape⟩ := s
  cases shape with
  | primitive primitive =>
    rw [Signature.result_encodeValue_primitive] at encoded
    cases primitive with
    | int w =>
      obtain ⟨_, _, _, whole⟩ := Signature.encodePrimitive_int_ok_iff.1 encoded
      cases whole
    | float32 => rcases Signature.encodePrimitive_float32_ok_iff.1 encoded with ⟨_, _, whole⟩ | ⟨_, _, whole⟩ <;> cases whole
    | float64 => rcases Signature.encodePrimitive_float64_ok_iff.1 encoded with ⟨_, _, whole⟩ | ⟨_, _, whole⟩ <;> cases whole
    | bool =>
      obtain ⟨_, _, whole⟩ := Signature.encodePrimitive_bool_ok_iff.1 encoded
      cases whole
    | text =>
      obtain ⟨_, _, _, _, whole⟩ := Signature.encodePrimitive_text_ok_iff.1 encoded
      cases whole
  | tuple elems =>
    obtain ⟨_, _, _, _, _, whole⟩ := Signature.encodeValue_tuple_ok_iff.1 encoded
    cases whole
  | list elem =>
    obtain ⟨_, _, _, _, whole⟩ := Signature.encodeValue_list_ok_iff.1 encoded
    cases whole
  | dict key item =>
    obtain ⟨entries, wires, -, parts, whole⟩ := Signature.encodeValue_dict_ok_iff.1 encoded
    cases whole
    refine ⟨wires, rfl, forall_mem_of_forall₂ parts ?_⟩
    rintro entry - wire ⟨made, -⟩
    exact ⟨WireKey.kind_of_toWire made, WireKey.clean_of_toWire made⟩
  | void => exact absurd encoded Signature.encodeValue_void_not_ok
  | hole head => exact absurd encoded Signature.encodeValue_hole_not_ok

/-- the key is of the kind, and nobody but native code has given it as it is unless it is clean -/
def Allowed (given : WireKey → Prop) (kind : KeyKind) (key : WireKey) : Prop := key.kind = kind ∧ (given key ∨ key.Clean)

/-- what all built dictionaries have in common -/
structure Sound (given : WireKey → Prop) (kind : KeyKind) (entries : List (WireKey × WireValue)) : Prop where
  nodup : (entries.map Prod.fst).Nodup
  keys : ∀ entry ∈ entries, Allowed given kind entry.1

variable {given : WireKey → Prop} {kind : KeyKind}

theorem Sound.put {entries : List (WireKey × WireValue)} {key : WireKey} (value : WireValue) (h : Sound given kind entries)
    (allowed : Allowed given kind key) : Sound given kind (Entries.put key value entries) :=
  ⟨Entries.nodup_put h.nodup, forall_keys_put allowed h.keys⟩

theorem sound_putAll {wires : List (WireKey × WireValue)} (allowed : ∀ entry ∈ wires, Allowed given kind entry.1) :
    Sound given kind (Entries.putAll [] wires) :=
  ⟨Entries.nodup_putAll wires List.nodup_nil, forall_keys_putAll (List.forall_mem_nil _) allowed⟩

theorem Sound.insertDict {entries made : List (WireKey × WireValue)} {key value : Option WireValue}
    (h : Sound given kind entries)
    (inserted : (Foreign.insertDict (some (.dict kind entries)) key value).target = some (.dict kind made)) :
    Sound given kind made := by
  unfold Foreign.insertDict at inserted
  split at inserted
  · dsimp only at inserted
    split at inserted
    · next taken =>
      cases inserted
      obtain ⟨same, clean⟩ := WireKey.kind_and_clean_of_ofValue? taken
      exact h.put _ ⟨same, .inr clean⟩
    · cases inserted
      exact h
  · cases inserted
    exact h

/-- **Every dictionary that can be built** has each key once and only keys of its kind, and of these only those can have a zero
character that native code has given. -/
theorem sound_of_built {entries : List (WireKey × WireValue)} (built : Built given kind entries) :
    Sound given kind entries := by
  induction built with
  | new => exact ⟨List.nodup_nil, List.forall_mem_nil _⟩
  | insert _ key_given inserted ih =>
    unfold WireValue.insert at inserted
    split at inserted
    · next same =>
      cases inserted
      exact ih.put _ ⟨same, .inl key_given⟩
    · cases inserted
  | fromEntries keys_given encoded =>
    obtain ⟨wires, parts, rfl⟩ := NativeType.encodeEntries_ok_iff.1 encoded
    refine sound_putAll (forall_mem_of_forall₂ parts ?_)
    rintro entry mem wire ⟨key, -⟩
    exact ⟨key ▸ KeyKind.kind_toKey entry.1, .inl (key ▸ keys_given entry mem)⟩
  | ofHost encoded =>
    obtain ⟨wires, rfl, keys⟩ := exists_entries_of_encodeValue encoded
    exact sound_putAll fun entry mem => ⟨(keys entry mem).1, .inr (keys entry mem).2⟩
  | insertDict _ inserted ih => exact ih.insertDict inserted
  | reordered _ order ih =>
    exact ⟨(order.map Prod.fst).nodup_iff.1 ih.nodup, fun entry mem => ih.keys entry (order.mem_iff.2 mem)⟩

end Foreign

end NativeBridge
