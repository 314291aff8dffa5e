/-
Encoding and decoding again. What a host value becomes on the way depends on its floats only.

- `Signature.coerce`: what is left of a host value after the way to the wire and back. An integer in the place of a float
  becomes that float, and a float in the place of one of 32 bits is rounded; nothing else changes.
- `keysProper_of_encodeValue`: dictionaries that are encoded have each key once, and only keys of their kind.
- `decode_encode`: whatever can be encoded is decoded again, in whatever order its dictionaries list their entries by then, and
  gives the coerced value; a value whose floats fit their places is not changed at all.

A host value is well-formed if its dictionaries list their entries in the order of the keys, each key once, as the dictionaries
of the host do.
-/
import Mathlib.Tactic
import NativeBridge.Proofs.Codec.Order
import NativeBridge.Proofs.Rounding
import NativeBridge.Proofs.Signature

namespace NativeBridge

/-- every dictionary in the value lists its entries in the order of their keys, each key once -/
inductive HostValue.WellFormed : HostValue → Prop
  | none : WellFormed .none
  | bool (b : Bool) : WellFormed (.bool b)
  | int (v : HostInt) : WellFormed (.int v)
  | float (x : Binary64) : WellFormed (.float x)
  | text (s : String) : WellFormed (.text s)
  | tuple {items : List HostValue} (parts : ∀ item ∈ items, WellFormed item) : WellFormed (.tuple items)
  | list {items : List HostValue} (parts : ∀ item ∈ items, WellFormed item) : WellFormed (.list items)
  | dict {entries : List (HostKey × HostValue)} (ascending : HostKey.Ascending entries)
      (parts : ∀ entry ∈ entries, WellFormed entry.2) : WellFormed (.dict entries)

/-! ## Coercion to the declared floats -/

mutual

/-- the value with its floats as the shape declares them -/
def Shape.coerce : Shape → HostValue → HostValue
  | .primitive .float32, .int v => .float (Binary32.ofHostInt v).widen
  | .primitive .float32, .float x => .float x.narrow.widen
  | .primitive .float64, .int v => .float (Binary64.ofHostInt v)
  | .tuple elems, .tuple items => .tuple (Signature.coerceElems elems items)
  | .list elem, .list items => .list (items.map elem.coerce)
  | .dict _ item, .dict entries => .dict (entries.map fun entry => (entry.1, item.coerce entry.2))
  | _, value => value

/-- the value with its floats as the signature declares them -/
def Signature.coerce : Signature → HostValue → HostValue
  | ⟨_, shape⟩, value => shape.coerce value

/-- the elements of a tuple with their floats as their signatures declare them -/
def Signature.coerceElems : List Signature → List HostValue → List HostValue
  | elem :: elems, item :: items => elem.coerce item :: Signature.coerceElems elems items
  | _, items => items

end

/-- the number can be held in 32 bits -/
def Binary64.IsSingle (x : Binary64) : Prop := ∃ y : Binary32, y.widen = x

mutual

/-- no integer stands in the place of a float, and every float in the place of one of 32 bits is one -/
def Shape.FloatsFit : Shape → HostValue → Prop
  | .primitive .float32, .int _ => False
  | .primitive .float32, .float x => x.IsSingle
  | .primitive .float64, .int _ => False
  | .tuple elems, .tuple items => Signature.FloatsFitElems elems items
  | .list elem, .list items => ∀ item ∈ items, elem.FloatsFit item
  | .dict _ item, .dict entries => ∀ entry ∈ entries, item.FloatsFit entry.2
  | _, _ => True

/-- the same for the value of a signature -/
def Signature.FloatsFit : Signature → HostValue → Prop
  | ⟨_, shape⟩, value => shape.FloatsFit value

/-- the same for the elements of a tuple -/
def Signature.FloatsFitElems : List Signature → List HostValue → Prop
  | elem :: elems, item :: items => elem.FloatsFit item ∧ Signature.FloatsFitElems elems items
  | _, _ => True

end

namespace Signature

open WireValue (KeysProper)

theorem coerce_of_floatsFit {s : Signature} {value : HostValue} (fit : s.FloatsFit value) : s.coerce value = value := by
  induction s using Signature.induction generalizing value with
  | primitive access kind =>
    rw [FloatsFit] at fit
    rw [coerce]
    unfold Shape.FloatsFit at fit
    unfold Shape.coerce
    split at fit <;> simp_all [Binary64.widen_narrow_of_single, Binary64.IsSingle]
  | tuple access elems parts =>
    rw [FloatsFit] at fit
    rw [coerce]
    cases value with
    | tuple items =>
      rw [Shape.FloatsFit] at fit
      rw [Shape.coerce]
      congr 1
      induction elems generalizing items with
      | nil => cases items <;> rfl
      | cons elem elems ih =>
        cases items with
        | nil => rfl
        | cons item items =>
          rw [FloatsFitElems] at fit
          rw [coerceElems, parts elem List.mem_cons_self fit.1,
            ih (fun other mem => parts other (List.mem_cons_of_mem elem mem)) items fit.2]
    | _ => rfl
  | list access elem part =>
    rw [FloatsFit] at fit
    rw [coerce]
    cases value with
    | list items =>
      rw [Shape.FloatsFit] at fit
      rw [Shape.coerce]
      congr 1
      exact (List.map_congr_left fun item mem => part (fit item mem)).trans (List.map_id items)
    | _ => rfl
  | dict access key item part =>
    rw [FloatsFit] at fit
    rw [coerce]
    cases value with
    | dict entries =>
      rw [Shape.FloatsFit] at fit
      rw [Shape.coerce]
      congr 1
      refine (List.map_congr_left fun entry mem => ?_).trans (List.map_id entries)
      exact Prod.ext rfl (part (fit entry mem))
    | _ => rfl
  | hole access head => rfl
  | void access => rfl

/-! ## The round trip -/

theorem decodePrimitive_of_encodePrimitive {s : Signature} {kind : Primitive} {value : HostValue} {wire : WireValue}
    (h : s.encodePrimitive kind value = .ok wire) :
    s.decodePrimitive kind wire = .ok ((Shape.primitive kind).coerce value) := by
  cases kind with
  | int w =>
    obtain ⟨v, rfl, holds, rfl⟩ := encodePrimitive_int_ok_iff.1 h
    exact decodePrimitive_int_ok_iff.2 ⟨v, rfl, holds, rfl⟩
  | float32 =>
    rcases encodePrimitive_float32_ok_iff.1 h with ⟨x, rfl, rfl⟩ | ⟨v, rfl, rfl⟩
    · exact decodePrimitive_float32_ok_iff.2 ⟨_, rfl, rfl⟩
    · exact decodePrimitive_float32_ok_iff.2 ⟨_, rfl, rfl⟩
  | float64 =>
    rcases encodePrimitive_float64_ok_iff.1 h with ⟨x, rfl, rfl⟩ | ⟨v, rfl, rfl⟩
    · exact decodePrimitive_float64_ok_iff.2 ⟨_, rfl, rfl⟩
    · exact decodePrimitive_float64_ok_iff.2 ⟨_, rfl, rfl⟩
  | bool =>
    obtain ⟨b, rfl, rfl⟩ := encodePrimitive_bool_ok_iff.1 h
    exact decodePrimitive_bool_ok_iff.2 ⟨b, rfl, rfl⟩
  | text =>
    obtain ⟨string, t, rfl, made, rfl⟩ := encodePrimitive_text_ok_iff.1 h
    exact decodePrimitive_text_ok_iff.2 ⟨t, string, rfl, WireText.toString?_of_ofString? made, rfl⟩

/-- what comes back of the elements of a tuple, given that every single one comes back coerced -/
theorem forall₂_decode_elems {elems : List Signature} {items : List HostValue} {wires : List WireValue}
    (parts : ∀ elem ∈ elems, ∀ {item wire}, item.WellFormed → (elem.encodeValue item).result = .ok wire →
      (elem.decodeValue wire).result = .ok (elem.coerce item))
    (ordered : ∀ item ∈ items, item.WellFormed) (same : elems.length = items.length)
    (h : List.Forall₂ (fun elem wire => (encodeValue elem.1 elem.2).result = .ok wire) (elems.zip items) wires) :
    wires.length = elems.length ∧
      List.Forall₂ (fun elem item => (decodeValue elem.1 elem.2).result = .ok item) (elems.zip wires)
        (coerceElems elems items) := by
  induction elems generalizing items wires with
  | nil =>
    cases items with
    | nil =>
      cases h
      exact ⟨rfl, .nil⟩
    | cons item items => cases same
  | cons elem elems ih =>
    cases items with
    | nil => cases same
    | cons item items =>
      cases h with
      | cons first rest =>
        obtain ⟨length, others⟩ := ih (fun other mem => parts other (List.mem_cons_of_mem elem mem))
          (fun other mem => ordered other (List.mem_cons_of_mem item mem)) (Nat.succ.inj same) rest
        rw [coerceElems]
        exact ⟨congrArg Nat.succ length,
          .cons (parts elem List.mem_cons_self (ordered item List.mem_cons_self) first) others⟩

/-- different host keys are encoded as different wire keys -/
theorem nodup_keys_of_encodesEntry {kind : KeyKind} {encodeItem : HostValue → Metered WireValue}
    {entries : List (HostKey × HostValue)} {wires : List (WireKey × WireValue)}
    (h : List.Forall₂ (EncodesEntry kind encodeItem) entries wires) (nodup : (entries.map Prod.fst).Nodup) :
    (wires.map Prod.fst).Nodup :=
  nodup_keys_of_forall₂ (WireKey.biUnique_toWire kind) (h.imp fun _ _ entry => entry.1) nodup

/-- the round trip of values, for signatures that may have holes -/
theorem decodeValue_of_encodeValue {s : Signature} {value : HostValue} {wire : WireValue}
    (ordered : value.WellFormed) (encoded : (s.encodeValue value).result = .ok wire) :
    (s.decodeValue wire).result = .ok (s.coerce value) := by
  induction s using Signature.induction generalizing value wire with
  | primitive access kind =>
    rw [result_encodeValue_primitive] at encoded
    rw [result_decodeValue_primitive]
    exact decodePrimitive_of_encodePrimitive encoded
  | tuple access elems parts =>
    obtain ⟨items, wires, rfl, same, hw, rfl⟩ := encodeValue_tuple_ok_iff.1 encoded
    cases ordered with
    | tuple ordered =>
      obtain ⟨length, hi⟩ := forall₂_decode_elems parts ordered same hw
      refine decodeValue_tuple_ok_iff.2 ⟨_, wires, _, rfl, ?_, Chain.drain_number 0 wires, hi, ?_⟩
      · rw [Chain.length_number, length]
      · rw [coerce, Shape.coerce]
  | list access elem part =>
    obtain ⟨items, wires, rfl, hw, rfl⟩ := encodeValue_list_ok_iff.1 encoded
    cases ordered with
    | list ordered =>
      refine decodeValue_list_ok_iff.2 ⟨wires, items.map elem.coerce, rfl, ?_, ?_⟩
      · rw [List.forall₂_map_right_iff]
        exact ((List.forall₂_and_left _ _).2 ⟨ordered, hw⟩).imp (fun _ _ h => part h.1 h.2) |>.flip
      · rw [coerce, Shape.coerce]
  | dict access kind item part =>
    obtain ⟨entries, wires, rfl, hw, rfl⟩ := encodeValue_dict_ok_iff.1 encoded
    cases ordered with
    | dict ascending ordered =>
      have listed : Entries.putAll [] wires = wires :=
        Entries.putAll_eq (nodup_keys_of_encodesEntry hw ascending.nodup)
      rw [listed]
      refine decodeValue_dict_ok_iff.2 ⟨wires, entries.map fun entry => (entry.1, item.coerce entry.2), rfl, ?_, ?_⟩
      · rw [List.forall₂_map_right_iff]
        exact ((List.forall₂_and_left _ _).2 ⟨ordered, hw⟩).imp
          (fun _ _ h => ⟨WireKey.toHost_of_toWire h.2.1, part h.1 h.2.2⟩) |>.flip
      · rw [coerce, Shape.coerce, HostKey.dictionary, Ordered.putAll_of_ascending]
        exact List.pairwise_map.2 ascending
  | hole access head => exact absurd encoded encodeValue_hole_not_ok
  | void access => exact absurd encoded encodeValue_void_not_ok

/-! ## The order of dictionaries -/

theorem keysProper_of_encodePrimitive {s : Signature} {kind : Primitive} {value : HostValue} {wire : WireValue}
    (encoded : s.encodePrimitive kind value = .ok wire) : wire.Everywhere KeysProper := by
  cases kind with
  | int w =>
    obtain ⟨v, -, -, rfl⟩ := encodePrimitive_int_ok_iff.1 encoded
    exact .int trivial
  | float32 => obtain ⟨-, -, rfl⟩ | ⟨-, -, rfl⟩ := encodePrimitive_float32_ok_iff.1 encoded <;> exact .float32 trivial
  | float64 => obtain ⟨-, -, rfl⟩ | ⟨-, -, rfl⟩ := encodePrimitive_float64_ok_iff.1 encoded <;> exact .float64 trivial
  | bool =>
    obtain ⟨b, -, rfl⟩ := encodePrimitive_bool_ok_iff.1 encoded
    exact .bool trivial
  | text =>
    obtain ⟨-, t, -, -, rfl⟩ := encodePrimitive_text_ok_iff.1 encoded
    exact .text trivial

/-- **What is encoded is a proper wire value**, of whatever host value. -/
theorem keysProper_of_encodeValue {s : Signature} {value : HostValue} {wire : WireValue}
    (encoded : (s.encodeValue value).result = .ok wire) : wire.Everywhere KeysProper := by
  induction s using Signature.induction generalizing value wire with
  | primitive access kind =>
    rw [result_encodeValue_primitive] at encoded
    exact keysProper_of_encodePrimitive encoded
  | tuple access elems parts =>
    obtain ⟨items, wires, rfl, -, hw, rfl⟩ := encodeValue_tuple_ok_iff.1 encoded
    have proper : ∀ wire ∈ wires, wire.Everywhere KeysProper :=
      forall_mem_of_forall₂ hw fun pair mem wire made => parts pair.1 (List.of_mem_zip mem).1 made
    refine .tuple trivial fun link mem => proper link.2 ?_
    rw [← Chain.map_snd_number 0 wires]
    exact List.mem_map_of_mem mem
  | list access elem part =>
    obtain ⟨items, wires, rfl, hw, rfl⟩ := encodeValue_list_ok_iff.1 encoded
    exact .list trivial (forall_mem_of_forall₂ hw fun item mem wire => part)
  | dict access kind item part =>
    obtain ⟨entries, wires, rfl, hw, rfl⟩ := encodeValue_dict_ok_iff.1 encoded
    have kinds : ∀ wire ∈ wires, wire.1.kind = kind :=
      forall_mem_of_forall₂ hw fun entry mem wire made => WireKey.kind_of_toWire made.1
    have proper : ∀ wire ∈ wires, wire.2.Everywhere KeysProper :=
      forall_mem_of_forall₂ hw fun entry mem wire made => part made.2
    have put {entry : WireKey × WireValue} (mem : entry ∈ Entries.putAll [] wires) : entry ∈ wires :=
      (Entries.mem_of_mem_putAll mem).resolve_left List.not_mem_nil
    refine .dict ⟨Entries.nodup_putAll wires List.nodup_nil, fun entry mem => kinds entry (put mem)⟩ ?_
    exact fun entry mem => proper entry (put mem)
  | hole access head => exact absurd encoded encodeValue_hole_not_ok
  | void access => exact absurd encoded encodeValue_void_not_ok

/-- the coerced value comes back, in whatever order dictionaries list their entries by then -/
theorem decode_of_encode {s : Signature} {value : HostValue} {wire other : WireValue} (ordered : value.WellFormed)
    (encoded : (s.encode value).result = .ok wire) (same : wire.Reordered other) :
    (s.decode other).result = .ok (s.coerce value) := by
  obtain ⟨resolved, encoded⟩ := encode_ok_iff.1 encoded
  refine (decode_reordered_iff (keysProper_of_encodeValue encoded) same _).1 ?_
  exact decode_ok_iff.2 ⟨resolved, decodeValue_of_encodeValue ordered encoded⟩

/-- **Decoding undoes encoding.** Whatever a signature encodes it decodes again, in whatever order the dictionaries list their
entries by then, and what comes back is the value that went in, with its floats as the signature declares them. A value whose
floats are as declared already comes back unchanged. -/
theorem decode_encode (s : Signature) (value : HostValue) (wire other : WireValue) (ordered : value.WellFormed)
    (encoded : (s.encode value).result = .ok wire) (same : wire.Reordered other) :
    (s.decode other).result = .ok (s.coerce value) ∧
      (s.FloatsFit value → (s.decode other).result = .ok value) := by
  have decoded := decode_of_encode ordered encoded same
  refine ⟨decoded, ?_⟩
  intro fit
  rw [decoded, coerce_of_floatsFit fit]

/-- an integer in the place of a float, inside a tuple inside a dictionary whose entries are listed the other way round by then:
it comes back as a float, all else as it was -/
theorem decode_encode_dict_of_tuples :
    let s : Signature := ⟨.borrowed, .dict (.int .u8) ⟨.owned, .tuple
      [⟨.owned, .primitive .float32⟩, ⟨.rawMut, .list ⟨.owned, .primitive (.int .i8)⟩⟩]⟩⟩
    let value (first : HostValue) : HostValue := .dict
      [(.int ⟨2, by decide⟩, .tuple [first, .list []]),
        (.int ⟨255, by decide⟩, .tuple [first, .list [.int ⟨-128, by decide⟩, .int ⟨127, by decide⟩]])]
    let three : HostInt := ⟨3, by decide⟩
    ∃ low high, (s.encode (value (.int three))).result = .ok (.dict (.int .u8) [low, high]) ∧
      (s.decode (.dict (.int .u8) [high, low])).result = .ok (value (.float (Binary32.ofHostInt three).widen)) := by
  intro s value three
  have pair {a b : HostValue} (first : a.WellFormed) (second : b.WellFormed) : ∀ item ∈ [a, b], item.WellFormed := by
    intro item mem
    rcases List.mem_pair.1 mem with rfl | rfl
    · exact first
    · exact second
  have ordered : (value (.int three)).WellFormed := by
    refine .dict (List.pairwise_pair.2 (by decide)) ?_
    intro entry mem
    rcases List.mem_pair.1 mem with rfl | rfl
    · exact .tuple (pair (.int three) (.list (List.forall_mem_nil _)))
    · exact .tuple (pair (.int three) (.list (pair (.int _) (.int _))))
  exact ⟨_, _, rfl, (decode_encode s (value (.int three)) _ _ ordered rfl
    (.dict rfl (.cons (.refl _) (.cons (.refl _) .nil)) (.swap _ _ _))).1⟩

end Signature

end NativeBridge
