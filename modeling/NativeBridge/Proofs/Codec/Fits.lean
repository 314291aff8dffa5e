/-
Which wire values a signature takes. A wire value fits a signature if every part of it is what the signature says there:
the right kind of value, an integer of the declared width, a text of valid UTF-8, a tuple that has exactly the declared
indices, a dictionary of the declared key kind without keys too large for the host.

- `decodeValue_ok_iff_fits`: the values that can be decoded are exactly the fitting ones. So one part that does not fit makes
  the whole value unfit, however deep it stands.
- `wellFormed_of_decodeValue`: what is decoded is well-formed.
-/
import Mathlib.Tactic
import NativeBridge.Proofs.Codec.Success
import NativeBridge.Proofs.Codec.RoundTrip
import NativeBridge.Proofs.Partners
import NativeBridge.Proofs.Signature

namespace NativeBridge

/-- the key is of this kind and not too large for a host integer -/
def WireKey.Fits (kind : KeyKind) (key : WireKey) : Prop :=
  key.kind = kind ∧ match key with
    | .int _ v => IntWidth.i64.Holds v.val
    | _ => True

theorem WireKey.toHost_ok_iff_fits {kind : KeyKind} {key : WireKey} :
    (∃ host, key.toHost kind = .ok host) ↔ key.Fits kind := by
  constructor
  · intro h
    rcases h with ⟨host, h⟩
    have same := kind_of_toHost h
    refine ⟨same, ?_⟩
    subst same
    cases key with
    | int w v =>
      obtain ⟨value, equal, -⟩ := toHost_int_ok_iff.1 h
      show IntWidth.i64.Holds v.val
      rw [equal]
      exact value.holds
    | _ => trivial
  · intro h
    rcases h with ⟨rfl, small⟩
    cases key with
    | int w v => exact ⟨.int ⟨v.val, small⟩, toHost_int_ok_iff.2 ⟨⟨v.val, small⟩, rfl, rfl⟩⟩
    | bool b => exact ⟨.bool b, rfl⟩
    | text s => exact ⟨.text s, rfl⟩

/-- the wire value is, part by part, what the signature says -/
inductive Signature.Fits : Signature → WireValue → Prop
  | int {access w} {v : HostInt} (holds : w.Holds v.val) : Fits ⟨access, .primitive (.int w)⟩ (.int v)
  | float32 {access} (x : Binary32) : Fits ⟨access, .primitive .float32⟩ (.float32 x)
  | float64 {access} (x : Binary64) : Fits ⟨access, .primitive .float64⟩ (.float64 x)
  | bool {access} (b : Bool) : Fits ⟨access, .primitive .bool⟩ (.bool b)
  | text {access} {t : WireText} (valid : t.bytes.IsValidUTF8) : Fits ⟨access, .primitive .text⟩ (.text t)
  | tuple {access elems chain} (indices : (Chain.drain chain).map Prod.fst = List.range elems.length)
      (parts : List.Forall₂ Fits elems ((Chain.drain chain).map Prod.snd)) : Fits ⟨access, .tuple elems⟩ (.tuple chain)
  | list {access elem items} (parts : ∀ item ∈ items, Fits elem item) : Fits ⟨access, .list elem⟩ (.list items)
  | dict {access kind item entries} (keys : ∀ entry ∈ entries, WireKey.Fits kind entry.1)
      (parts : ∀ entry ∈ entries, Fits item entry.2) : Fits ⟨access, .dict kind item⟩ (.dict kind entries)

namespace Signature

/-! ## Decoding succeeds exactly for what fits -/

theorem decodePrimitive_ok_iff_fits {access : Access} {kind : Primitive} {wire : WireValue} :
    (∃ value, decodePrimitive ⟨access, .primitive kind⟩ kind wire = .ok value) ↔
      Fits ⟨access, .primitive kind⟩ wire := by
  cases kind with
  | int w =>
    simp only [decodePrimitive_int_ok_iff]
    constructor
    · intro h
      rcases h with ⟨_, v, rfl, holds, -⟩
      exact .int holds
    · intro fits
      cases fits with
      | int holds => exact ⟨_, _, rfl, holds, rfl⟩
  | float32 =>
    simp only [decodePrimitive_float32_ok_iff]
    constructor
    · intro h
      rcases h with ⟨_, x, rfl, -⟩
      exact .float32 x
    · intro fits
      cases fits with
      | float32 x => exact ⟨_, x, rfl, rfl⟩
  | float64 =>
    simp only [decodePrimitive_float64_ok_iff]
    constructor
    · intro h
      rcases h with ⟨_, x, rfl, -⟩
      exact .float64 x
    · intro fits
      cases fits with
      | float64 x => exact ⟨_, x, rfl, rfl⟩
  | bool =>
    simp only [decodePrimitive_bool_ok_iff]
    constructor
    · intro h
      rcases h with ⟨_, b, rfl, -⟩
      exact .bool b
    · intro fits
      cases fits with
      | bool b => exact ⟨_, b, rfl, rfl⟩
  | text =>
    simp only [decodePrimitive_text_ok_iff]
    constructor
    · intro h
      rcases h with ⟨_, t, string, rfl, read, -⟩
      exact .text (WireText.bytes_of_toString? read ▸ string.isValidUTF8)
    · intro fits
      cases fits with
      | @text _ t valid => exact ⟨_, t, .fromUTF8 t.bytes valid, rfl, dif_pos valid, rfl⟩

/-- the elements of a tuple can be decoded exactly if each fits its type -/
theorem exists_decode_elems_iff {elems : List Signature} {wires : List WireValue}
    (parts : ∀ elem ∈ elems, ∀ {wire}, (∃ value, (elem.decodeValue wire).result = .ok value) ↔ elem.Fits wire)
    (same : elems.length = wires.length) :
    (∃ items, List.Forall₂ (fun elem item => (decodeValue elem.1 elem.2).result = .ok item) (elems.zip wires) items) ↔
      List.Forall₂ Fits elems wires := by
  rw [exists_forall₂_iff, List.forall₂_iff_zip]
  constructor
  · intro h
    refine ⟨same, fun {elem wire} mem => ?_⟩
    exact (parts elem (List.of_mem_zip mem).1).1 (h (elem, wire) mem)
  · intro h pair mem
    exact (parts pair.1 (List.of_mem_zip mem).1).2 (h.2 mem)

/-- **The values that can be decoded are those that fit.** -/
theorem decodeValue_ok_iff_fits {s : Signature} {wire : WireValue} :
    (∃ value, (s.decodeValue wire).result = .ok value) ↔ s.Fits wire := by
  induction s using Signature.induction generalizing wire with
  | primitive access kind => simp only [result_decodeValue_primitive, decodePrimitive_ok_iff_fits]
  | tuple access elems parts =>
    simp only [decodeValue_tuple_ok_iff]
    constructor
    · intro h
      rcases h with ⟨_, chain, wires, items, rfl, same, numbered, hi, -⟩
      have length : elems.length = wires.length := by
        rw [← same, ← Chain.length_drain, numbered, Chain.length_number]
      refine .tuple ?_ ?_
      · rw [numbered, Chain.map_fst_number, length, List.range_eq_range']
      · rw [numbered, Chain.map_snd_number]
        exact (exists_decode_elems_iff parts length).1 ⟨items, hi⟩
    · intro fits
      cases fits with
      | @tuple _ _ chain indices fits =>
        have length : (Chain.drain chain).length = elems.length := by
          rw [← List.length_map (f := Prod.fst), indices, List.length_range]
        have numbered : Chain.drain chain = Chain.number 0 ((Chain.drain chain).map Prod.snd) := by
          rw [Chain.eq_number_iff, indices, length, List.range_eq_range']
        obtain ⟨items, hi⟩ := (exists_decode_elems_iff parts fits.length_eq).2 fits
        exact ⟨_, chain, _, items, rfl, (Chain.length_drain chain).symm.trans length, numbered, hi, rfl⟩
  | list access elem part =>
    simp only [decodeValue_list_ok_iff]
    constructor
    · intro h
      rcases h with ⟨_, wires, items, rfl, hi, -⟩
      exact .list fun wire mem => part.1 (exists_forall₂_iff.1 ⟨items, hi⟩ wire mem)
    · intro fits
      cases fits with
      | @list _ _ wires fits =>
        obtain ⟨items, hi⟩ := exists_forall₂_iff.2 fun wire mem => part.2 (fits wire mem)
        exact ⟨_, wires, items, rfl, hi, rfl⟩
  | dict access kind item part =>
    simp only [decodeValue_dict_ok_iff]
    constructor
    · intro h
      rcases h with ⟨_, wires, entries, rfl, he, -⟩
      have decoded := exists_forall₂_iff.1 ⟨entries, he⟩
      refine .dict ?_ ?_
      · intro wire mem
        obtain ⟨entry, key, -⟩ := decoded wire mem
        exact WireKey.toHost_ok_iff_fits.1 ⟨entry.1, key⟩
      · intro wire mem
        obtain ⟨entry, -, value⟩ := decoded wire mem
        exact part.1 ⟨entry.2, value⟩
    · intro fits
      cases fits with
      | @dict _ _ _ wires keys fits =>
        have decoded : ∀ wire ∈ wires, ∃ entry, DecodesEntry kind item.decodeValue wire entry := by
          intro wire mem
          obtain ⟨key, hk⟩ := WireKey.toHost_ok_iff_fits.2 (keys wire mem)
          obtain ⟨value, hv⟩ := part.2 (fits wire mem)
          exact ⟨(key, value), hk, hv⟩
        obtain ⟨entries, he⟩ := exists_forall₂_iff.2 decoded
        exact ⟨_, wires, entries, rfl, he, rfl⟩
  | hole access head =>
    simp only [decodeValue_hole_not_ok, exists_false, false_iff]
    nofun
  | void access =>
    simp only [decodeValue_void_not_ok, exists_false, false_iff]
    nofun

/-! ## What is decoded is well-formed -/

theorem wellFormed_of_decodePrimitive {s : Signature} {kind : Primitive} {wire : WireValue} {value : HostValue}
    (h : s.decodePrimitive kind wire = .ok value) : value.WellFormed := by
  cases kind with
  | int w =>
    obtain ⟨v, -, -, rfl⟩ := decodePrimitive_int_ok_iff.1 h
    exact .int v
  | float32 =>
    obtain ⟨x, -, rfl⟩ := decodePrimitive_float32_ok_iff.1 h
    exact .float _
  | float64 =>
    obtain ⟨x, -, rfl⟩ := decodePrimitive_float64_ok_iff.1 h
    exact .float _
  | bool =>
    obtain ⟨b, -, rfl⟩ := decodePrimitive_bool_ok_iff.1 h
    exact .bool b
  | text =>
    obtain ⟨t, string, -, -, rfl⟩ := decodePrimitive_text_ok_iff.1 h
    exact .text string

theorem wellFormed_of_decodeValue {s : Signature} {wire : WireValue} {value : HostValue}
    (h : (s.decodeValue wire).result = .ok value) : value.WellFormed := by
  induction s using Signature.induction generalizing wire value with
  | primitive access kind =>
    rw [result_decodeValue_primitive] at h
    exact wellFormed_of_decodePrimitive h
  | tuple access elems parts =>
    obtain ⟨chain, wires, items, -, -, -, hi, rfl⟩ := decodeValue_tuple_ok_iff.1 h
    exact .tuple (forall_mem_of_forall₂ hi fun pair mem item decoded => parts _ (List.of_mem_zip mem).1 decoded)
  | list access elem part =>
    obtain ⟨wires, items, -, hi, rfl⟩ := decodeValue_list_ok_iff.1 h
    exact .list (forall_mem_of_forall₂ hi fun wire mem item decoded => part decoded)
  | dict access kind item part =>
    obtain ⟨wires, entries, -, he, rfl⟩ := decodeValue_dict_ok_iff.1 h
    have formed : ∀ entry ∈ entries, entry.2.WellFormed :=
      forall_mem_of_forall₂ he fun wire mem entry decoded => part decoded.2
    refine .dict (Ordered.ascending_putAll entries .nil) fun entry mem => ?_
    exact formed entry ((Ordered.mem_of_mem_putAll mem).resolve_left List.not_mem_nil)
  | hole access head => exact absurd h decodeValue_hole_not_ok
  | void access => exact absurd h decodeValue_void_not_ok

end Signature

end NativeBridge
