/-
Decoding keeps every entry of every dictionary: no two keys of the wire become one key of the host, at whatever depth the
dictionary stands.

- `WireValue.KeptIn`: part by part, what a wire value holds is in the host value, and the dictionaries have as many entries.
- `keptIn_of_decodeValue`: what is decoded keeps what it is decoded from.
-/
import NativeBridge.Proofs.Codec.Order

namespace NativeBridge

/-- every part of the wire value has its part in the host value; a dictionary has exactly as many entries, and they stand under
the keys of the host that the wire keys are -/
inductive WireValue.KeptIn : WireValue → HostValue → Prop
  | text {t : WireText} {s : String} (read : t.toString? = some s) : KeptIn (.text t) (.text s)
  | bool (b : Bool) : KeptIn (.bool b) (.bool b)
  | int (v : HostInt) : KeptIn (.int v) (.int v)
  | float32 (x : Binary32) : KeptIn (.float32 x) (.float x.widen)
  | float64 (x : Binary64) : KeptIn (.float64 x) (.float x)
  | tuple {chain : List (Nat × WireValue)} {items : List HostValue}
      (parts : List.Forall₂ KeptIn ((Chain.drain chain).map Prod.snd) items) : KeptIn (.tuple chain) (.tuple items)
  | list {wires : List WireValue} {items : List HostValue} (parts : List.Forall₂ KeptIn wires items) :
      KeptIn (.list wires) (.list items)
  | dict {kind : KeyKind} {entries : List (WireKey × WireValue)} {middle dict : List (HostKey × HostValue)}
      (count : dict.length = entries.length)
      (keys : List.Forall₂ (fun key host => key.toHost kind = .ok host) (entries.map Prod.fst) (middle.map Prod.fst))
      (values : List.Forall₂ KeptIn (entries.map Prod.snd) (middle.map Prod.snd)) (order : middle.Perm dict) :
      KeptIn (.dict kind entries) (.dict dict)

namespace Signature

open WireValue (KeysProper KeptIn)

theorem keptIn_of_decodePrimitive {s : Signature} {kind : Primitive} {wire : WireValue} {value : HostValue}
    (h : s.decodePrimitive kind wire = .ok value) : wire.KeptIn value := by
  cases kind with
  | int w =>
    obtain ⟨v, rfl, -, rfl⟩ := decodePrimitive_int_ok_iff.1 h
    exact .int v
  | float32 =>
    obtain ⟨x, rfl, rfl⟩ := decodePrimitive_float32_ok_iff.1 h
    exact .float32 x
  | float64 =>
    obtain ⟨x, rfl, rfl⟩ := decodePrimitive_float64_ok_iff.1 h
    exact .float64 x
  | bool =>
    obtain ⟨b, rfl, rfl⟩ := decodePrimitive_bool_ok_iff.1 h
    exact .bool b
  | text =>
    obtain ⟨t, s, rfl, read, rfl⟩ := decodePrimitive_text_ok_iff.1 h
    exact .text read

/-- **No entry is lost**, since no two keys of one kind are the same to the host. -/
theorem keptIn_of_decodeValue {s : Signature} {wire : WireValue} {value : HostValue} (proper : wire.Everywhere KeysProper)
    (h : (s.decodeValue wire).result = .ok value) : wire.KeptIn value := by
  induction s using Signature.induction generalizing wire value with
  | primitive access kind =>
    rw [result_decodeValue_primitive] at h
    exact keptIn_of_decodePrimitive h
  | tuple access elems parts =>
    obtain ⟨chain, wires, items, rfl, length, numbered, decoded, rfl⟩ := decodeValue_tuple_ok_iff.1 h
    obtain ⟨-, proper⟩ := WireValue.everywhere_tuple_iff.1 proper
    have drained : (Chain.drain chain).map Prod.snd = wires := by rw [numbered, Chain.map_snd_number]
    have many : wires.length = elems.length := by
      rw [← drained, List.length_map, Chain.length_drain, length]
    have properWires : ∀ pair ∈ elems.zip wires, pair.2.Everywhere KeysProper := by
      intro pair mem
      obtain ⟨link, there, same⟩ := List.mem_map.1 (drained.symm ▸ (List.of_mem_zip mem).2)
      exact same ▸ proper link ((Chain.drain_perm chain).mem_iff.1 there)
    have kept : List.Forall₂ (fun pair item => WireValue.KeptIn pair.2 item) (elems.zip wires) items := by
      rw [List.forall₂_iff_zip] at decoded ⊢
      refine ⟨decoded.1, fun {pair item} mem => ?_⟩
      have listed := (List.of_mem_zip mem).1
      exact parts pair.1 (List.of_mem_zip listed).1 (properWires pair listed) (decoded.2 mem)
    have unzipped : (elems.zip wires).map Prod.snd = wires := List.map_snd_zip many.le
    refine .tuple ?_
    rw [drained, ← unzipped, List.forall₂_map_left_iff]
    exact kept
  | list access elem part =>
    obtain ⟨wires, items, rfl, decoded, rfl⟩ := decodeValue_list_ok_iff.1 h
    obtain ⟨-, proper⟩ := WireValue.everywhere_list_iff.1 proper
    exact .list (((List.forall₂_and_left wires items).2 ⟨proper, decoded⟩).imp fun _ _ pair => part pair.1 pair.2)
  | dict access kind item part =>
    obtain ⟨entries, decoded, rfl, read, rfl⟩ := decodeValue_dict_ok_iff.1 h
    obtain ⟨⟨nodup, -⟩, proper⟩ := WireValue.everywhere_dict_iff.1 proper
    have different : (decoded.map Prod.fst).Nodup :=
      nodup_keys_of_forall₂ (WireKey.biUnique_toHost kind) (read.imp fun _ _ entry => entry.1) nodup
    have perm : (HostKey.dictionary decoded).Perm decoded := Ordered.putAll_nil_perm different
    refine .dict (perm.length_eq.trans read.length_eq.symm) ?_ ?_ perm.symm
    · rw [List.forall₂_map_left_iff, List.forall₂_map_right_iff]
      exact read.imp fun _ _ entry => entry.1
    · rw [List.forall₂_map_left_iff, List.forall₂_map_right_iff]
      exact ((List.forall₂_and_left entries decoded).2 ⟨proper, read⟩).imp fun _ _ entry => part entry.1 entry.2.2
  | hole access head => exact absurd h decodeValue_hole_not_ok
  | void access => exact absurd h decodeValue_void_not_ok

theorem keptIn_of_decode {s : Signature} {wire : WireValue} {value : HostValue} (proper : wire.Everywhere KeysProper)
    (h : (s.decode wire).result = .ok value) : wire.KeptIn value :=
  keptIn_of_decodeValue proper (decode_ok_iff.1 h).2

end Signature

end NativeBridge
