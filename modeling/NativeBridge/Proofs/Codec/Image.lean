/-
The decoder takes exactly what the encoder makes.

- `WireValue.Same`: two wire values that nothing but the layout tells apart. Tuples are compared once they are drained,
  dictionaries by what stands under each key, and what is not a number is all the same.
- `encodeValue_of_decodeValue`: whatever has been decoded is encoded as the same wire value again.
- `decode_ok_iff_image`: the wire values that can be decoded are those that are the same as an encoded one.

A wire value is well-formed if no dictionary in it has a key twice, which no dictionary has, or a text with a zero character for
a key, which foreign code cannot give as a key.
-/
import Mathlib.Tactic
import NativeBridge.Proofs.Codec.Fits
import NativeBridge.Proofs.Text

namespace NativeBridge

/-! ## Equality of wire values -/

/-- the same wire value, whatever the order in which its tuples and dictionaries were built -/
inductive WireValue.Same : WireValue → WireValue → Prop
  | text (t : WireText) : Same (.text t) (.text t)
  | bool (b : Bool) : Same (.bool b) (.bool b)
  | int (v : HostInt) : Same (.int v) (.int v)
  | float32 {x y : Binary32} (same : x = y ∨ x.isNaN = true ∧ y.isNaN = true) : Same (.float32 x) (.float32 y)
  | float64 {x y : Binary64} (same : x = y ∨ x.isNaN = true ∧ y.isNaN = true) : Same (.float64 x) (.float64 y)
  | tuple {chain other : List (Nat × WireValue)}
      (indices : (Chain.drain chain).map Prod.fst = (Chain.drain other).map Prod.fst)
      (elems : List.Forall₂ Same ((Chain.drain chain).map Prod.snd) ((Chain.drain other).map Prod.snd)) :
      Same (.tuple chain) (.tuple other)
  | list {items others : List WireValue} (items_same : List.Forall₂ Same items others) : Same (.list items) (.list others)
  | dict {kind : KeyKind} {entries others : List (WireKey × WireValue)}
      (values : ∀ key, Option.Rel Same (Entries.get? key entries) (Entries.get? key others)) :
      Same (.dict kind entries) (.dict kind others)

/-- no dictionary in the value has a key twice or a text with a zero character for a key -/
inductive WireValue.WellFormed : WireValue → Prop
  | text (t : WireText) : WellFormed (.text t)
  | bool (b : Bool) : WellFormed (.bool b)
  | int (v : HostInt) : WellFormed (.int v)
  | float32 (x : Binary32) : WellFormed (.float32 x)
  | float64 (x : Binary64) : WellFormed (.float64 x)
  | tuple {chain : List (Nat × WireValue)} (parts : ∀ link ∈ chain, WellFormed link.2) : WellFormed (.tuple chain)
  | list {items : List WireValue} (parts : ∀ item ∈ items, WellFormed item) : WellFormed (.list items)
  | dict {kind : KeyKind} {entries : List (WireKey × WireValue)} (keys : (entries.map Prod.fst).Nodup)
      (clean : ∀ entry ∈ entries, entry.1.Clean) (parts : ∀ entry ∈ entries, WellFormed entry.2) :
      WellFormed (.dict kind entries)

theorem WireValue.wellFormed_of_mem_drain {chain : List (Nat × WireValue)} (formed : ∀ link ∈ chain, link.2.WellFormed) :
    ∀ wire ∈ (Chain.drain chain).map Prod.snd, wire.WellFormed := by
  intro wire mem
  obtain ⟨link, drained, rfl⟩ := List.mem_map.1 mem
  exact formed link ((Chain.drain_perm chain).mem_iff.1 drained)

namespace Signature

open WireValue (Same)

/-- the elements of a tuple, given that fitting does not depend on the layout for any of their types -/
theorem forall₂_fits_of_same {elems : List Signature} {wires others : List WireValue}
    (parts : ∀ elem ∈ elems, ∀ {wire other}, elem.Fits wire → Same wire other → other.WellFormed → elem.Fits other)
    (fits : List.Forall₂ Fits elems wires) (same : List.Forall₂ Same wires others)
    (formed : ∀ other ∈ others, other.WellFormed) : List.Forall₂ Fits elems others := by
  induction fits generalizing others with
  | nil =>
    cases same
    exact .nil
  | @cons elem wire elems wires first _ ih =>
    cases same with
    | cons first_same rest_same =>
      rw [List.forall_mem_cons] at formed
      exact .cons (parts elem List.mem_cons_self first first_same formed.1)
        (ih (fun other mem => parts other (List.mem_cons_of_mem elem mem)) rest_same formed.2)

/-- what fits does not depend on the layout -/
theorem Fits.of_same {s : Signature} {wire other : WireValue} (fits : s.Fits wire) (same : wire.Same other)
    (formed : other.WellFormed) : s.Fits other := by
  induction s using Signature.induction generalizing wire other with
  | primitive access kind =>
    cases fits with
    | int holds => cases same; exact .int holds
    | float32 x => cases same; exact .float32 _
    | float64 x => cases same; exact .float64 _
    | bool b => cases same; exact .bool b
    | text valid => cases same; exact .text valid
  | tuple access elems parts =>
    cases fits with
    | tuple indices fits =>
      cases same with
      | @tuple chain other same_indices same_elems =>
        cases formed with
        | tuple formed =>
          refine .tuple (same_indices ▸ indices) ?_
          exact forall₂_fits_of_same parts fits same_elems (WireValue.wellFormed_of_mem_drain formed)
  | list access elem part =>
    cases fits with
    | list fits =>
      cases same with
      | list items_same =>
        cases formed with
        | list formed =>
          have carried : ∀ other ∈ _, other.WellFormed → elem.Fits other :=
            forall_mem_of_forall₂ items_same fun wire mem other same => part (fits wire mem) same
          exact .list fun other mem => carried other mem (formed other mem)
  | dict access kind item part =>
    cases fits with
    | @dict _ _ _ entries keys fits =>
      cases same with
      | @dict _ _ others values =>
        cases formed with
        | dict nodup clean formed =>
          have partner := Entries.exists_of_rel_get? nodup values
          refine .dict ?_ ?_
          · intro entry mem
            obtain ⟨wire, mem', -⟩ := partner entry mem
            exact keys (entry.1, wire) mem'
          · intro entry mem
            obtain ⟨wire, mem', same⟩ := partner entry mem
            exact part (fits _ mem') same (formed entry mem)
  | hole access head => cases fits
  | void access => cases fits

/-! ## Encoding again what was decoded -/

theorem encodePrimitive_of_decodePrimitive {s : Signature} {kind : Primitive} {wire : WireValue} {value : HostValue}
    (h : s.decodePrimitive kind wire = .ok value) :
    ∃ wire', s.encodePrimitive kind value = .ok wire' ∧ wire'.Same wire := by
  cases kind with
  | int w =>
    obtain ⟨v, rfl, holds, rfl⟩ := decodePrimitive_int_ok_iff.1 h
    exact ⟨_, encodePrimitive_int_ok_iff.2 ⟨v, rfl, holds, rfl⟩, .int v⟩
  | float32 =>
    obtain ⟨x, rfl, rfl⟩ := decodePrimitive_float32_ok_iff.1 h
    refine ⟨_, encodePrimitive_float32_ok_iff.2 (.inl ⟨_, rfl, rfl⟩), .float32 ?_⟩
    cases nan : x.isNaN with
    | false => exact .inl (Binary32.narrow_widen nan)
    | true => exact .inr ⟨Binary32.isNaN_narrow_widen nan, rfl⟩
  | float64 =>
    obtain ⟨x, rfl, rfl⟩ := decodePrimitive_float64_ok_iff.1 h
    exact ⟨_, encodePrimitive_float64_ok_iff.2 (.inl ⟨_, rfl, rfl⟩), .float64 (.inl rfl)⟩
  | bool =>
    obtain ⟨b, rfl, rfl⟩ := decodePrimitive_bool_ok_iff.1 h
    exact ⟨_, encodePrimitive_bool_ok_iff.2 ⟨b, rfl, rfl⟩, .bool b⟩
  | text =>
    obtain ⟨t, string, rfl, read, rfl⟩ := decodePrimitive_text_ok_iff.1 h
    have made : WireText.ofString? string = some t := WireText.ofString?_of_toString? read
    exact ⟨_, encodePrimitive_text_ok_iff.2 ⟨string, t, rfl, made, rfl⟩, .text t⟩

/-- the elements of a tuple, given that every single one is encoded as the same value again -/
theorem exists_encode_elems {elems : List Signature} {wires : List WireValue} {items : List HostValue}
    (parts : ∀ elem ∈ elems, ∀ {wire value}, wire.WellFormed → (elem.decodeValue wire).result = .ok value →
      ∃ wire', (elem.encodeValue value).result = .ok wire' ∧ wire'.Same wire)
    (formed : ∀ wire ∈ wires, wire.WellFormed) (same : elems.length = wires.length)
    (h : List.Forall₂ (fun elem item => (decodeValue elem.1 elem.2).result = .ok item) (elems.zip wires) items) :
    elems.length = items.length ∧ ∃ wires',
      List.Forall₂ (fun elem wire => (encodeValue elem.1 elem.2).result = .ok wire) (elems.zip items) wires' ∧
      List.Forall₂ Same wires' wires := by
  induction elems generalizing wires items with
  | nil =>
    cases wires with
    | nil =>
      cases h
      exact ⟨rfl, [], .nil, .nil⟩
    | cons wire wires => cases same
  | cons elem elems ih =>
    cases wires with
    | nil => cases same
    | cons wire wires =>
      cases h with
      | cons first rest =>
        rw [List.forall_mem_cons] at formed
        obtain ⟨wire', encoded, first_same⟩ := parts elem List.mem_cons_self formed.1 first
        obtain ⟨length, wires', others, others_same⟩ := ih
          (fun other mem => parts other (List.mem_cons_of_mem elem mem)) formed.2 (Nat.succ.inj same) rest
        exact ⟨congrArg Nat.succ length, wire' :: wires', .cons encoded others, .cons first_same others_same⟩

/-- the entries of a dictionary, in the order of the host, given that every value is encoded as the same value again -/
theorem exists_encode_entries {kind : KeyKind} {item : Signature} {wires : List (WireKey × WireValue)}
    {entries : List (HostKey × HostValue)}
    (part : ∀ {wire value}, wire.WellFormed → (item.decodeValue wire).result = .ok value →
      ∃ wire', (item.encodeValue value).result = .ok wire' ∧ wire'.Same wire)
    (nodup : (wires.map Prod.fst).Nodup) (clean : ∀ wire ∈ wires, wire.1.Clean) (formed : ∀ wire ∈ wires, wire.2.WellFormed)
    (h : List.Forall₂ (DecodesEntry kind item.decodeValue) wires entries) :
    ∃ sorted, List.Forall₂ (EncodesEntry kind item.encodeValue) (HostKey.dictionary entries) sorted ∧
      ∀ key, Option.Rel Same (Entries.get? key (Entries.putAll [] sorted)) (Entries.get? key wires) := by
  obtain ⟨wires', encoded, wires_same⟩ : ∃ wires', List.Forall₂ (EncodesEntry kind item.encodeValue) entries wires' ∧
      List.Forall₂ (fun a b => a.1 = b.1 ∧ Same a.2 b.2) wires' wires := by
    apply exists_forall₂_back h
    intro wire mem entry decoded
    obtain ⟨value, hv, value_same⟩ := part (formed wire mem) decoded.2
    exact ⟨(wire.1, value), ⟨WireKey.toWire_of_toHost (clean wire mem) decoded.1, hv⟩, rfl, value_same⟩
  have different : (entries.map Prod.fst).Nodup :=
    nodup_keys_of_forall₂ (WireKey.biUnique_toHost kind) (h.imp fun _ _ entry => entry.1) nodup
  -- the host lists the entries in another order than the wire
  have order : (HostKey.dictionary entries).Perm entries := Ordered.putAll_nil_perm different
  obtain ⟨sorted, encoded', perm⟩ := List.perm_comp_forall₂ order encoded
  have nodup' : (sorted.map Prod.fst).Nodup :=
    nodup_keys_of_encodesEntry encoded' ((order.map Prod.fst).nodup_iff.2 different)
  refine ⟨sorted, encoded', ?_⟩
  intro key
  rw [Entries.putAll_eq nodup', List.nil_append, Entries.get?_perm nodup' perm]
  exact Entries.rel_get? wires_same key

/-- whatever has been decoded is encoded as the same wire value again -/
theorem encodeValue_of_decodeValue {s : Signature} {wire : WireValue} {value : HostValue} (formed : wire.WellFormed)
    (decoded : (s.decodeValue wire).result = .ok value) :
    ∃ wire', (s.encodeValue value).result = .ok wire' ∧ wire'.Same wire := by
  induction s using Signature.induction generalizing wire value with
  | primitive access kind =>
    rw [result_decodeValue_primitive] at decoded
    simp only [result_encodeValue_primitive]
    exact encodePrimitive_of_decodePrimitive decoded
  | tuple access elems parts =>
    obtain ⟨chain, wires, items, rfl, same, numbered, hi, rfl⟩ := decodeValue_tuple_ok_iff.1 decoded
    cases formed with
    | tuple formed =>
      have drained : (Chain.drain chain).map Prod.snd = wires := by rw [numbered, Chain.map_snd_number]
      have formed' : ∀ wire ∈ wires, wire.WellFormed := drained ▸ WireValue.wellFormed_of_mem_drain formed
      have length : elems.length = wires.length := by
        rw [← same, ← Chain.length_drain, numbered, Chain.length_number]
      obtain ⟨count, wires', encoded, wires_same⟩ := exists_encode_elems parts formed' length hi
      refine ⟨_, encodeValue_tuple_ok_iff.2 ⟨items, wires', rfl, count, encoded, rfl⟩, .tuple ?_ ?_⟩
      · rw [numbered, Chain.drain_number, Chain.map_fst_number, Chain.map_fst_number, wires_same.length_eq]
      · rwa [drained, Chain.drain_number, Chain.map_snd_number]
  | list access elem part =>
    obtain ⟨wires, items, rfl, hi, rfl⟩ := decodeValue_list_ok_iff.1 decoded
    cases formed with
    | list formed =>
      obtain ⟨wires', encoded, wires_same⟩ :=
        exists_forall₂_back hi fun wire mem item decoded => part (formed wire mem) decoded
      exact ⟨_, encodeValue_list_ok_iff.2 ⟨items, wires', rfl, encoded, rfl⟩, .list wires_same⟩
  | dict access kind item part =>
    obtain ⟨wires, entries, rfl, he, rfl⟩ := decodeValue_dict_ok_iff.1 decoded
    cases formed with
    | dict nodup clean formed =>
      obtain ⟨sorted, encoded, values⟩ := exists_encode_entries part nodup clean formed he
      exact ⟨_, encodeValue_dict_ok_iff.2 ⟨_, sorted, rfl, encoded, rfl⟩, .dict values⟩
  | hole access head => exact absurd decoded decodeValue_hole_not_ok
  | void access => exact absurd decoded decodeValue_void_not_ok

/-- **The decoder takes exactly what the encoder makes.** A wire value is decoded just if some host value is encoded as the
same wire value; the value that comes out is encoded as that wire value again; and what is decoded are the values that fit
a signature without holes. -/
theorem decode_ok_iff_image (s : Signature) (wire : WireValue) (formed : wire.WellFormed) :
    ((∃ value, (s.decode wire).result = .ok value) ↔
      ∃ value wire', value.WellFormed ∧ (s.encode value).result = .ok wire' ∧ wire'.Same wire) ∧
    (∀ value, (s.decode wire).result = .ok value →
      value.WellFormed ∧ ∃ wire', (s.encode value).result = .ok wire' ∧ wire'.Same wire) ∧
    ((∃ value, (s.decode wire).result = .ok value) ↔ s.firstHole? = none ∧ s.Fits wire) := by
  have fits : (∃ value, (s.decode wire).result = .ok value) ↔ s.firstHole? = none ∧ s.Fits wire := by
    simp only [decode_ok_iff, exists_and_left, decodeValue_ok_iff_fits]
  have again : ∀ value, (s.decode wire).result = .ok value →
      value.WellFormed ∧ ∃ wire', (s.encode value).result = .ok wire' ∧ wire'.Same wire := by
    intro value decoded
    obtain ⟨resolved, decoded⟩ := decode_ok_iff.1 decoded
    obtain ⟨wire', encoded, same⟩ := encodeValue_of_decodeValue formed decoded
    exact ⟨wellFormed_of_decodeValue decoded, wire', encode_ok_iff.2 ⟨resolved, encoded⟩, same⟩
  refine ⟨⟨?_, ?_⟩, again, fits⟩
  · intro h
    rcases h with ⟨value, decoded⟩
    obtain ⟨ordered, wire', encoded, same⟩ := again value decoded
    exact ⟨value, wire', ordered, encoded, same⟩
  · intro h
    rcases h with ⟨value, wire', ordered, encoded, same⟩
    obtain ⟨resolved, encoded⟩ := encode_ok_iff.1 encoded
    have taken : s.Fits wire' := decodeValue_ok_iff_fits.1 ⟨_, decodeValue_of_encodeValue ordered encoded⟩
    exact fits.2 ⟨resolved, taken.of_same same formed⟩

/-- a dictionary whose keys are not in the order of the host, with a tuple linked back to front under one of them -/
theorem decode_unordered_dict_of_tuples :
    let s : Signature := ⟨.rawConst, .dict .text ⟨.owned, .tuple
      [⟨.owned, .primitive (.int .i8)⟩, ⟨.owned, .primitive .bool⟩]⟩⟩
    let wire : WireValue := .dict .text
      [(.text "b", .tuple [(0, .int ⟨-1, by decide⟩), (1, .bool true)]),
       (.text "a", .tuple [(1, .bool false), (0, .int ⟨2, by decide⟩)])]
    ∃ value, (s.decode wire).result = .ok value ∧ ∃ wire', (s.encode value).result = .ok wire' ∧ wire'.Same wire := by
  intro s wire
  have formed : wire.WellFormed := by
    refine .dict (by decide) ?_ ?_
    · intro entry mem
      rcases List.mem_pair.1 mem with rfl | rfl
      · exact (by decide : '\x00' ∉ "b".toList)
      · exact (by decide : '\x00' ∉ "a".toList)
    · intro entry mem
      rcases List.mem_pair.1 mem with rfl | rfl
      · apply WireValue.WellFormed.tuple
        intro link mem
        rcases List.mem_pair.1 mem with rfl | rfl
        · exact .int _
        · exact .bool true
      · apply WireValue.WellFormed.tuple
        intro link mem
        rcases List.mem_pair.1 mem with rfl | rfl
        · exact .bool false
        · exact .int _
  exact ⟨_, rfl, ((decode_ok_iff_image s wire formed).2.1 _ rfl).2⟩

end Signature

end NativeBridge
