/-
When encoding and decoding give a value, and which one: for each shape of a signature one equivalence, in terms of the codecs
of the parts. Lists and dictionaries are related part by part (`List.Forall₂`), the elements of a tuple as pairs of a type
and a value.

- `encode_ok_iff`, `decode_ok_iff`: a codec works only for a signature without holes.
- `encodeValue_tuple_ok_iff`, `encodeValue_list_ok_iff`, `encodeValue_dict_ok_iff`: the host value has to be a container of that
  kind, all of its parts have to be encodable, and the wire value is made of theirs.
- `decodeValue_tuple_ok_iff`, `decodeValue_list_ok_iff`, `decodeValue_dict_ok_iff`: the same for wire values; a tuple has to be
  numbered in order once it is drained, and a dictionary has to have the declared key kind.
-/
import Mathlib.Tactic
import NativeBridge.Codec.Decode
import NativeBridge.Proofs.Accounting
import NativeBridge.Proofs.Chain
import NativeBridge.Proofs.Dictionary

namespace NativeBridge.Signature

open Metered

-- below, `simp` follows the codecs into the shape of a signature
attribute [local simp] encodeValue encodeShape encodeElems decodeValue decodeShape decodeElems

theorem encode_ok_iff {s : Signature} {value : HostValue} {wire : WireValue} :
    (s.encode value).result = .ok wire ↔ s.firstHole? = none ∧ (s.encodeValue value).result = .ok wire := by
  unfold encode
  cases s.firstHole? with
  | none => simp
  | some p => simp [result_fail]

theorem refuse_not_ok {α : Type} {value : WireValue} {fault : Fault} {a : α} :
    ¬ (refuse value fault : Metered α).result = .ok a := by
  intro h
  obtain ⟨-, -, h⟩ := bind_ok_iff.1 h
  cases h

theorem decode_ok_iff {s : Signature} {wire : WireValue} {value : HostValue} :
    (s.decode wire).result = .ok value ↔ s.firstHole? = none ∧ (s.decodeValue wire).result = .ok value := by
  unfold decode
  cases s.firstHole? with
  | none => simp
  | some p => simp [refuse_not_ok]

/-! ## Primitive types -/

section Primitives

variable {s : Signature} {value : HostValue} {wire : WireValue}

attribute [local simp] encodePrimitive decodePrimitive IntWidth.check WireText.ofString Except.map

theorem encodePrimitive_int_ok_iff {w : IntWidth} :
    s.encodePrimitive (.int w) value = .ok wire ↔ ∃ v, value = .int v ∧ w.Holds v.val ∧ wire = .int v := by
  cases value with
  | int v =>
    by_cases holds : w.Holds v.val
    · simp [holds, eq_comm]
    · simp [holds]
  | _ => simp

theorem encodePrimitive_float32_ok_iff :
    s.encodePrimitive .float32 value = .ok wire ↔
      (∃ x, value = .float x ∧ wire = .float32 x.narrow) ∨ ∃ v, value = .int v ∧ wire = .float32 (.ofHostInt v) := by
  cases value <;> simp [eq_comm]

theorem encodePrimitive_float64_ok_iff :
    s.encodePrimitive .float64 value = .ok wire ↔
      (∃ x, value = .float x ∧ wire = .float64 x) ∨ ∃ v, value = .int v ∧ wire = .float64 (.ofHostInt v) := by
  cases value <;> simp [eq_comm]

theorem encodePrimitive_bool_ok_iff :
    s.encodePrimitive .bool value = .ok wire ↔ ∃ b, value = .bool b ∧ wire = .bool b := by
  cases value <;> simp [eq_comm]

theorem encodePrimitive_text_ok_iff :
    s.encodePrimitive .text value = .ok wire ↔
      ∃ string t, value = .text string ∧ WireText.ofString? string = some t ∧ wire = .text t := by
  cases value with
  | text string =>
    cases made : WireText.ofString? string with
    | some t => simp [made, eq_comm]
    | none => simp [made]
  | _ => simp

theorem decodePrimitive_int_ok_iff {w : IntWidth} :
    s.decodePrimitive (.int w) wire = .ok value ↔ ∃ v, wire = .int v ∧ w.Holds v.val ∧ value = .int v := by
  cases wire with
  | int v =>
    by_cases holds : w.Holds v.val
    · simp [holds, eq_comm]
    · simp [holds]
  | _ => simp

theorem decodePrimitive_float32_ok_iff :
    s.decodePrimitive .float32 wire = .ok value ↔ ∃ x, wire = .float32 x ∧ value = .float x.widen := by
  cases wire <;> simp [eq_comm]

theorem decodePrimitive_float64_ok_iff :
    s.decodePrimitive .float64 wire = .ok value ↔ ∃ x, wire = .float64 x ∧ value = .float x := by
  cases wire <;> simp [eq_comm]

theorem decodePrimitive_bool_ok_iff :
    s.decodePrimitive .bool wire = .ok value ↔ ∃ b, wire = .bool b ∧ value = .bool b := by
  cases wire <;> simp [eq_comm]

theorem decodePrimitive_text_ok_iff :
    s.decodePrimitive .text wire = .ok value ↔
      ∃ t string, wire = .text t ∧ t.toString? = some string ∧ value = .text string := by
  cases wire with
  | text t =>
    cases made : t.toString? with
    | some string => simp [made, eq_comm]
    | none => simp [made]
  | _ => simp

end Primitives

/-! ## Parts of containers -/

attribute [local simp] encodeItems decodeItems encodeEntries decodeEntries

section Parts

variable {α : Type}

theorem encodeItems_ok_iff {encodeItem : α → Metered WireValue} {i : Nat} {items : List α} {wires : List WireValue} :
    (encodeItems encodeItem i items).result = .ok wires ↔
      List.Forall₂ (fun item wire => (encodeItem item).result = .ok wire) items wires := by
  induction items generalizing i wires with
  | nil => simp [result_pure, eq_comm]
  | cons item rest ih =>
    rw [encodeItems, List.forall₂_cons_left_iff]
    simp only [bind_ok_iff, within_ok_iff, result_releasingOnFault, result_pure, ih]
    constructor
    · intro h
      rcases h with ⟨first, hf, others, ho, h⟩
      cases h
      exact ⟨first, others, hf, ho, rfl⟩
    · intro h
      rcases h with ⟨first, others, hf, ho, rfl⟩
      exact ⟨first, hf, others, ho, rfl⟩

theorem decodeItems_ok_iff {decodeItem : WireValue → Metered α} {i : Nat} {wires : List WireValue} {items : List α} :
    (decodeItems decodeItem i wires).result = .ok items ↔
      List.Forall₂ (fun wire item => (decodeItem wire).result = .ok item) wires items := by
  induction wires generalizing i items with
  | nil => simp [result_pure, eq_comm]
  | cons wire rest ih =>
    rw [decodeItems, List.forall₂_cons_left_iff]
    simp only [bind_ok_iff, within_ok_iff, result_releasingOnFault, result_pure, ih]
    constructor
    · intro h
      rcases h with ⟨others, ho, first, hf, h⟩
      cases h
      exact ⟨first, others, hf, ho, rfl⟩
    · intro h
      rcases h with ⟨first, others, hf, ho, rfl⟩
      exact ⟨others, ho, first, hf, rfl⟩

end Parts

/-- an entry of a host dictionary and the one of a wire dictionary that it is encoded as -/
def EncodesEntry (kind : KeyKind) (encodeItem : HostValue → Metered WireValue) (entry : HostKey × HostValue)
    (wire : WireKey × WireValue) : Prop :=
  entry.1.toWire kind = .ok wire.1 ∧ (encodeItem entry.2).result = .ok wire.2

/-- an entry of a wire dictionary and the one of a host dictionary that it is decoded as -/
def DecodesEntry (kind : KeyKind) (decodeItem : WireValue → Metered HostValue) (wire : WireKey × WireValue)
    (entry : HostKey × HostValue) : Prop :=
  wire.1.toHost kind = .ok entry.1 ∧ (decodeItem wire.2).result = .ok entry.2

theorem encodeEntries_ok_iff {kind : KeyKind} {encodeItem : HostValue → Metered WireValue}
    {built made : List (WireKey × WireValue)} {entries : List (HostKey × HostValue)} :
    (encodeEntries kind encodeItem built entries).result = .ok made ↔
      ∃ wires, List.Forall₂ (EncodesEntry kind encodeItem) entries wires ∧ made = Entries.putAll built wires := by
  induction entries generalizing built with
  | nil => simp [result_pure, eq_comm, Entries.putAll]
  | cons entry rest ih =>
    rw [encodeEntries]
    simp only [bind_ok_iff, within_ok_iff, result_releasingOnFault, result_ofExcept, result_release, ih,
      List.forall₂_cons_left_iff]
    constructor
    · intro h
      rcases h with ⟨key, hk, value, hv, -, -, wires, hw, rfl⟩
      exact ⟨_, ⟨(key, value), wires, ⟨hk, hv⟩, hw, rfl⟩, rfl⟩
    · intro h
      rcases h with ⟨_, ⟨⟨key, value⟩, wires, ⟨hk, hv⟩, hw, rfl⟩, rfl⟩
      exact ⟨key, hk, value, hv, (), trivial, wires, hw, rfl⟩

theorem decodeEntries_ok_iff {kind : KeyKind} {decodeItem : WireValue → Metered HostValue}
    {decoded made : List (HostKey × HostValue)} {wires : List (WireKey × WireValue)} :
    (decodeEntries kind decodeItem decoded wires).result = .ok made ↔
      ∃ entries, List.Forall₂ (DecodesEntry kind decodeItem) wires entries ∧
        made = Ordered.putAll HostKey.before decoded entries := by
  induction wires generalizing decoded with
  | nil => simp [result_pure, eq_comm, Ordered.putAll]
  | cons wire rest ih =>
    rw [decodeEntries]
    simp only [bind_ok_iff, within_ok_iff, result_releasingOnFault, result_ofExcept, ih, List.forall₂_cons_left_iff]
    constructor
    · intro h
      rcases h with ⟨key, hk, value, hv, entries, he, rfl⟩
      exact ⟨_, ⟨(key, value), entries, ⟨hk, hv⟩, he, rfl⟩, rfl⟩
    · intro h
      rcases h with ⟨_, ⟨⟨key, value⟩, entries, ⟨hk, hv⟩, he, rfl⟩, rfl⟩
      exact ⟨key, hk, value, hv, entries, he, rfl⟩

theorem encodeElems_ok_iff {i : Nat} {elems : List Signature} {items : List HostValue}
    {chain : List (Nat × WireValue)} (same : elems.length = items.length) :
    (encodeElems i elems items).result = .ok chain ↔
      ∃ wires, List.Forall₂ (fun elem wire => (encodeValue elem.1 elem.2).result = .ok wire) (elems.zip items) wires ∧
        chain = Chain.number i wires := by
  induction elems generalizing i items chain with
  | nil => simp [result_pure, eq_comm, Chain.number]
  | cons elem elems ih =>
    cases items with
    | nil => cases same
    | cons item items =>
      have same' : elems.length = items.length := Nat.succ.inj same
      rw [encodeElems, List.zip_cons_cons]
      simp only [bind_ok_iff, within_ok_iff, result_releasingOnFault, result_pure, ih same',
        List.forall₂_cons_left_iff]
      constructor
      · intro h
        rcases h with ⟨_, ⟨wires, hw, rfl⟩, first, hf, h⟩
        cases h
        exact ⟨_, ⟨first, wires, hf, hw, rfl⟩, rfl⟩
      · intro h
        rcases h with ⟨_, ⟨first, wires, hf, hw, rfl⟩, rfl⟩
        exact ⟨_, ⟨wires, hw, rfl⟩, first, hf, rfl⟩

theorem decodeElems_ok_iff {i : Nat} {elems : List Signature} {links : List (Nat × WireValue)}
    {items : List HostValue} (same : links.length = elems.length) :
    (decodeElems i elems links).result = .ok items ↔
      ∃ wires, links = Chain.number i wires ∧
        List.Forall₂ (fun elem item => (decodeValue elem.1 elem.2).result = .ok item) (elems.zip wires) items := by
  induction elems generalizing i links items with
  | nil =>
    obtain rfl := List.length_eq_zero_iff.1 same
    simp only [decodeElems, result_pure, List.zip_nil_left, List.forall₂_nil_left_iff, Except.ok.injEq]
    constructor
    · rintro rfl
      exact ⟨[], rfl, rfl⟩
    · intro h
      rcases h with ⟨-, -, rfl⟩
      rfl
  | cons elem elems ih =>
    cases links with
    | nil => cases same
    | cons link links =>
      obtain ⟨index, wire⟩ := link
      have same' : links.length = elems.length := Nat.succ.inj same
      rw [decodeElems]
      by_cases here : index = i
      · subst here
        simp only [if_pos, bind_ok_iff, within_ok_iff, result_releasingOnFault, result_pure, ih same']
        constructor
        · intro h
          rcases h with ⟨first, hf, others, ⟨wires, rfl, ho⟩, h⟩
          cases h
          exact ⟨wire :: wires, rfl, .cons hf ho⟩
        · intro h
          rcases h with ⟨wires, h, hi⟩
          cases wires with
          | nil => cases h
          | cons other wires =>
            cases h
            cases hi with
            | cons hf ho => exact ⟨_, hf, _, ⟨wires, rfl, ho⟩, rfl⟩
      · simp only [if_neg here, bind_ok_iff, result_fail, reduceCtorEq, and_false, exists_false, false_iff]
        intro h
        rcases h with ⟨wires, h, -⟩
        cases wires with
        | nil => cases h
        | cons other wires =>
          cases h
          exact here rfl

/-! ## Encoding, shape by shape -/

variable {access : Access} {value : HostValue} {wire : WireValue}

theorem result_encodeValue_primitive (access : Access) (kind : Primitive) (value : HostValue) :
    (encodeValue ⟨access, .primitive kind⟩ value).result = encodePrimitive ⟨access, .primitive kind⟩ kind value := by
  rw [encodeValue, encodeShape]
  cases encodePrimitive ⟨access, .primitive kind⟩ kind value <;> rfl

theorem encodeValue_tuple_ok_iff {elems : List Signature} :
    (encodeValue ⟨access, .tuple elems⟩ value).result = .ok wire ↔
      ∃ items wires, value = .tuple items ∧ elems.length = items.length ∧
        List.Forall₂ (fun elem wire => (encodeValue elem.1 elem.2).result = .ok wire) (elems.zip items) wires ∧
        wire = .tuple (Chain.number 0 wires) := by
  rw [encodeValue]
  cases value with
  | tuple items =>
    rw [encodeShape]
    split_ifs with same
    · simp only [bind_ok_iff, encodeElems_ok_iff same, result_create, Except.ok.injEq]
      constructor
      · intro h
        rcases h with ⟨_, ⟨wires, hw, rfl⟩, rfl⟩
        exact ⟨items, wires, rfl, same, hw, rfl⟩
      · intro h
        rcases h with ⟨_, wires, h, -, hw, rfl⟩
        cases h
        exact ⟨_, ⟨wires, hw, rfl⟩, rfl⟩
    · simp only [result_fail, reduceCtorEq, false_iff]
      intro h
      rcases h with ⟨_, wires, h, length, -⟩
      cases h
      exact same length
  | _ => simp [result_fail]

theorem encodeValue_list_ok_iff {elem : Signature} :
    (encodeValue ⟨access, .list elem⟩ value).result = .ok wire ↔
      ∃ items wires, value = .list items ∧
        List.Forall₂ (fun item wire => (elem.encodeValue item).result = .ok wire) items wires ∧ wire = .list wires := by
  rw [encodeValue]
  cases value with
  | list items =>
    simp only [encodeShape, bind_ok_iff, encodeItems_ok_iff, result_create, Except.ok.injEq]
    constructor
    · intro h
      rcases h with ⟨wires, hw, rfl⟩
      exact ⟨items, wires, rfl, hw, rfl⟩
    · intro h
      rcases h with ⟨_, wires, h, hw, rfl⟩
      cases h
      exact ⟨wires, hw, rfl⟩
  | _ => simp [result_fail]

theorem encodeValue_dict_ok_iff {kind : KeyKind} {item : Signature} :
    (encodeValue ⟨access, .dict kind item⟩ value).result = .ok wire ↔
      ∃ entries wires, value = .dict entries ∧ List.Forall₂ (EncodesEntry kind item.encodeValue) entries wires ∧
        wire = .dict kind (Entries.putAll [] wires) := by
  rw [encodeValue]
  cases value with
  | dict entries =>
    simp only [encodeShape, bind_ok_iff, encodeEntries_ok_iff, result_create, Except.ok.injEq]
    constructor
    · intro h
      rcases h with ⟨_, ⟨wires, hw, rfl⟩, rfl⟩
      exact ⟨entries, wires, rfl, hw, rfl⟩
    · intro h
      rcases h with ⟨_, wires, h, hw, rfl⟩
      cases h
      exact ⟨_, ⟨wires, hw, rfl⟩, rfl⟩
  | _ => simp [result_fail]

theorem encodeValue_hole_not_ok {head : Option Container} :
    ¬ (encodeValue ⟨access, .hole head⟩ value).result = .ok wire := by
  rw [encodeValue, encodeShape]
  nofun

theorem encodeValue_void_not_ok : ¬ (encodeValue ⟨access, .void⟩ value).result = .ok wire := by
  rw [encodeValue, encodeShape]
  nofun

/-! ## Decoding, shape by shape -/

theorem result_decodeValue_primitive (access : Access) (kind : Primitive) (wire : WireValue) :
    (decodeValue ⟨access, .primitive kind⟩ wire).result = decodePrimitive ⟨access, .primitive kind⟩ kind wire := by
  rw [decodeValue, decodeShape, result_bind]
  rfl

theorem decodeValue_tuple_ok_iff {elems : List Signature} :
    (decodeValue ⟨access, .tuple elems⟩ wire).result = .ok value ↔
      ∃ chain wires items, wire = .tuple chain ∧ chain.length = elems.length ∧
        Chain.drain chain = Chain.number 0 wires ∧
        List.Forall₂ (fun elem item => (decodeValue elem.1 elem.2).result = .ok item) (elems.zip wires) items ∧
        value = .tuple items := by
  rw [decodeValue]
  cases wire with
  | tuple chain =>
    rw [decodeShape]
    split_ifs with same
    · have drained : (Chain.drain chain).length = elems.length := (Chain.length_drain chain).trans same
      simp only [bind_ok_iff, decodeElems_ok_iff drained, result_release, result_pure, Except.ok.injEq]
      constructor
      · intro h
        rcases h with ⟨-, -, items, ⟨wires, numbered, hi⟩, rfl⟩
        exact ⟨chain, wires, items, rfl, same, numbered, hi, rfl⟩
      · intro h
        rcases h with ⟨_, wires, items, h, -, numbered, hi, rfl⟩
        cases h
        exact ⟨(), trivial, items, ⟨wires, numbered, hi⟩, rfl⟩
    · simp only [refuse_not_ok, false_iff]
      intro h
      rcases h with ⟨_, wires, items, h, length, -⟩
      cases h
      exact same length
  | _ => simp [refuse_not_ok]

theorem decodeValue_list_ok_iff {elem : Signature} :
    (decodeValue ⟨access, .list elem⟩ wire).result = .ok value ↔
      ∃ wires items, wire = .list wires ∧
        List.Forall₂ (fun wire item => (elem.decodeValue wire).result = .ok item) wires items ∧ value = .list items := by
  rw [decodeValue]
  cases wire with
  | list wires =>
    simp only [decodeShape, bind_ok_iff, decodeItems_ok_iff, result_release, result_pure, Except.ok.injEq]
    constructor
    · intro h
      rcases h with ⟨-, -, items, hi, rfl⟩
      exact ⟨wires, items, rfl, hi, rfl⟩
    · intro h
      rcases h with ⟨_, items, h, hi, rfl⟩
      cases h
      exact ⟨(), trivial, items, hi, rfl⟩
  | _ => simp [refuse_not_ok]

theorem decodeValue_dict_ok_iff {kind : KeyKind} {item : Signature} :
    (decodeValue ⟨access, .dict kind item⟩ wire).result = .ok value ↔
      ∃ wires entries, wire = .dict kind wires ∧ List.Forall₂ (DecodesEntry kind item.decodeValue) wires entries ∧
        value = .dict (HostKey.dictionary entries) := by
  rw [decodeValue]
  cases wire with
  | dict found wires =>
    rw [decodeShape]
    split_ifs with same
    · subst same
      simp only [bind_ok_iff, decodeEntries_ok_iff, result_release, result_pure, Except.ok.injEq]
      constructor
      · intro h
        rcases h with ⟨-, -, _, ⟨entries, he, rfl⟩, rfl⟩
        exact ⟨wires, entries, rfl, he, rfl⟩
      · intro h
        rcases h with ⟨_, entries, h, he, rfl⟩
        cases h
        exact ⟨(), trivial, _, ⟨entries, he, rfl⟩, rfl⟩
    · simp only [refuse_not_ok, false_iff]
      intro h
      rcases h with ⟨_, entries, h, -⟩
      cases h
      exact same rfl
  | _ => simp [refuse_not_ok]

theorem decodeValue_hole_not_ok {head : Option Container} :
    ¬ (decodeValue ⟨access, .hole head⟩ wire).result = .ok value := by
  rw [decodeValue, decodeShape]
  exact refuse_not_ok

theorem decodeValue_void_not_ok : ¬ (decodeValue ⟨access, .void⟩ wire).result = .ok value := by
  rw [decodeValue, decodeShape]
  exact refuse_not_ok

end NativeBridge.Signature
