/-
Wire values are read alike in whatever order their dictionaries list the entries, as host values and as native values, and
nothing in a dictionary is lost.

- `Reordered`, `KeptIn`: native values that differ at most by the order in the wire values inside, and what is kept of a wire
  value in a native one.
- `ofWire_reordered`: the same native value is taken out, or none, whatever the order.
- `keptIn_of_ofWire`: a map has an entry for each entry of the dictionary.
- `read_in_any_order`: both ways of reading.
-/
import NativeBridge.Proofs.Codec.Entries
import NativeBridge.Proofs.NativeType.RoundTrip

namespace NativeBridge

namespace NativeType

open WireValue (KeysProper)
open Signature (agree_decodeItems)

/-! ## All native types -/

/-- **Induction over native types**: the types of the parts come first. -/
theorem induction {P : NativeType → Prop} (int : ∀ w, P (.int w)) (float32 : P .float32) (float64 : P .float64)
    (bool : P .bool) (text : P .text) (wire : P .wire) (list : ∀ elem, P elem → P (.list elem))
    (tuple : ∀ elems, (∀ elem ∈ elems, P elem) → P (.tuple elems)) (map : ∀ key value, P value → P (.map key value))
    (t : NativeType) : P t := by
  refine @NativeType.rec P (fun elems => ∀ elem ∈ elems, P elem) int float32 float64 bool text wire list tuple map ?_ ?_ t
  · exact List.forall_mem_nil P
  · exact fun elem rest first others => List.forall_mem_cons.2 ⟨first, others⟩

mutual

/-- the same value, but that the wire values in it may list the entries of their dictionaries in another order -/
def Reordered : (t : NativeType) → t.Value → t.Value → Prop
  | wire, x, y => WireValue.Reordered x y
  | list elem, xs, ys => List.Forall₂ (Reordered elem) xs ys
  | tuple elems, xs, ys => AllReordered elems xs ys
  | map _ value, xs, ys => List.Forall₂ (fun a b => a.1 = b.1 ∧ Reordered value a.2 b.2) xs ys
  | int _, x, y => x = y
  | float32, x, y => x = y
  | float64, x, y => x = y
  | bool, x, y => x = y
  | text, x, y => x = y

/-- the same for the elements of a tuple -/
def AllReordered : (ts : List NativeType) → Values ts → Values ts → Prop
  | [], _, _ => True
  | t :: ts, (x, xs), (y, ys) => Reordered t x y ∧ AllReordered ts xs ys

end

mutual

/-- every part of the wire value has its part in the native value; a map has exactly as many entries as the dictionary, and they
stand under its keys -/
def KeptIn : (t : NativeType) → WireValue → t.Value → Prop
  | int _, value, x => ∃ v : HostInt, value = .int v ∧ v.val = x.val
  | float32, value, x => value = .float32 x
  | float64, value, x => value = .float64 x
  | bool, value, b => value = .bool b
  | text, value, s => ∃ t : WireText, value = .text t ∧ t.toString? = some s
  | wire, value, x => value = x
  | list elem, value, xs => ∃ items, value = .list items ∧ List.Forall₂ (KeptIn elem) items xs
  | tuple elems, value, xs => ∃ chain, value = .tuple chain ∧ AllKeptIn 0 elems chain xs
  | map key item, value, xs => ∃ entries middle, value = .dict key entries ∧ xs.length = entries.length ∧
      List.Forall₂ (fun entry read => key.toKey read.1 = entry.1 ∧ KeptIn item entry.2 read.2) entries middle ∧
      middle.Perm xs

/-- the same for the elements of a tuple from the index `i` on, which are found in the chain by their indices -/
def AllKeptIn (i : Nat) : (ts : List NativeType) → List (Nat × WireValue) → Values ts → Prop
  | [], _, _ => True
  | t :: ts, chain, (x, xs) =>
    ∃ item rest, Chain.take? i chain = some (item, rest) ∧ KeptIn t item x ∧ AllKeptIn (i + 1) ts rest xs

end

/-! ## The order of entries -/

theorem agree_ofChain_reordered {elems : List NativeType}
    (parts : ∀ elem ∈ elems, ∀ {value other : WireValue}, value.Everywhere KeysProper → value.Reordered other →
      Agree (Reordered elem) (fun _ _ => True) (elem.ofWire value).result (elem.ofWire other).result)
    {chain other : List (Nat × WireValue)} (proper : ∀ link ∈ chain, link.2.Everywhere KeysProper)
    (same : List.Forall₂ (fun a b => a.1 = b.1 ∧ a.2.Reordered b.2) chain other) (i : Nat) :
    Agree (AllReordered elems) (fun _ _ => True) (ofChain i elems chain).result (ofChain i elems other).result := by
  induction elems generalizing chain other i with
  | nil => exact .value trivial
  | cons t ts ih =>
    obtain ⟨part, parts⟩ := List.forall_mem_cons.1 parts
    have taken := take?_pairs same i
    cases found : Chain.take? i chain with
    | none =>
      rw [found] at taken
      generalize there : Chain.take? i other = found' at taken
      cases taken
      rw [ofChain, ofChain, found, there]
      exact .fault trivial
    | some first =>
      obtain ⟨item, rest⟩ := first
      rw [found] at taken
      generalize there : Chain.take? i other = found' at taken
      cases taken with
      | @some _ first pair =>
        obtain ⟨item', rest'⟩ := first
        obtain ⟨sameItem, sameRest⟩ := pair
        have perm := Chain.take?_perm found
        have properItem := proper _ (perm.mem_iff.2 List.mem_cons_self)
        have properRest := fun link mem => proper link (perm.mem_iff.2 (List.mem_cons_of_mem _ mem))
        rw [ofChain, ofChain, found, there]
        refine (((part properItem sameItem).within (.index i) fun _ _ _ => trivial).releasingOnFault _ _).bind ?_
        intro x y here
        refine (ih parts properRest sameRest (i + 1)).bind ?_
        intro xs ys others
        exact .value ⟨here, others⟩

section Entries

variable {α : Type} {kind : KeyKind} {f : WireValue → Metered α} {R : α → α → Prop}

/-- in the same order, entries that are read alike one by one are read alike together -/
theorem agree_decodeEntries_pairs {wires others : List (WireKey × WireValue)} {decoded decoded' : List (kind.Value × α)}
    (same : List.Forall₂ (fun a b => a.1 = b.1 ∧ Agree R (fun _ _ => True) (f a.2).result (f b.2).result) wires others)
    (before : List.Forall₂ (fun a b => a.1 = b.1 ∧ R a.2 b.2) decoded decoded') :
    Agree (List.Forall₂ fun a b => a.1 = b.1 ∧ R a.2 b.2) (fun _ _ => True) (decodeEntries kind f decoded wires).result
      (decodeEntries kind f decoded' others).result := by
  induction same generalizing decoded decoded' with
  | nil => exact .value before
  | @cons wire other wires others first _ ih =>
    obtain ⟨key, item⟩ := wire
    obtain ⟨_, item'⟩ := other
    obtain ⟨rfl, here⟩ := first
    rw [decodeEntries, decodeEntries]
    refine ((here.within .value fun _ _ _ => trivial).releasingOnFault _ _).bind ?_
    intro x y same
    cases kind.ofKey? key with
    | none => exact .fault trivial
    | some native => exact ih (Ordered.put_pairs same before)

/-- no two keys of a dictionary are the same to a native map -/
theorem biUnique_toKey (kind : KeyKind) : Relator.BiUnique fun (wire : WireKey) (key : kind.Value) => kind.toKey key = wire :=
  ⟨fun _ _ _ ha hb => ha.symm.trans hb, fun _ _ _ ha hb => KeyKind.toKey_injective (ha.trans hb.symm)⟩

theorem nodup_of_read {entries : List (kind.Value × α)} {wires : List (WireKey × WireValue)}
    (nodup : (wires.map Prod.fst).Nodup)
    (read : List.Forall₂ (fun entry wire => kind.toKey entry.1 = wire.1 ∧ (f wire.2).result = .ok entry.2) entries wires) :
    (entries.map Prod.fst).Nodup :=
  nodup_keys_of_forall₂ (biUnique_toKey kind) (read.flip.imp fun _ _ pair => pair.1) nodup

/-- in another order, the same map is made of the same entries -/
theorem decodeEntries_perm {wires others : List (WireKey × WireValue)} {made : List (kind.Value × α)}
    (nodup : (wires.map Prod.fst).Nodup) (perm : wires.Perm others) (h : (decodeEntries kind f [] wires).result = .ok made) :
    (decodeEntries kind f [] others).result = .ok made := by
  obtain ⟨entries, read, rfl⟩ := decodeEntries_ok_iff.1 h
  obtain ⟨entries', read', order⟩ := List.perm_comp_forall₂ perm.symm read.flip
  exact decodeEntries_ok_iff.2 ⟨entries', read'.flip, Ordered.putAll_eq_of_perm (nodup_of_read nodup read) order.symm⟩

end Entries

/-- **The order of dictionaries does not matter to native values.** -/
theorem ofWire_reordered {t : NativeType} {value other : WireValue} (proper : value.Everywhere KeysProper)
    (same : value.Reordered other) :
    Agree (Reordered t) (fun _ _ => True) (t.ofWire value).result (t.ofWire other).result := by
  induction t using NativeType.induction generalizing value other with
  | wire => exact .value same
  | list elem part =>
    cases same with
    | @list items others same =>
      obtain ⟨-, proper⟩ := WireValue.everywhere_list_iff.1 proper
      have sameItems : List.Forall₂ (fun a b => Agree (Reordered elem) (fun _ _ => True) (elem.ofWire a).result
          (elem.ofWire b).result) items others :=
        ((List.forall₂_and_left items others).2 ⟨proper, same⟩).imp fun _ _ pair => part pair.1 pair.2
      exact agree_decodeItems (fun _ _ _ _ => trivial) sameItems 0
    | _ => exact .fault trivial
  | tuple elems parts =>
    cases same with
    | @tuple chain other indices values =>
      obtain ⟨-, proper⟩ := WireValue.everywhere_tuple_iff.1 proper
      have length : chain.length = other.length := by simpa using congrArg List.length indices
      rw [ofWire, ofWire, length]
      split_ifs
      · exact agree_ofChain_reordered parts proper (forall₂_pairs indices values) 0
      · exact .fault trivial
    | _ => exact .fault trivial
  | map key item part =>
    cases same with
    | @dict found entries middle others keys values order =>
      obtain ⟨⟨nodup, -⟩, proper⟩ := WireValue.everywhere_dict_iff.1 proper
      have sameEntries : List.Forall₂ (fun a b => a.1 = b.1 ∧ Agree (Reordered item) (fun _ _ => True)
          (item.ofWire a.2).result (item.ofWire b.2).result) entries middle :=
        ((List.forall₂_and_left entries middle).2 ⟨proper, forall₂_pairs keys values⟩).imp fun _ _ pair =>
          ⟨pair.2.1, part pair.1 pair.2.2⟩
      have nodupMiddle : (middle.map Prod.fst).Nodup := keys ▸ nodup
      have nodupOthers : (others.map Prod.fst).Nodup := (order.map Prod.fst).nodup_iff.1 nodupMiddle
      rw [ofWire, ofWire]
      split_ifs
      · -- first the values change in their places, then the entries change places
        refine (agree_decodeEntries_pairs sameEntries .nil).of_same_values fun made => ?_
        exact ⟨decodeEntries_perm nodupMiddle order, decodeEntries_perm nodupOthers order.symm⟩
      · exact .fault trivial
    | _ => exact .fault trivial
  | _ =>
    -- a scalar is the same in every order, and a container is refused
    cases same with
    | tuple => exact .fault trivial
    | list => exact .fault trivial
    | dict => exact .fault trivial
    | _ => exact agree_eq_iff.2 fun _ => .rfl

/-- values without wire values inside are the same as soon as they are the same but for the order -/
theorem eq_of_reordered {t : NativeType} (plain : t.Plain) {x y : t.Value} (same : t.Reordered x y) : x = y := by
  induction plain with
  | list _ part =>
    rw [← List.forall₂_eq_eq_eq]
    exact List.Forall₂.imp (fun _ _ => part) same
  | @tuple elems plain parts =>
    clear plain
    replace same : AllReordered elems x y := same
    induction elems with
    | nil => rfl
    | cons elem elems ih =>
      obtain ⟨first, others⟩ := x
      obtain ⟨first', others'⟩ := y
      obtain ⟨here, there⟩ := List.forall_mem_cons.1 parts
      exact Prod.ext (here same.1) (ih there same.2)
  | map _ part =>
    rw [← List.forall₂_eq_eq_eq]
    exact List.Forall₂.imp (fun _ _ pair => Prod.ext pair.1 (part pair.2)) same
  | _ => exact same

/-! ## What is kept -/

theorem allKeptIn_of_ofChain {elems : List NativeType}
    (parts : ∀ elem ∈ elems, ∀ {value : WireValue} {x : elem.Value}, value.Everywhere KeysProper →
      (elem.ofWire value).result = .ok x → elem.KeptIn value x)
    {chain : List (Nat × WireValue)} (proper : ∀ link ∈ chain, link.2.Everywhere KeysProper) {i : Nat} {xs : Values elems}
    (h : (ofChain i elems chain).result = .ok xs) : AllKeptIn i elems chain xs := by
  induction elems generalizing chain i with
  | nil => trivial
  | cons t ts ih =>
    obtain ⟨part, parts⟩ := List.forall_mem_cons.1 parts
    rw [ofChain] at h
    split at h
    · cases h
    next item rest found =>
    obtain ⟨x, here, h⟩ := Metered.bind_ok_iff.1 h
    obtain ⟨others, there, h⟩ := Metered.bind_ok_iff.1 h
    rw [Metered.result_releasingOnFault, Metered.within_ok_iff] at here
    cases h
    have perm := Chain.take?_perm found
    have properItem := proper _ (perm.mem_iff.2 List.mem_cons_self)
    have properRest := fun link mem => proper link (perm.mem_iff.2 (List.mem_cons_of_mem _ mem))
    exact ⟨item, rest, found, part properItem here, ih parts properRest there⟩

/-- **No entry is lost**, since no two keys are the same to a native map. -/
theorem keptIn_of_ofWire {t : NativeType} {value : WireValue} {x : t.Value} (proper : value.Everywhere KeysProper)
    (h : (t.ofWire value).result = .ok x) : t.KeptIn value x := by
  induction t using NativeType.induction generalizing value with
  | int w =>
    cases value with
    | int v =>
      have read : nativeInt w v = .ok x := h
      unfold nativeInt at read
      split at read
      next found fits =>
        cases read
        exact ⟨v, rfl, BoundedInt.ofInt?_eq_some_iff.1 fits⟩
      next => cases read
    | _ => cases h
  | text =>
    cases value with
    | text t =>
      have read : nativeText t = .ok x := h
      unfold nativeText at read
      split at read
      next s valid =>
        cases read
        exact ⟨t, rfl, valid⟩
      next => cases read
    | _ => cases h
  | wire =>
    cases h
    rfl
  | list elem part =>
    cases value with
    | list items =>
      obtain ⟨-, proper⟩ := WireValue.everywhere_list_iff.1 proper
      obtain ⟨-, -, read⟩ := Metered.bind_ok_iff.1 h
      rw [Signature.decodeItems_ok_iff] at read
      exact ⟨items, rfl, ((List.forall₂_and_left items x).2 ⟨proper, read⟩).imp fun _ _ pair => part pair.1 pair.2⟩
    | _ => cases h
  | tuple elems parts =>
    cases value with
    | tuple chain =>
      obtain ⟨-, proper⟩ := WireValue.everywhere_tuple_iff.1 proper
      rw [ofWire] at h
      split_ifs at h
      · obtain ⟨-, -, read⟩ := Metered.bind_ok_iff.1 h
        exact ⟨chain, rfl, allKeptIn_of_ofChain parts proper read⟩
      · cases h
    | _ => cases h
  | map key item part =>
    cases value with
    | dict found entries =>
      obtain ⟨⟨nodup, -⟩, properValues⟩ := WireValue.everywhere_dict_iff.1 proper
      rw [ofWire] at h
      split_ifs at h with same
      · subst same
        obtain ⟨-, -, run⟩ := Metered.bind_ok_iff.1 h
        obtain ⟨middle, read, rfl⟩ := decodeEntries_ok_iff.1 run
        have perm : (mapOf middle).Perm middle := Ordered.putAll_nil_perm (nodup_of_read nodup read)
        refine ⟨entries, middle, rfl, perm.length_eq.trans read.length_eq, ?_, perm.symm⟩
        exact ((List.forall₂_and_left entries middle).2 ⟨properValues, read.flip⟩).imp fun _ _ pair =>
          ⟨pair.2.1, part pair.1 pair.2.2⟩
      · cases h
    | _ => cases h
  | float32 =>
    cases value with
    | float32 x =>
      cases h
      rfl
    | _ => cases h
  | float64 =>
    cases value with
    | float64 x =>
      cases h
      rfl
    | _ => cases h
  | bool =>
    cases value with
    | bool b =>
      cases h
      rfl
    | _ => cases h

end NativeType

namespace WireValue

/-- **A wire value is read alike in whatever order its dictionaries list their entries**, at every depth, as each lists a key
once. Under a signature, both orders give the same host value or none. As a native type, both give a native value or none, and
it is the same one, but that wire values which are taken out as they are keep the order they have. And every dictionary that is
read has as many entries as the dictionary on the wire. -/
theorem read_in_any_order (wire other : WireValue) (proper : wire.Everywhere KeysProper) (same : wire.Reordered other) :
    (∀ (s : Signature) (v : HostValue), ((s.decode wire).result = .ok v ↔ (s.decode other).result = .ok v) ∧
      ((s.decode wire).result = .ok v → wire.KeptIn v)) ∧
    ∀ t : NativeType,
      ((∃ x, (t.ofWire wire).result = .ok x) ↔ ∃ y, (t.ofWire other).result = .ok y) ∧
      (∀ x y, (t.ofWire wire).result = .ok x → (t.ofWire other).result = .ok y → t.Reordered x y) ∧
      (t.Plain → ∀ x, (t.ofWire wire).result = .ok x ↔ (t.ofWire other).result = .ok x) ∧
      ∀ x, (t.ofWire wire).result = .ok x → t.KeptIn wire x := by
  refine ⟨fun s v => ⟨Signature.decode_reordered_iff proper same v, Signature.keptIn_of_decode proper⟩, fun t => ?_⟩
  have agree := NativeType.ofWire_reordered (t := t) proper same
  refine ⟨agree.exists_ok_iff, ?_, ?_, fun x => NativeType.keptIn_of_ofWire proper⟩
  · intro x y taken taken'
    obtain ⟨y', found, related⟩ := agree.of_ok taken
    cases taken'.symm.trans found
    exact related
  · intro plain
    exact agree_eq_iff.1 (agree.imp (fun _ _ => NativeType.eq_of_reordered plain) fun _ _ _ => trivial)

/-- a dictionary of dictionaries, with the entries of the outer one and of one inside the other way round -/
theorem read_in_any_order_nested :
    let yes : WireKey × WireValue := (.int .u64 ⟨7, by decide⟩, .bool true)
    let no : WireKey × WireValue := (.int .u64 ⟨3, by decide⟩, .bool false)
    let full : WireKey × WireValue := (.bool true, .dict (.int .u64) [yes, no])
    let turned : WireKey × WireValue := (.bool true, .dict (.int .u64) [no, yes])
    let empty : WireKey × WireValue := (.bool false, .dict (.int .u64) [])
    let wire : WireValue := .dict .bool [full, empty]
    let other : WireValue := .dict .bool [empty, turned]
    let s : Signature := .owned (.dict .bool (.owned (.dict (.int .u64) (.owned (.primitive .bool)))))
    let t : NativeType := .map .bool (.map (.int .u64) .bool)
    (∃ v, (s.decode wire).result = .ok v ∧ (s.decode other).result = .ok v ∧ wire.KeptIn v) ∧
      ∃ x, (t.ofWire wire).result = .ok x ∧ (t.ofWire other).result = .ok x ∧ t.KeptIn wire x := by
  intro yes no full turned empty wire other s t
  have inside : full.2.Reordered turned.2 := .dict rfl (.cons (.refl _) (.cons (.refl _) .nil)) (.swap no yes [])
  have same : wire.Reordered other :=
    @Reordered.dict _ _ [turned, empty] _ rfl (.cons inside (.cons (.refl _) .nil)) (.swap empty turned [])
  obtain ⟨hosts, natives⟩ := read_in_any_order wire other (by decide) same
  obtain ⟨-, -, equal, kept⟩ := natives t
  have plain : t.Plain := .map (.map .bool)
  exact ⟨⟨_, rfl, ((hosts s _).1.1 rfl), (hosts s _).2 rfl⟩, _, rfl, (equal plain _).1 rfl, kept _ rfl⟩

end WireValue

end NativeBridge
