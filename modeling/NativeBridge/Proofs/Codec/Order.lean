/-
The order in which dictionaries list their entries says nothing to the decoder, at whatever depth they stand.

- `WireValue.Everywhere`: what holds of a value and of all values inside it.
- `WireValue.Reordered`: the same wire value with the entries of its dictionaries listed in another order.
- `agree_decodeItems`: decoders of items that agree item by item agree on whole lists.
- `decodeValue_reordered`, `decode_reordered_iff`: the same host value is decoded, or none, whatever the order.
-/
import NativeBridge.Proofs.Codec.Success
import NativeBridge.Proofs.Key
import NativeBridge.Proofs.Outcomes
import NativeBridge.Proofs.Signature

namespace NativeBridge

namespace WireValue

/-- the property holds of the value and of every value inside it -/
inductive Everywhere (P : WireValue → Prop) : WireValue → Prop
  | text {t : WireText} (here : P (.text t)) : Everywhere P (.text t)
  | bool {b : Bool} (here : P (.bool b)) : Everywhere P (.bool b)
  | int {v : HostInt} (here : P (.int v)) : Everywhere P (.int v)
  | float32 {x : Binary32} (here : P (.float32 x)) : Everywhere P (.float32 x)
  | float64 {x : Binary64} (here : P (.float64 x)) : Everywhere P (.float64 x)
  | tuple {chain : List (Nat × WireValue)} (here : P (.tuple chain)) (parts : ∀ link ∈ chain, Everywhere P link.2) :
      Everywhere P (.tuple chain)
  | list {items : List WireValue} (here : P (.list items)) (parts : ∀ item ∈ items, Everywhere P item) :
      Everywhere P (.list items)
  | dict {kind : KeyKind} {entries : List (WireKey × WireValue)} (here : P (.dict kind entries))
      (parts : ∀ entry ∈ entries, Everywhere P entry.2) : Everywhere P (.dict kind entries)

section Everywhere

variable {P : WireValue → Prop}

theorem everywhere_tuple_iff {chain : List (Nat × WireValue)} :
    Everywhere P (.tuple chain) ↔ P (.tuple chain) ∧ ∀ link ∈ chain, Everywhere P link.2 := by
  constructor
  · rintro (_ | _ | _ | _ | _ | ⟨here, parts⟩)
    exact ⟨here, parts⟩
  · rintro ⟨here, parts⟩
    exact .tuple here parts

theorem everywhere_list_iff {items : List WireValue} :
    Everywhere P (.list items) ↔ P (.list items) ∧ ∀ item ∈ items, Everywhere P item := by
  constructor
  · rintro (_ | _ | _ | _ | _ | _ | ⟨here, parts⟩)
    exact ⟨here, parts⟩
  · rintro ⟨here, parts⟩
    exact .list here parts

theorem everywhere_dict_iff {kind : KeyKind} {entries : List (WireKey × WireValue)} :
    Everywhere P (.dict kind entries) ↔ P (.dict kind entries) ∧ ∀ entry ∈ entries, Everywhere P entry.2 := by
  constructor
  · rintro (_ | _ | _ | _ | _ | _ | _ | ⟨here, parts⟩)
    exact ⟨here, parts⟩
  · rintro ⟨here, parts⟩
    exact .dict here parts

variable [DecidablePred P]

mutual

/-- what holds everywhere is decided part by part -/
def decEverywhere : (value : WireValue) → Decidable (Everywhere P value)
  | .text t => decidable_of_iff (P (.text t)) ⟨.text, fun (.text here) => here⟩
  | .bool b => decidable_of_iff (P (.bool b)) ⟨.bool, fun (.bool here) => here⟩
  | .int v => decidable_of_iff (P (.int v)) ⟨.int, fun (.int here) => here⟩
  | .float32 x => decidable_of_iff (P (.float32 x)) ⟨.float32, fun (.float32 here) => here⟩
  | .float64 x => decidable_of_iff (P (.float64 x)) ⟨.float64, fun (.float64 here) => here⟩
  | .tuple chain => have := decEverywhereChain chain; decidable_of_iff _ everywhere_tuple_iff.symm
  | .list items => have := decEverywhereItems items; decidable_of_iff _ everywhere_list_iff.symm
  | .dict _ entries => have := decEverywhereEntries entries; decidable_of_iff _ everywhere_dict_iff.symm

/-- the same for the elements of a tuple -/
def decEverywhereChain : (chain : List (Nat × WireValue)) → Decidable (∀ link ∈ chain, Everywhere P link.2)
  | [] => isTrue (List.forall_mem_nil _)
  | (_, value) :: rest =>
    have := decEverywhere value
    have := decEverywhereChain rest
    decidable_of_iff _ List.forall_mem_cons.symm

/-- the same for the items of a list -/
def decEverywhereItems : (items : List WireValue) → Decidable (∀ item ∈ items, Everywhere P item)
  | [] => isTrue (List.forall_mem_nil _)
  | value :: rest =>
    have := decEverywhere value
    have := decEverywhereItems rest
    decidable_of_iff _ List.forall_mem_cons.symm

/-- the same for the values of a dictionary -/
def decEverywhereEntries : (entries : List (WireKey × WireValue)) → Decidable (∀ entry ∈ entries, Everywhere P entry.2)
  | [] => isTrue (List.forall_mem_nil _)
  | (_, value) :: rest =>
    have := decEverywhere value
    have := decEverywhereEntries rest
    decidable_of_iff _ List.forall_mem_cons.symm

end

instance : DecidablePred (Everywhere P) := decEverywhere

end Everywhere

/-- a dictionary lists each key once, and all its keys are of its kind -/
def KeysProper : WireValue → Prop
  | .dict kind entries => (entries.map Prod.fst).Nodup ∧ ∀ entry ∈ entries, entry.1.kind = kind
  | _ => True

instance : DecidablePred KeysProper
  | .dict kind entries =>
    inferInstanceAs (Decidable ((entries.map Prod.fst).Nodup ∧ ∀ entry ∈ entries, entry.1.kind = kind))
  | .text _ | .bool _ | .int _ | .float32 _ | .float64 _ | .tuple _ | .list _ => isTrue trivial

/-- the same value, but that dictionaries may list their entries in another order -/
inductive Reordered : WireValue → WireValue → Prop
  | text (t : WireText) : Reordered (.text t) (.text t)
  | bool (b : Bool) : Reordered (.bool b) (.bool b)
  | int (v : HostInt) : Reordered (.int v) (.int v)
  | float32 (x : Binary32) : Reordered (.float32 x) (.float32 x)
  | float64 (x : Binary64) : Reordered (.float64 x) (.float64 x)
  | tuple {chain other : List (Nat × WireValue)} (indices : chain.map Prod.fst = other.map Prod.fst)
      (elems : List.Forall₂ Reordered (chain.map Prod.snd) (other.map Prod.snd)) : Reordered (.tuple chain) (.tuple other)
  | list {items others : List WireValue} (parts : List.Forall₂ Reordered items others) :
      Reordered (.list items) (.list others)
  | dict {kind : KeyKind} {entries middle others : List (WireKey × WireValue)}
      (keys : entries.map Prod.fst = middle.map Prod.fst)
      (values : List.Forall₂ Reordered (entries.map Prod.snd) (middle.map Prod.snd)) (order : middle.Perm others) :
      Reordered (.dict kind entries) (.dict kind others)

/-- Every order is one in which the entries may be listed, also the one in which they are. -/
theorem Reordered.refl (value : WireValue) : Reordered value value := by
  refine @WireValue.rec (fun value => Reordered value value)
    (fun chain => List.Forall₂ Reordered (chain.map Prod.snd) (chain.map Prod.snd))
    (fun items => List.Forall₂ Reordered items items)
    (fun entries => List.Forall₂ Reordered (entries.map Prod.snd) (entries.map Prod.snd))
    (fun link => Reordered link.2 link.2) (fun entry => Reordered entry.2 entry.2) .text .bool .int .float32 .float64
    ?_ ?_ ?_ ?_ ?_ ?_ ?_ ?_ ?_ ?_ ?_ value
  · exact fun chain elems => .tuple rfl elems
  · exact fun items parts => .list parts
  · exact fun kind entries values => .dict rfl values (.refl entries)
  · exact .nil
  · exact fun link rest first others => .cons first others
  · exact .nil
  · exact fun item rest first others => .cons first others
  · exact .nil
  · exact fun entry rest first others => .cons first others
  · exact fun index item here => here
  · exact fun key item here => here

end WireValue

/-! ## Lists of pairs -/

section Pairs

variable {K α β : Type} {R : α → β → Prop}

/-- equal first components and related second ones -/
theorem forall₂_pairs {as : List (K × α)} {bs : List (K × β)} (first : as.map Prod.fst = bs.map Prod.fst)
    (second : List.Forall₂ R (as.map Prod.snd) (bs.map Prod.snd)) :
    List.Forall₂ (fun a b => a.1 = b.1 ∧ R a.2 b.2) as bs := by
  induction as generalizing bs with
  | nil =>
    cases bs with
    | nil => exact .nil
    | cons b bs => cases first
  | cons a as ih =>
    cases bs with
    | nil => cases first
    | cons b bs =>
      obtain ⟨here, there⟩ := List.cons.inj first
      obtain ⟨here', there'⟩ := List.forall₂_cons.1 second
      exact .cons ⟨here, here'⟩ (ih there there')

theorem insertByIndex_pairs {as : List (Nat × α)} {bs : List (Nat × β)} {a : Nat × α} {b : Nat × β}
    (link : a.1 = b.1 ∧ R a.2 b.2) (h : List.Forall₂ (fun a b => a.1 = b.1 ∧ R a.2 b.2) as bs) :
    List.Forall₂ (fun a b => a.1 = b.1 ∧ R a.2 b.2) (Chain.insertByIndex a as) (Chain.insertByIndex b bs) := by
  induction h with
  | nil => exact .cons link .nil
  | @cons c d as bs first rest ih =>
    rw [Chain.insertByIndex, Chain.insertByIndex, link.1, first.1]
    split_ifs
    · exact .cons link (.cons first rest)
    · exact .cons first ih

theorem drain_pairs {as : List (Nat × α)} {bs : List (Nat × β)}
    (h : List.Forall₂ (fun a b => a.1 = b.1 ∧ R a.2 b.2) as bs) :
    List.Forall₂ (fun a b => a.1 = b.1 ∧ R a.2 b.2) (Chain.drain as) (Chain.drain bs) := by
  induction h with
  | nil => exact .nil
  | cons first _ ih => exact insertByIndex_pairs first ih

theorem take?_pairs {as : List (Nat × α)} {bs : List (Nat × β)}
    (h : List.Forall₂ (fun a b => a.1 = b.1 ∧ R a.2 b.2) as bs) (i : Nat) :
    Option.Rel (fun x y => R x.1 y.1 ∧ List.Forall₂ (fun a b => a.1 = b.1 ∧ R a.2 b.2) x.2 y.2)
      (Chain.take? i as) (Chain.take? i bs) := by
  induction h with
  | nil => exact .none
  | @cons a b as bs first rest ih =>
    obtain ⟨index, x⟩ := a
    obtain ⟨_, y⟩ := b
    obtain ⟨rfl, here⟩ := first
    rw [Chain.take?, Chain.take?]
    split_ifs
    · exact .some ⟨here, rest⟩
    · generalize Chain.take? i as = taken, Chain.take? i bs = taken' at ih
      cases ih with
      | none => exact .none
      | some pair => exact .some ⟨pair.1, .cons ⟨rfl, here⟩ pair.2⟩

end Pairs

/-! ## Decoders of parts -/

namespace Signature

open WireValue (Everywhere KeysProper Reordered)

section Items

variable {α β : Type} {R : α → β → Prop} {Q : Fault → Fault → Prop} {decode : WireValue → Metered α}
  {decode' : WireValue → Metered β}

/-- Decoders of items that agree item by item agree on whole lists. -/
theorem agree_decodeItems (deeper : ∀ step f g, Q f g → Q (f.within step) (g.within step)) {items others : List WireValue}
    (parts : List.Forall₂ (fun a b => Agree R Q (decode a).result (decode' b).result) items others) (i : Nat) :
    Agree (List.Forall₂ R) Q (decodeItems decode i items).result (decodeItems decode' i others).result := by
  induction parts generalizing i with
  | nil => exact .value .nil
  | cons first _ ih =>
    rw [decodeItems, decodeItems]
    refine ((ih (i + 1)).releasingOnFault _ _).bind fun rest rest' more => ?_
    refine (first.within (.index i) (deeper (.index i))).bind fun a b here => ?_
    exact .value (.cons here more)

end Items

/-- what two computations give, faults aside -/
abbrev SameValue (x y : Metered HostValue) : Prop := Agree (· = ·) (fun _ _ => True) x.result y.result

theorem agree_decodeElems {elems : List Signature} {links others : List (Nat × WireValue)}
    (same : List.Forall₂ (fun a b => a.1 = b.1 ∧ ∀ elem ∈ elems, SameValue (elem.decodeValue a.2) (elem.decodeValue b.2))
      links others) (i : Nat) :
    Agree (· = ·) (fun _ _ => True) (decodeElems i elems links).result (decodeElems i elems others).result := by
  induction elems generalizing links others i with
  | nil => exact .value rfl
  | cons elem elems ih =>
    cases same with
    | nil => exact .value rfl
    | @cons a b links others first rest =>
      obtain ⟨index, item⟩ := a
      obtain ⟨_, item'⟩ := b
      obtain ⟨rfl, parts⟩ := first
      obtain ⟨here, -⟩ := List.forall_mem_cons.1 parts
      have others := ih (rest.imp fun _ _ pair => ⟨pair.1, (List.forall_mem_cons.1 pair.2).2⟩) (i + 1)
      rw [decodeElems, decodeElems]
      dsimp only
      split_ifs
      · refine ((here.within (.index i) fun _ _ _ => trivial).releasingOnFault _ _).bind ?_
        rintro first _ rfl
        refine others.bind ?_
        rintro rest _ rfl
        exact .value rfl
      · exact .fault trivial

theorem decodesEntries_iff {kind : KeyKind} {item : Signature} {entries middle : List (WireKey × WireValue)}
    {decoded : List (HostKey × HostValue)}
    (same : List.Forall₂ (fun a b => a.1 = b.1 ∧ SameValue (item.decodeValue a.2) (item.decodeValue b.2)) entries middle) :
    List.Forall₂ (DecodesEntry kind item.decodeValue) entries decoded ↔
      List.Forall₂ (DecodesEntry kind item.decodeValue) middle decoded := by
  induction same generalizing decoded with
  | nil => rfl
  | @cons a b entries middle first _ ih =>
    have here (entry : HostKey × HostValue) :
        DecodesEntry kind item.decodeValue a entry ↔ DecodesEntry kind item.decodeValue b entry := by
      rw [DecodesEntry, DecodesEntry, first.1, agree_eq_iff.1 first.2]
    simp only [List.forall₂_cons_left_iff, here, ih]

/-- A dictionary gives the same however its entries are listed, since no two of its keys are the same to the host. -/
theorem dictionary_of_decodesEntries {kind : KeyKind} {item : Signature} {entries others : List (WireKey × WireValue)}
    {decoded : List (HostKey × HostValue)} (nodup : (entries.map Prod.fst).Nodup) (order : others.Perm entries)
    (h : List.Forall₂ (DecodesEntry kind item.decodeValue) entries decoded) :
    ∃ decoded', List.Forall₂ (DecodesEntry kind item.decodeValue) others decoded' ∧
      HostKey.dictionary decoded' = HostKey.dictionary decoded := by
  obtain ⟨decoded', h', perm⟩ := List.perm_comp_forall₂ order h
  have different : (decoded.map Prod.fst).Nodup :=
    nodup_keys_of_forall₂ (WireKey.biUnique_toHost kind) (h.imp fun _ _ entry => entry.1) nodup
  exact ⟨decoded', h', (Ordered.putAll_eq_of_perm different perm.symm).symm⟩

/-- pairs of an index and a value that are the same but for the order of dictionaries, as they are drained -/
theorem agree_drained {elems : List Signature} {chain other : List (Nat × WireValue)}
    (parts : ∀ elem ∈ elems, ∀ {wire other : WireValue}, wire.Everywhere KeysProper → wire.Reordered other →
      SameValue (elem.decodeValue wire) (elem.decodeValue other))
    (proper : ∀ link ∈ chain, link.2.Everywhere KeysProper)
    (same : List.Forall₂ (fun a b => a.1 = b.1 ∧ Reordered a.2 b.2) chain other) :
    Agree (· = ·) (fun _ _ => True) (decodeElems 0 elems (Chain.drain chain)).result
      (decodeElems 0 elems (Chain.drain other)).result := by
  apply agree_decodeElems
  apply drain_pairs (R := fun a b => ∀ elem ∈ elems, SameValue (elem.decodeValue a) (elem.decodeValue b))
  refine ((List.forall₂_and_left chain other).2 ⟨proper, same⟩).imp ?_
  rintro a b ⟨proper, index, same⟩
  exact ⟨index, fun elem mem => parts elem mem proper same⟩

/-- **The order of dictionaries does not matter to the decoder.** -/
theorem decodeValue_reordered {s : Signature} {wire other : WireValue} (proper : wire.Everywhere KeysProper)
    (same : wire.Reordered other) : SameValue (s.decodeValue wire) (s.decodeValue other) := by
  induction s using Signature.induction generalizing wire other with
  | primitive access kind =>
    rw [SameValue, result_decodeValue_primitive, result_decodeValue_primitive]
    cases same with
    | tuple => cases kind <;> exact .fault trivial
    | list => cases kind <;> exact .fault trivial
    | dict => cases kind <;> exact .fault trivial
    | _ => exact agree_eq_iff.2 fun _ => .rfl
  | tuple access elems parts =>
    cases same with
    | @tuple chain other indices values =>
      obtain ⟨-, proper⟩ := WireValue.everywhere_tuple_iff.1 proper
      have length : chain.length = other.length := by simpa using congrArg List.length indices
      rw [SameValue, decodeValue, decodeValue, decodeShape, decodeShape, length]
      split_ifs
      · refine (agree_drained parts proper (forall₂_pairs indices values)).bind ?_
        rintro items _ rfl
        exact .value rfl
      · exact .fault trivial
    | _ => exact .fault trivial
  | list access elem part =>
    cases same with
    | @list items others same =>
      obtain ⟨-, proper⟩ := WireValue.everywhere_list_iff.1 proper
      have sameItems : List.Forall₂ (fun a b => SameValue (elem.decodeValue a) (elem.decodeValue b)) items others :=
        ((List.forall₂_and_left items others).2 ⟨proper, same⟩).imp fun _ _ pair => part pair.1 pair.2
      rw [SameValue, decodeValue, decodeValue, decodeShape, decodeShape]
      refine (agree_decodeItems (fun _ _ _ _ => trivial) sameItems 0).bind ?_
      intro decoded decoded' equal
      rw [List.forall₂_eq_eq_eq] at equal
      exact .value (congrArg HostValue.list equal)
    | _ => exact .fault trivial
  | dict access kind item part =>
    cases same with
    | @dict found entries middle others keys values order =>
      obtain ⟨⟨nodup, -⟩, proper⟩ := WireValue.everywhere_dict_iff.1 proper
      have sameEntries : List.Forall₂ (fun a b => a.1 = b.1 ∧ SameValue (item.decodeValue a.2) (item.decodeValue b.2))
          entries middle :=
        ((List.forall₂_and_left entries middle).2 ⟨proper, forall₂_pairs keys values⟩).imp fun _ _ pair =>
          ⟨pair.2.1, part pair.1 pair.2.2⟩
      have nodupMiddle : (middle.map Prod.fst).Nodup := keys ▸ nodup
      have nodupOthers : (others.map Prod.fst).Nodup := (order.map Prod.fst).nodup_iff.1 nodupMiddle
      apply agree_eq_iff.2
      intro value
      rw [decodeValue_dict_ok_iff, decodeValue_dict_ok_iff]
      constructor
      · rintro ⟨_, decoded, whole, h, rfl⟩
        cases whole
        obtain ⟨decoded', h', equal⟩ :=
          dictionary_of_decodesEntries nodupMiddle order.symm ((decodesEntries_iff sameEntries).1 h)
        exact ⟨others, decoded', rfl, h', congrArg HostValue.dict equal.symm⟩
      · rintro ⟨_, decoded, whole, h, rfl⟩
        cases whole
        obtain ⟨decoded', h', equal⟩ := dictionary_of_decodesEntries nodupOthers order h
        exact ⟨entries, decoded', rfl, (decodesEntries_iff sameEntries).2 h', congrArg HostValue.dict equal.symm⟩
    | _ => exact .fault trivial
  | hole access head => exact .fault trivial
  | void access => exact .fault trivial

/-- Whether there is a hole in the signature does not depend on the value, and so the order counts for nothing in the decoder as
a whole. -/
theorem decode_reordered_iff {s : Signature} {wire other : WireValue} (proper : wire.Everywhere KeysProper)
    (same : wire.Reordered other) (value : HostValue) :
    (s.decode wire).result = .ok value ↔ (s.decode other).result = .ok value := by
  rw [decode_ok_iff, decode_ok_iff, agree_eq_iff.1 (decodeValue_reordered proper same) value]

end Signature

end NativeBridge
