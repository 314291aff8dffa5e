/-
Native values on the way to the wire and back. A value that can be sent comes back, with its maps in order; nothing but a large
integer of 64 unsigned bits or a zero character in a string keeps it from being sent.

- `ReadAs`: a native value is taken out of a wire value, however the dictionaries in it list their entries.
- `roundTrips_list`, `roundTrips_tuple`, `roundTrips_map`: containers, given that their parts come back.
- `encodeEntries_ok_iff`, `decodeEntries_of_rel`: entries put into a dictionary, and the map that is made of a dictionary.
- `ofWire_toWire`: so it is for every type without wire values in it, and for dictionaries made of any entries.
-/
import NativeBridge.NativeType.Codec
import NativeBridge.Proofs.Codec.Fits
import NativeBridge.Proofs.Codec.Order
import NativeBridge.Proofs.IntWidth
import NativeBridge.Proofs.NativeType.Plain
import NativeBridge.Proofs.Text

namespace NativeBridge.NativeType

open Metered
open WireValue (Reordered)

/-- the native value is taken out of the wire value, however the dictionaries in it list their entries -/
def ReadAs (t : NativeType) (value : t.Value) (wire : WireValue) : Prop :=
  ∀ other, wire.Reordered other → (t.ofWire other).result = .ok value

/-- exactly the values that can be sent become wire values, and they are read back in order -/
structure RoundTrips (t : NativeType) : Prop where
  sent : ∀ value, (∃ wire, (t.toWire value).result = .ok wire) ↔ t.Sendable value
  read : ∀ {value wire}, (t.toWire value).result = .ok wire → t.ReadAs (t.ordered value) wire

/-! ## Numbers, truth values and strings -/

theorem createFrom_ok_iff {value : Except Fault WireValue} {wire : WireValue} :
    (createFrom value).result = .ok wire ↔ value = .ok wire := by
  cases value <;> exact Iff.rfl

theorem wireInt_ok_iff {w : IntWidth} {v : BoundedInt w} {wire : WireValue} :
    wireInt v = .ok wire ↔ ∃ value : HostInt, v.val = value.val ∧ wire = .int value := by
  unfold wireInt
  constructor
  · intro made
    split at made
    · next value fits =>
      cases made
      exact ⟨value, BoundedInt.ofInt?_eq_some_iff.1 fits, rfl⟩
    · cases made
  · rintro ⟨value, same, rfl⟩
    rw [BoundedInt.ofInt?_eq_some_iff.2 same]

theorem holds_i64_iff {w : IntWidth} (v : BoundedInt w) :
    IntWidth.i64.Holds v.val ↔ (w = .u64 → v.val ≤ IntWidth.i64.greatest) := by
  constructor
  · intro holds _
    exact holds.2
  · intro small
    by_cases narrow : w = .u64
    · subst narrow
      exact ⟨Int.le_trans (by decide) v.holds.1, small rfl⟩
    · exact IntWidth.holds_i64 narrow v.holds

theorem roundTrips_int (w : IntWidth) : RoundTrips (.int w) where
  sent v := by
    rw [toWire]
    simp only [createFrom_ok_iff, wireInt_ok_iff]
    refine Iff.trans ?_ (holds_i64_iff v)
    constructor
    · rintro ⟨_, value, same, -⟩
      exact same ▸ value.holds
    · intro holds
      exact ⟨_, ⟨v.val, holds⟩, rfl, rfl⟩
  read := by
    intro v wire made other same
    rw [toWire, createFrom_ok_iff, wireInt_ok_iff] at made
    obtain ⟨value, equal, rfl⟩ := made
    cases same
    show nativeInt w value = .ok v
    rw [nativeInt, BoundedInt.ofInt?_eq_some_iff.2 equal.symm]

theorem wireText_ok_iff {s : String} {wire : WireValue} :
    (WireText.ofString s).map WireValue.text = .ok wire ↔ ∃ t, WireText.ofString s = .ok t ∧ wire = .text t := by
  cases WireText.ofString s with
  | ok t => simp [Except.map, eq_comm]
  | error fault => simp [Except.map]

theorem roundTrips_text : RoundTrips .text where
  sent s := by
    rw [toWire]
    simp only [createFrom_ok_iff, wireText_ok_iff]
    refine Iff.trans ?_ WireText.exists_ofString_iff
    constructor
    · rintro ⟨_, t, made, -⟩
      exact ⟨t, made⟩
    · rintro ⟨t, made⟩
      exact ⟨_, t, made, rfl⟩
  read := by
    intro s wire made other same
    rw [toWire, createFrom_ok_iff, wireText_ok_iff] at made
    obtain ⟨t, made, rfl⟩ := made
    cases same
    show nativeText t = .ok s
    rw [nativeText, WireText.toString?_of_ofString? (WireText.ofString_ok_iff.1 made)]

theorem roundTrips_float32 : RoundTrips .float32 where
  sent x := ⟨fun _ => trivial, fun _ => ⟨_, rfl⟩⟩
  read := by
    rintro x _ ⟨⟩ _ ⟨⟩
    rfl

theorem roundTrips_float64 : RoundTrips .float64 where
  sent x := ⟨fun _ => trivial, fun _ => ⟨_, rfl⟩⟩
  read := by
    rintro x _ ⟨⟩ _ ⟨⟩
    rfl

theorem roundTrips_bool : RoundTrips .bool where
  sent b := ⟨fun _ => trivial, fun _ => ⟨_, rfl⟩⟩
  read := by
    rintro b _ ⟨⟩ _ ⟨⟩
    rfl

/-! ## Partners -/

section Partners

variable {α β γ : Type} {R : α → β → Prop} {S : β → γ → Prop} {T : α → γ → Prop}

theorem forall₂_comp {as : List α} {bs : List β} {cs : List γ} (step : ∀ a b c, R a b → S b c → T a c)
    (first : List.Forall₂ R as bs) (second : List.Forall₂ S bs cs) : List.Forall₂ T as cs := by
  induction first generalizing cs with
  | nil =>
    cases second
    exact .nil
  | cons here _ ih =>
    cases second with
    | cons there others => exact .cons (step _ _ _ here there) (ih others)

theorem rel_comp {a : Option α} {b : Option β} {c : Option γ} (step : ∀ a b c, R a b → S b c → T a c)
    (first : Option.Rel R a b) (second : Option.Rel S b c) : Option.Rel T a c := by
  cases first with
  | none =>
    cases second
    exact .none
  | some here =>
    cases second with
    | some there => exact .some (step _ _ _ here there)

theorem rel_leftUnique {a a' : Option α} {b : Option β} (unique : Relator.LeftUnique R) (first : Option.Rel R a b)
    (second : Option.Rel R a' b) : a = a' := by
  cases first with
  | none =>
    cases second
    rfl
  | some here =>
    cases second with
    | some there => exact congrArg some (unique here there)

end Partners

/-! ## Lists -/

theorem roundTrips_list {elem : NativeType} (part : RoundTrips elem) : RoundTrips (.list elem) where
  sent items := by
    rw [toWire]
    simp only [bind_ok_iff, Signature.encodeItems_ok_iff]
    constructor
    · rintro ⟨_, wires, made, -⟩
      intro item mem
      exact (part.sent item).1 (exists_forall₂_iff.1 ⟨wires, made⟩ item mem)
    · intro sendable
      obtain ⟨wires, made⟩ := exists_forall₂_iff.2 fun item mem => (part.sent item).2 (sendable item mem)
      exact ⟨_, wires, made, rfl⟩
  read := by
    intro items wire made other same
    rw [toWire] at made
    obtain ⟨wires, madeItems, whole⟩ := bind_ok_iff.1 made
    rw [Signature.encodeItems_ok_iff] at madeItems
    cases whole
    cases same with
    | @list _ others parts =>
      rw [ofWire, bind_ok_iff]
      refine ⟨(), rfl, Signature.decodeItems_ok_iff.2 ?_⟩
      show List.Forall₂ _ others (items.map elem.ordered)
      rw [List.forall₂_map_right_iff]
      have read := forall₂_comp (S := Reordered) (T := fun item other => (elem.ofWire other).result = .ok (elem.ordered item))
        (fun _ _ other made same => part.read made other same) madeItems parts
      exact read.flip

/-! ## Tuples -/

theorem allSendable_iff {elems : List NativeType} (parts : ∀ elem ∈ elems, RoundTrips elem) (i : Nat)
    (values : Values elems) : (∃ chain, (toChain i elems values).result = .ok chain) ↔ AllSendable elems values := by
  induction elems generalizing i with
  | nil => exact ⟨fun _ => trivial, fun _ => ⟨[], rfl⟩⟩
  | cons elem elems ih =>
    obtain ⟨first, others⟩ := values
    obtain ⟨here, there⟩ := List.forall_mem_cons.1 parts
    rw [toChain]
    simp only [bind_ok_iff, within_ok_iff, result_releasingOnFault]
    show _ ↔ elem.Sendable first ∧ AllSendable elems others
    rw [← here.sent first, ← ih there (i + 1) others]
    constructor
    · rintro ⟨_, wire, made, chain, rest, -⟩
      exact ⟨⟨wire, made⟩, chain, rest⟩
    · rintro ⟨⟨wire, made⟩, chain, rest⟩
      exact ⟨_, wire, made, chain, rest, rfl⟩

/-- The elements of a tuple, chained in order, are taken out one after the other, each from the head of what is left. -/
theorem ofChain_toChain {elems : List NativeType} (parts : ∀ elem ∈ elems, RoundTrips elem) {i : Nat} {values : Values elems}
    {chain other : List (Nat × WireValue)} (made : (toChain i elems values).result = .ok chain)
    (same : List.Forall₂ (fun a b => a.1 = b.1 ∧ Reordered a.2 b.2) chain other) :
    other.length = elems.length ∧ (ofChain i elems other).result = .ok (orderedElems elems values) := by
  induction elems generalizing i chain other with
  | nil =>
    cases made
    cases same
    exact ⟨rfl, rfl⟩
  | cons elem elems ih =>
    obtain ⟨first, others⟩ := values
    obtain ⟨here, there⟩ := List.forall_mem_cons.1 parts
    rw [toChain] at made
    simp only [bind_ok_iff, within_ok_iff, result_releasingOnFault] at made
    obtain ⟨wire, madeFirst, rest, madeRest, whole⟩ := made
    cases whole
    cases same with
    | @cons _ link _ links pair sameRest =>
      obtain ⟨index, item⟩ := link
      obtain ⟨rfl, sameFirst⟩ := pair
      obtain ⟨length, read⟩ := ih there madeRest sameRest
      refine ⟨congrArg (· + 1) length, ?_⟩
      have head : Chain.take? i ((i, item) :: links) = some (item, links) := if_pos rfl
      rw [ofChain, head]
      simp only [bind_ok_iff, within_ok_iff, result_releasingOnFault]
      exact ⟨_, here.read madeFirst item sameFirst, _, read, rfl⟩

theorem roundTrips_tuple {elems : List NativeType} (parts : ∀ elem ∈ elems, RoundTrips elem) : RoundTrips (.tuple elems) where
  sent values := by
    rw [toWire]
    simp only [bind_ok_iff]
    refine Iff.trans ?_ (allSendable_iff parts 0 values)
    constructor
    · rintro ⟨_, chain, made, -⟩
      exact ⟨chain, made⟩
    · rintro ⟨chain, made⟩
      exact ⟨_, chain, made, rfl⟩
  read := by
    intro values wire made other same
    rw [toWire] at made
    obtain ⟨chain, madeChain, whole⟩ := bind_ok_iff.1 made
    cases whole
    cases same with
    | @tuple _ links indices wires =>
      obtain ⟨length, read⟩ := ofChain_toChain parts madeChain (forall₂_pairs indices wires)
      rw [ofWire, if_pos length, bind_ok_iff]
      exact ⟨(), rfl, read⟩

/-! ## Maps -/

section Maps

variable {α : Type} {kind : KeyKind}

theorem encodeEntries_ok_iff {f : α → Metered WireValue} {built made : List (WireKey × WireValue)}
    {entries : List (kind.Value × α)} :
    (encodeEntries kind f built entries).result = .ok made ↔
      ∃ wires, List.Forall₂ (fun entry wire => kind.toKey entry.1 = wire.1 ∧ (f entry.2).result = .ok wire.2) entries wires ∧
        made = Entries.putAll built wires := by
  induction entries generalizing built with
  | nil => simp [encodeEntries, result_pure, eq_comm, Entries.putAll]
  | cons entry rest ih =>
    rw [encodeEntries]
    simp only [bind_ok_iff, within_ok_iff, result_releasingOnFault, result_release, ih, List.forall₂_cons_left_iff]
    constructor
    · rintro ⟨value, made, -, -, wires, others, rfl⟩
      exact ⟨_, ⟨(kind.toKey entry.1, value), wires, ⟨rfl, made⟩, others, rfl⟩, rfl⟩
    · rintro ⟨_, ⟨⟨_, value⟩, wires, ⟨rfl, made⟩, others, rfl⟩, rfl⟩
      exact ⟨value, made, (), trivial, wires, others, rfl⟩

theorem exists_encodeEntries_iff {f : α → Metered WireValue} {entries : List (kind.Value × α)} :
    (∃ made, (encodeEntries kind f [] entries).result = .ok made) ↔
      ∀ entry ∈ entries, ∃ wire, (f entry.2).result = .ok wire := by
  simp only [encodeEntries_ok_iff]
  constructor
  · rintro ⟨_, wires, made, -⟩
    intro entry mem
    obtain ⟨wire, -, made⟩ := exists_forall₂_iff.1 ⟨wires, made⟩ entry mem
    exact ⟨wire.2, made⟩
  · intro parts
    have partners : ∀ entry ∈ entries, ∃ wire : WireKey × WireValue,
        kind.toKey entry.1 = wire.1 ∧ (f entry.2).result = .ok wire.2 := by
      intro entry mem
      obtain ⟨wire, made⟩ := parts entry mem
      exact ⟨(kind.toKey entry.1, wire), rfl, made⟩
    obtain ⟨wires, made⟩ := exists_forall₂_iff.2 partners
    exact ⟨_, wires, made, rfl⟩

theorem decodeEntries_ok_iff {f : WireValue → Metered α} {decoded made : List (kind.Value × α)}
    {wires : List (WireKey × WireValue)} :
    (decodeEntries kind f decoded wires).result = .ok made ↔
      ∃ entries, List.Forall₂ (fun entry wire => kind.toKey entry.1 = wire.1 ∧ (f wire.2).result = .ok entry.2) entries wires ∧
        made = Ordered.putAll kind.before decoded entries := by
  induction wires generalizing decoded with
  | nil => simp [decodeEntries, result_pure, eq_comm, Ordered.putAll]
  | cons wire rest ih =>
    obtain ⟨key, item⟩ := wire
    rw [decodeEntries]
    simp only [bind_ok_iff, within_ok_iff, result_releasingOnFault, List.forall₂_cons_right_iff]
    constructor
    · rintro ⟨value, here, run⟩
      cases read : kind.ofKey? key with
      | none =>
        rw [read] at run
        obtain ⟨-, -, failed⟩ := bind_ok_iff.1 run
        cases failed
      | some native =>
        rw [read] at run
        obtain ⟨entries, others, rfl⟩ := ih.1 run
        exact ⟨_, ⟨(native, value), entries, ⟨KeyKind.ofKey?_eq_some_iff.1 read, here⟩, others, rfl⟩, rfl⟩
    · rintro ⟨_, ⟨⟨native, value⟩, entries, ⟨same, here⟩, others, rfl⟩, rfl⟩
      refine ⟨value, here, ?_⟩
      rw [KeyKind.ofKey?_eq_some_iff.2 same]
      exact ih.2 ⟨entries, others, rfl⟩

/-- The map that is made of a dictionary has, under each key, what is read from the dictionary there. -/
theorem decodeEntries_of_rel {f : WireValue → Metered α} {map : List (kind.Value × α)}
    {wires : List (WireKey × WireValue)} (sorted : Ascending map) (nodup : (wires.map Prod.fst).Nodup)
    (read : ∀ k, Option.Rel (fun value wire => (f wire).result = .ok value) (Entries.get? k (keyed map))
      (Entries.get? k wires)) :
    (decodeEntries kind f [] wires).result = .ok map := by
  have partners : ∀ wire ∈ wires, ∃ entry : kind.Value × α,
      kind.toKey entry.1 = wire.1 ∧ (f wire.2).result = .ok entry.2 := by
    intro wire mem
    obtain ⟨value, listed, here⟩ := Entries.exists_of_rel_get? nodup read wire mem
    obtain ⟨entry, -, same⟩ := List.mem_map.1 listed
    obtain ⟨key, rfl⟩ := Prod.mk.inj same
    exact ⟨entry, key, here⟩
  obtain ⟨entries, found⟩ := exists_forall₂_iff.2 partners
  have readAll : List.Forall₂ (fun (entry : kind.Value × α) (wire : WireKey × WireValue) =>
      kind.toKey entry.1 = wire.1 ∧ (f wire.2).result = .ok entry.2) entries wires := found.flip
  rw [decodeEntries_ok_iff.2 ⟨entries, readAll, rfl⟩]
  refine congrArg Except.ok (eq_of_get? (ascending_mapOf entries) sorted ?_)
  intro k
  have made := rel_mapOf (R := fun value wire => (f wire).result = .ok value) readAll k
  rw [Entries.putAll_eq (by simpa using nodup), List.nil_append] at made
  exact rel_leftUnique (fun _ _ _ here there => Except.ok.inj (here.symm.trans there)) made (read k)

end Maps

theorem roundTrips_map (key : KeyKind) {value : NativeType} (part : RoundTrips value) : RoundTrips (.map key value) where
  sent entries := by
    rw [toWire]
    simp only [bind_ok_iff]
    have sent : (∃ made, (encodeEntries key value.toWire [] entries).result = .ok made) ↔
        ∀ entry ∈ entries, value.Sendable entry.2 := by
      rw [exists_encodeEntries_iff]
      simp only [part.sent]
    refine Iff.trans ?_ sent
    constructor
    · rintro ⟨_, made, encoded, -⟩
      exact ⟨made, encoded⟩
    · rintro ⟨made, encoded⟩
      exact ⟨_, made, encoded, rfl⟩
  read := by
    intro entries wire made other same
    rw [toWire] at made
    obtain ⟨_, encoded, whole⟩ := bind_ok_iff.1 made
    obtain ⟨wires, put, rfl⟩ := encodeEntries_ok_iff.1 encoded
    cases whole
    cases same with
    | @dict _ _ middle others keys values order =>
      -- under each key stands what was put there last, on both sides
      have nodup : (middle.map Prod.fst).Nodup := keys ▸ Entries.nodup_putAll wires List.nodup_nil
      have nodupOthers : (others.map Prod.fst).Nodup := (order.map Prod.fst).nodup_iff.1 nodup
      have read : List.Forall₂ (fun (entry : key.Value × value.Value) (wire : WireKey × WireValue) =>
          key.toKey entry.1 = wire.1 ∧ value.ReadAs entry.2 wire.2)
          (entries.map fun entry => (entry.1, value.ordered entry.2)) wires := by
        rw [List.forall₂_map_left_iff]
        exact put.imp fun entry wire pair => ⟨pair.1, part.read pair.2⟩
      rw [ofWire, if_pos rfl, bind_ok_iff]
      refine ⟨(), rfl, decodeEntries_of_rel (ascending_mapOf _) nodupOthers ?_⟩
      intro k
      have listed := rel_mapOf read k
      have reordered := Entries.rel_get? (forall₂_pairs keys values) k
      rw [← Entries.get?_perm nodup order]
      exact rel_comp (fun _ _ other readAs same => readAs other same) listed reordered

/-! ## All types -/

theorem roundTrips_of_plain {t : NativeType} (plain : t.Plain) : RoundTrips t := by
  induction plain with
  | int w => exact roundTrips_int w
  | float32 => exact roundTrips_float32
  | float64 => exact roundTrips_float64
  | bool => exact roundTrips_bool
  | text => exact roundTrips_text
  | list _ part => exact roundTrips_list part
  | tuple _ parts => exact roundTrips_tuple parts
  | map _ part => exact roundTrips_map _ part

/-- a map is read back with the last entry of each key -/
theorem mem_ordered_map_iff {key : KeyKind} {t : NativeType} {entries : List (key.Value × t.Value)} {k : key.Value}
    {v : t.Value} : (k, v) ∈ (NativeType.map key t).ordered entries ↔
      ∃ (before after : List (key.Value × t.Value)) (u : t.Value),
        entries = before ++ (k, u) :: after ∧ k ∉ after.map Prod.fst ∧ t.ordered u = v := by
  show (k, v) ∈ mapOf (entries.map fun entry => (entry.1, t.ordered entry.2)) ↔ _
  have keys (l : List (key.Value × t.Value)) :
      (l.map fun entry => (entry.1, t.ordered entry.2)).map Prod.fst = l.map Prod.fst := by
    rw [List.map_map]
    rfl
  rw [mem_mapOf_iff]
  constructor
  · rintro ⟨_, _, split, fresh⟩
    obtain ⟨before, rest, rfl, -, splitRest⟩ := List.map_eq_append_iff.1 split
    obtain ⟨⟨_, u⟩, after, rfl, same, rfl⟩ := List.map_eq_cons_iff.1 splitRest
    cases same
    exact ⟨before, after, u, rfl, keys after ▸ fresh, rfl⟩
  · rintro ⟨before, after, u, rfl, fresh, rfl⟩
    exact ⟨_, _, List.map_append, (keys after).symm ▸ fresh⟩

/-- **Native values come back from the wire.** For a type without wire values in it: exactly the values that can be sent become
wire values. In whatever order the dictionaries of such a wire value are walked, what is taken out of it is the value that was
sent, with its maps put in order, and so the very value if they were in order. A dictionary that is made of entries becomes
the map in which the last entry of each key stands. -/
theorem ofWire_toWire (t : NativeType) (plain : t.Plain) :
    (∀ value : t.Value, ((∃ wire, (t.toWire value).result = .ok wire) ↔ t.Sendable value) ∧
      ∀ wire, (t.toWire value).result = .ok wire → ∀ other, wire.Reordered other →
        (t.ofWire other).result = .ok (t.ordered value) ∧ t.InOrder (t.ordered value) ∧
          (t.InOrder value → (t.ofWire other).result = .ok value)) ∧
    ∀ (key : KeyKind) (entries : List (key.Value × t.Value)),
      ((∃ made, (encodeEntries key t.toWire [] entries).result = .ok made) ↔ ∀ entry ∈ entries, t.Sendable entry.2) ∧
      ∀ made, (encodeEntries key t.toWire [] entries).result = .ok made → ∀ other, (WireValue.dict key made).Reordered other →
        ∃ map, ((NativeType.map key t).ofWire other).result = .ok map ∧ Ascending map ∧
          ∀ (k : key.Value) (v : t.Value), (k, v) ∈ map ↔ ∃ (before after : List (key.Value × t.Value)) (u : t.Value),
            entries = before ++ (k, u) :: after ∧ k ∉ after.map Prod.fst ∧ t.ordered u = v := by
  have back := roundTrips_of_plain plain
  refine ⟨fun value => ⟨back.sent value, ?_⟩, fun key entries => ⟨?_, ?_⟩⟩
  · intro wire made other same
    have read := back.read made other same
    refine ⟨read, inOrder_ordered plain value, fun sorted => ?_⟩
    rwa [ordered_of_inOrder plain sorted] at read
  · rw [exists_encodeEntries_iff]
    exact forall₂_congr fun entry _ => back.sent entry.2
  · intro made encoded other same
    have whole : ((NativeType.map key t).toWire entries).result = .ok (.dict key made) := by
      rw [toWire]
      exact bind_ok_iff.2 ⟨made, encoded, rfl⟩
    exact ⟨_, (roundTrips_map key back).read whole other same, ascending_mapOf _, fun k v => mem_ordered_map_iff⟩

/-- a map from integers of 64 unsigned bits, the greatest one among them, to pairs; it is walked in another order, and a
dictionary is made of the same entries and one that replaces the first -/
theorem ofWire_toWire_greatest_key :
    let pair : NativeType := .tuple [.bool, .list (.int .i8)]
    let greatest : BoundedInt .u64 := ⟨0xFFFFFFFFFFFFFFFF, by decide⟩
    let least : BoundedInt .u64 := ⟨0, by decide⟩
    let one : pair.Value := (true, [⟨-1, by decide⟩, ⟨5, by decide⟩], ())
    let two : pair.Value := (false, [], ())
    let wireOne : WireValue := .tuple [(0, .bool true), (1, .list [.int ⟨-1, by decide⟩, .int ⟨5, by decide⟩])]
    let wireTwo : WireValue := .tuple [(0, .bool false), (1, .list [])]
    ((NativeType.map (.int .u64) pair).ofWire
        (.dict (.int .u64) [(.int .u64 greatest, wireTwo), (.int .u64 least, wireOne)])).result =
      .ok [(least, one), (greatest, two)] ∧
    ∃ map, ((NativeType.map (.int .u64) pair).ofWire
        (.dict (.int .u64) [(.int .u64 greatest, wireOne), (.int .u64 least, wireOne)])).result = .ok map ∧
      Ascending map ∧ (greatest, one) ∈ map := by
  intro pair greatest least one two wireOne wireTwo
  have plain : pair.Plain := by
    refine .tuple ?_
    simp only [List.forall_mem_cons, List.not_mem_nil, false_implies, implies_true, and_true]
    exact ⟨.bool, .list (.int .i8)⟩
  have swapped : (WireValue.dict (.int .u64) [(.int .u64 least, wireOne), (.int .u64 greatest, wireTwo)]).Reordered
      (.dict (.int .u64) [(.int .u64 greatest, wireTwo), (.int .u64 least, wireOne)]) :=
    .dict rfl (.cons (.refl _) (.cons (.refl _) .nil)) (.swap _ _ [])
  have sorted : (NativeType.map (.int .u64) pair).InOrder [(least, one), (greatest, two)] := by
    refine ⟨show List.Pairwise _ _ by decide, ?_⟩
    refine List.forall_mem_cons.2 ⟨?_, List.forall_mem_singleton.2 ?_⟩
    · exact ⟨trivial, fun _ _ => trivial, trivial⟩
    · exact ⟨trivial, fun _ _ => trivial, trivial⟩
  have sent : ((NativeType.map (.int .u64) pair).toWire [(least, one), (greatest, two)]).result =
    .ok (.dict (.int .u64) [(.int .u64 least, wireOne), (.int .u64 greatest, wireTwo)]) := rfl
  refine ⟨(((ofWire_toWire _ (.map plain)).1 _).2 _ sent _ swapped).2.2 sorted, ?_⟩
  obtain ⟨map, read, ascending, listed⟩ :=
    ((ofWire_toWire pair plain).2 (.int .u64) [(greatest, two), (least, one), (greatest, one)]).2
      [(.int .u64 greatest, wireOne), (.int .u64 least, wireOne)] rfl _ (.refl _)
  exact ⟨map, read, ascending,
    (listed _ _).2 ⟨[(greatest, two), (least, one)], [], one, rfl, List.not_mem_nil, rfl⟩⟩

end NativeBridge.NativeType
