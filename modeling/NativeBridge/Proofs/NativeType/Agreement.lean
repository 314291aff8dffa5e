/-
Native values are taken out of wire values as the host decodes them. The two walks differ: a tuple is taken apart by index here
and drained there, and of an entry of a dictionary the value is looked at first here and the key there. They give corresponding
values all the same, and end with the same kind of fault at the same place.

- `Fault.Alike`: two faults of the same kind at the same position.
- `agree_ofChain`, `agree_decodeEntries`: tuples and dictionaries, given that their parts agree.
- `corresponds_of_signature?`: the two walks agree on every wire value, by induction on the type.
- `ofWire_agrees_decode`: so it is for the decoder as a whole, in whatever order dictionaries are walked.
-/
import NativeBridge.NativeType.Codec
import NativeBridge.Proofs.Codec.Order
import NativeBridge.Proofs.NativeType.Host

namespace NativeBridge

/-! ## Faults -/

/-- the kinds of faults -/
inductive FaultKind where
  | unsupportedType
  | typeMismatch
  | missingHint
  | arityMismatch
  | invalidText
  | keyOutOfRange
  | intOutOfRange
  | nullResult
  | duplicateBinding
  | unknownFunction
  | versionMismatch
  | load
  | config
deriving DecidableEq

namespace Fault

/-- the kind of a fault, without its data -/
def kind : Fault → FaultKind
  | unsupportedType _ => .unsupportedType
  | typeMismatch _ _ _ => .typeMismatch
  | missingHint _ _ => .missingHint
  | arityMismatch _ _ _ => .arityMismatch
  | invalidText _ => .invalidText
  | keyOutOfRange _ _ => .keyOutOfRange
  | intOutOfRange _ _ _ => .intOutOfRange
  | nullResult _ => .nullResult
  | duplicateBinding _ => .duplicateBinding
  | unknownFunction _ => .unknownFunction
  | versionMismatch _ _ => .versionMismatch
  | load _ => .load
  | config _ => .config

theorem kind_within (step : Step) (f : Fault) : (f.within step).kind = f.kind := by
  cases f <;> rfl

/-- two faults of the same kind at the same position -/
def Alike (f g : Fault) : Prop := f.kind = g.kind ∧ f.position? = g.position?

theorem Alike.within {f g : Fault} (step : Step) (alike : f.Alike g) : (f.within step).Alike (g.within step) := by
  obtain ⟨kind, position⟩ := alike
  refine ⟨?_, ?_⟩
  · rw [kind_within, kind_within, kind]
  · rw [position?_within, position?_within, position]

end Fault

/-! ## Conditions on wire values -/

/-- the key is not too large for an integer of the host -/
def WireKey.FitsHost : WireKey → Prop
  | .int _ v => v.val ≤ IntWidth.i64.greatest
  | _ => True

instance : DecidablePred WireKey.FitsHost
  | .int _ v => inferInstanceAs (Decidable (v.val ≤ IntWidth.i64.greatest))
  | .bool _ | .text _ => isTrue trivial

namespace WireValue

/-- a dictionary with keys of 64 unsigned bits has none that is too large for the host -/
def KeysFitHost : WireValue → Prop
  | .dict kind entries => kind = .int .u64 → ∀ entry ∈ entries, entry.1.FitsHost
  | _ => True

/-- no index of a tuple occurs twice -/
def IndicesDistinct : WireValue → Prop
  | .tuple chain => (chain.map Prod.fst).Nodup
  | _ => True

instance : DecidablePred KeysFitHost
  | .dict kind entries => inferInstanceAs (Decidable (kind = .int .u64 → ∀ entry ∈ entries, entry.1.FitsHost))
  | .text _ | .bool _ | .int _ | .float32 _ | .float64 _ | .tuple _ | .list _ => isTrue trivial

instance : DecidablePred IndicesDistinct
  | .tuple chain => inferInstanceAs (Decidable (chain.map Prod.fst).Nodup)
  | .text _ | .bool _ | .int _ | .float32 _ | .float64 _ | .list _ | .dict _ _ => isTrue trivial

end WireValue

open WireValue (Everywhere KeysProper KeysFitHost IndicesDistinct)

/-! ## Keys -/

theorem WireKey.fits_of_keysFitHost {kind : KeyKind} {entries : List (WireKey × WireValue)}
    (proper : (WireValue.dict kind entries).KeysProper) (small : (WireValue.dict kind entries).KeysFitHost) :
    ∀ entry ∈ entries, entry.1.Fits kind := by
  intro entry mem
  have same : entry.1.kind = kind := proper.2 entry mem
  refine ⟨same, ?_⟩
  obtain ⟨key, value⟩ := entry
  cases key with
  | int w v =>
    obtain rfl : KeyKind.int w = kind := same
    have bounds := v.holds
    cases w with
    | u64 =>
      have least : 0 ≤ v.val := v.holds.1
      have greatest : v.val ≤ IntWidth.i64.greatest := small rfl _ mem
      exact ⟨Int.le_trans (by decide) least, greatest⟩
    | _ => exact ⟨Int.le_trans (by decide) bounds.1, Int.le_trans bounds.2 (by decide)⟩
  | bool b => trivial
  | text s => trivial

namespace KeyKind

variable {kind : KeyKind}

theorem exists_native_of_kind {key : WireKey} (h : key.kind = kind) :
    ∃ native, kind.ofKey? key = some native ∧ kind.toKey native = key := by
  subst h
  cases key with
  | int w v => exact ⟨v, dif_pos rfl, rfl⟩
  | bool b => exact ⟨b, rfl, rfl⟩
  | text s => exact ⟨s, rfl, rfl⟩

theorem toHost_toKey {a : kind.Value} (fits : (kind.toKey a).Fits kind) : (kind.toKey a).toHost kind = .ok (kind.host a) := by
  cases kind with
  | int w =>
    have back : a.val = (BoundedInt.wrap .i64 a.val).val := (IntWidth.wrap_of_holds fits.2).symm
    exact WireKey.toHost_int_ok_iff.2 ⟨.wrap .i64 a.val, back, rfl⟩
  | bool => rfl
  | text => rfl

theorem before_host {a b : kind.Value} (ha : (kind.toKey a).Fits kind) (hb : (kind.toKey b).Fits kind) :
    (kind.host a).before (kind.host b) = kind.before a b := by
  cases kind with
  | int w =>
    have sameA : IntWidth.i64.wrap a.val = a.val := IntWidth.wrap_of_holds ha.2
    have sameB : IntWidth.i64.wrap b.val = b.val := IntWidth.wrap_of_holds hb.2
    show decide (IntWidth.i64.wrap a.val < IntWidth.i64.wrap b.val) = decide (a.val < b.val)
    rw [sameA, sameB]
  | bool => rfl
  | text => rfl

end KeyKind

namespace NativeType

/-- a map as the host sees it, entry by entry -/
def hostEntries {α : Type} (kind : KeyKind) (f : α → HostValue) (entries : List (kind.Value × α)) :
    List (HostKey × HostValue) :=
  entries.map fun entry => (kind.host entry.1, f entry.2)

/-- the host puts an entry where the map puts it -/
theorem hostEntries_putEntry {α : Type} {kind : KeyKind} (f : α → HostValue) {key : kind.Value} (value : α)
    {entries : List (kind.Value × α)} (fits : (kind.toKey key).Fits kind)
    (held : ∀ entry ∈ entries, (kind.toKey entry.1).Fits kind) :
    hostEntries kind f (putEntry key value entries) = (kind.host key).put (f value) (hostEntries kind f entries) :=
  Ordered.map_put fun entry mem =>
    ⟨KeyKind.before_host fits (held entry mem), KeyKind.before_host (held entry mem) fits⟩

theorem fits_putEntry {α : Type} {kind : KeyKind} {key : kind.Value} (value : α) {entries : List (kind.Value × α)}
    (new : (kind.toKey key).Fits kind) (held : ∀ entry ∈ entries, (kind.toKey entry.1).Fits kind) :
    ∀ entry ∈ putEntry key value entries, (kind.toKey entry.1).Fits kind := by
  intro entry mem
  rcases Ordered.mem_of_mem_put mem with rfl | mem
  · exact new
  · exact held entry mem

/-! ## Parts of containers -/

open Signature (decodeValue decodeElems)

/-- The two walks agree on every wire value: the host value is that of the native one, and if no index of a tuple occurs
twice, the faults are alike. -/
def Corresponds (t : NativeType) (s : Signature) : Prop :=
  ∀ wire : WireValue, wire.Everywhere KeysProper → wire.Everywhere KeysFitHost →
    Agree (fun x v => v = t.host x) (fun f g => wire.Everywhere IndicesDistinct → f.Alike g)
      (t.ofWire wire).result (s.decodeValue wire).result

/-- Entry by entry, the two walks put the same into a map and into a dictionary of the host. The keys do not fail, so it
does not matter that they are looked at in another order than the values. -/
theorem agree_decodeEntries {t : NativeType} {s : Signature} (part : Corresponds t s) {kind : KeyKind}
    {entries : List (WireKey × WireValue)} (keys : ∀ entry ∈ entries, entry.1.Fits kind)
    (proper : ∀ entry ∈ entries, entry.2.Everywhere KeysProper) (small : ∀ entry ∈ entries, entry.2.Everywhere KeysFitHost)
    {decoded : List (kind.Value × t.Value)} (held : ∀ entry ∈ decoded, (kind.toKey entry.1).Fits kind)
    (ascending : HostKey.Ascending (hostEntries kind t.host decoded)) :
    Agree (fun x v => v = hostEntries kind t.host x ∧ HostKey.Ascending v)
      (fun f g => (∀ entry ∈ entries, entry.2.Everywhere IndicesDistinct) → f.Alike g)
      (decodeEntries kind t.ofWire decoded entries).result
      (Signature.decodeEntries kind s.decodeValue (hostEntries kind t.host decoded) entries).result := by
  induction entries generalizing decoded with
  | nil => exact .value ⟨rfl, ascending⟩
  | cons entry rest ih =>
    obtain ⟨key, item⟩ := entry
    obtain ⟨fits, restKeys⟩ := List.forall_mem_cons.1 keys
    obtain ⟨properItem, restProper⟩ := List.forall_mem_cons.1 proper
    obtain ⟨smallItem, restSmall⟩ := List.forall_mem_cons.1 small
    obtain ⟨native, read, rfl⟩ := KeyKind.exists_native_of_kind fits.1
    rw [decodeEntries, Signature.decodeEntries, KeyKind.toHost_toKey fits]
    refine Agree.skip (b := kind.host native) rfl ?_
    have deeper : ∀ f g : Fault, (item.Everywhere IndicesDistinct → f.Alike g) →
        (∀ entry ∈ (kind.toKey native, item) :: rest, entry.2.Everywhere IndicesDistinct) →
          (f.within .value).Alike (g.within .value) :=
      fun f g alike distinct => (alike (distinct _ List.mem_cons_self)).within .value
    refine (((part item properItem smallItem).within .value deeper).releasingOnFault _ _).bind ?_
    rintro value _ rfl
    rw [read]
    have sorted : HostKey.Ascending (hostEntries kind t.host (putEntry native value decoded)) := by
      rw [hostEntries_putEntry t.host value fits held]
      exact Ordered.ascending_put _ _ ascending
    rw [← hostEntries_putEntry t.host value fits held]
    refine (ih restKeys restProper restSmall (fits_putEntry value fits held) sorted).imp (fun _ _ same => same) ?_
    exact fun f g alike distinct => alike fun entry mem => distinct entry (List.mem_cons_of_mem _ mem)

/-- A chain that has as many elements as the tuple and no index twice: taking the elements out one by one agrees with draining
the chain, as long as no index is passed over. -/
theorem agree_ofChain_of_nodup {elems : List NativeType} {types : List Signature}
    (parts : List.Forall₂ Corresponds elems types) {i : Nat} {chain : List (Nat × WireValue)}
    (length : chain.length = elems.length) (low : ∀ link ∈ chain, i ≤ link.1) (nodup : (chain.map Prod.fst).Nodup)
    (proper : ∀ link ∈ chain, link.2.Everywhere KeysProper) (small : ∀ link ∈ chain, link.2.Everywhere KeysFitHost) :
    Agree (fun xs vs => vs = hosts elems xs)
      (fun f g => (∀ link ∈ chain, link.2.Everywhere IndicesDistinct) → f.Alike g)
      (ofChain i elems chain).result (decodeElems i types (Chain.drain chain)).result := by
  induction parts generalizing i chain with
  | nil =>
    obtain rfl := List.length_eq_zero_iff.1 length
    exact .value rfl
  | @cons t s elems types first _ ih =>
    cases found : Chain.take? i chain with
    | none =>
      -- the index is missing here, and the least one that is left is too large there
      cases drained : Chain.drain chain with
      | nil =>
        have empty : chain.length = 0 := by rw [← Chain.length_drain, drained, List.length_nil]
        exact absurd (empty.symm.trans length) nofun
      | cons link links =>
        have mem : link ∈ chain := (Chain.drain_perm chain).mem_iff.1 (drained ▸ List.mem_cons_self)
        have other : link.1 ≠ i := Chain.take?_eq_none_iff_forall.1 found link mem
        rw [ofChain, found, decodeElems, if_neg other]
        exact .fault fun _ => ⟨rfl, rfl⟩
    | some taken =>
      obtain ⟨item, rest⟩ := taken
      have perm := Chain.take?_perm found
      have mem : (i, item) ∈ chain := perm.mem_iff.2 List.mem_cons_self
      have inRest : ∀ link ∈ rest, link ∈ chain := fun link mem => perm.mem_iff.2 (List.mem_cons_of_mem _ mem)
      have restLength : rest.length = elems.length := Nat.succ.inj (perm.length_eq.symm.trans length)
      obtain ⟨fresh, restNodup⟩ := List.nodup_cons.1 ((perm.map Prod.fst).nodup_iff.1 nodup)
      have restLow : ∀ link ∈ rest, i + 1 ≤ link.1 := by
        intro link memRest
        have different : i ≠ link.1 := by
          rintro rfl
          exact fresh (show link.1 ∈ rest.map Prod.fst from List.mem_map_of_mem memRest)
        exact Nat.lt_of_le_of_ne (low link (inRest link memRest)) different
      rw [ofChain, found, Chain.drain_of_take? low found, decodeElems, if_pos rfl]
      have deeper : ∀ f g : Fault, (item.Everywhere IndicesDistinct → f.Alike g) →
          (∀ link ∈ chain, link.2.Everywhere IndicesDistinct) → (f.within (.index i)).Alike (g.within (.index i)) :=
        fun f g alike distinct => (alike (distinct _ mem)).within (.index i)
      refine (((first item (proper _ mem) (small _ mem)).within (.index i) deeper).releasingOnFault _ _).bind ?_
      rintro value _ rfl
      have others := ih restLength restLow restNodup (fun link mem => proper link (inRest link mem))
        fun link mem => small link (inRest link mem)
      refine (others.imp (fun _ _ same => same) ?_).bind ?_
      · exact fun f g alike distinct => alike fun link mem => distinct link (inRest link mem)
      · rintro values _ rfl
        exact .value rfl

/-- The elements of a tuple are taken out of a chain of as many elements only if the indices are those of the tuple. -/
theorem indices_of_ofChain {elems : List NativeType} {i : Nat} {chain : List (Nat × WireValue)} {values : Values elems}
    (length : chain.length = elems.length) (h : (ofChain i elems chain).result = .ok values) :
    (chain.map Prod.fst).Perm (List.range' i elems.length) := by
  induction elems generalizing i chain with
  | nil =>
    obtain rfl := List.length_eq_zero_iff.1 length
    exact .refl _
  | cons t elems ih =>
    rw [ofChain] at h
    split at h
    · cases h
    · next item rest found =>
      have perm := Chain.take?_perm found
      obtain ⟨first, -, h⟩ := Metered.bind_ok_iff.1 h
      obtain ⟨others, there, -⟩ := Metered.bind_ok_iff.1 h
      have restLength : rest.length = elems.length := Nat.succ.inj (perm.length_eq.symm.trans length)
      exact (perm.map Prod.fst).trans ((ih restLength there).cons i)

/-- Tuples agree: with an index twice, there is no value on either side. -/
theorem agree_ofChain {elems : List NativeType} {types : List Signature} (parts : List.Forall₂ Corresponds elems types)
    {chain : List (Nat × WireValue)} (length : chain.length = elems.length)
    (proper : ∀ link ∈ chain, link.2.Everywhere KeysProper) (small : ∀ link ∈ chain, link.2.Everywhere KeysFitHost) :
    Agree (fun xs vs => vs = hosts elems xs)
      (fun f g => (WireValue.tuple chain).Everywhere IndicesDistinct → f.Alike g)
      (ofChain 0 elems chain).result (decodeElems 0 types (Chain.drain chain)).result := by
  by_cases nodup : (chain.map Prod.fst).Nodup
  · have low : ∀ link ∈ chain, 0 ≤ link.1 := fun link _ => Nat.zero_le link.1
    refine (agree_ofChain_of_nodup parts length low nodup proper small).imp (fun _ _ same => same) ?_
    exact fun f g alike distinct => alike (WireValue.everywhere_tuple_iff.1 distinct).2
  · have same : (Chain.drain chain).length = types.length :=
      (Chain.length_drain chain).trans (length.trans parts.length_eq)
    apply Agree.of_not_ok
    · intro values taken
      exact nodup ((indices_of_ofChain length taken).nodup_iff.2 List.nodup_range')
    · intro items drained
      obtain ⟨wires, numbered, -⟩ := (Signature.decodeElems_ok_iff same).1 drained
      have indices : ((Chain.drain chain).map Prod.fst).Nodup := by
        rw [numbered, Chain.map_fst_number]
        exact List.nodup_range'
      exact nodup (((Chain.drain_perm chain).map Prod.fst).nodup_iff.1 indices)
    · exact fun f g distinct => absurd (WireValue.everywhere_tuple_iff.1 distinct).1 nodup

/-! ## All types -/

theorem corresponds_int (w : IntWidth) : Corresponds (.int w) (.owned (.primitive (.int w))) := by
  intro wire _ _
  cases wire with
  | int v =>
    show Agree _ _ (nativeInt w v) ((w.check v).map HostValue.int)
    unfold nativeInt IntWidth.check BoundedInt.ofInt?
    by_cases holds : w.Holds v.val
    · have same : v = .wrap .i64 v.val := BoundedInt.ext (IntWidth.wrap_of_holds v.holds).symm
      rw [dif_pos holds, if_pos holds]
      exact .value (congrArg HostValue.int same)
    · rw [dif_neg holds, if_neg holds]
      exact .fault fun _ => ⟨rfl, rfl⟩
  | _ => exact .fault fun _ => ⟨rfl, rfl⟩

theorem corresponds_text : Corresponds .text (.owned (.primitive .text)) := by
  intro wire _ _
  cases wire with
  | text t =>
    rw [Signature.owned, Signature.result_decodeValue_primitive, Signature.decodePrimitive]
    show Agree _ _ (nativeText t) _
    unfold nativeText
    cases t.toString? with
    | some string => exact .value rfl
    | none => exact .fault fun _ => ⟨rfl, rfl⟩
  | _ => exact .fault fun _ => ⟨rfl, rfl⟩

theorem corresponds_list {elem : NativeType} {s : Signature} (part : Corresponds elem s) :
    Corresponds (.list elem) (.owned (.list s)) := by
  intro wire proper small
  cases wire with
  | list items =>
    obtain ⟨-, properItems⟩ := WireValue.everywhere_list_iff.1 proper
    obtain ⟨-, smallItems⟩ := WireValue.everywhere_list_iff.1 small
    have parts : List.Forall₂ (fun a b => Agree (fun x v => v = elem.host x)
        (fun f g => (WireValue.list items).Everywhere IndicesDistinct → f.Alike g)
        (elem.ofWire a).result (s.decodeValue b).result) items items := by
      apply List.forall₂_same.2
      intro item mem
      refine (part item (properItems item mem) (smallItems item mem)).imp (fun _ _ same => same) ?_
      exact fun f g alike distinct => alike ((WireValue.everywhere_list_iff.1 distinct).2 item mem)
    have whole := Signature.agree_decodeItems (fun step f g alike distinct => (alike distinct).within step) parts 0
    refine Agree.skip rfl (Agree.bind_right whole ?_)
    intro values decoded same
    have same : decoded = values.map elem.host := by
      rw [← List.forall₂_eq_eq_eq, List.forall₂_map_right_iff]
      exact same.flip
    exact .value (congrArg HostValue.list same)
  | _ => exact .fault fun _ => ⟨rfl, rfl⟩

theorem corresponds_tuple {elems : List NativeType} {types : List Signature} (parts : List.Forall₂ Corresponds elems types) :
    Corresponds (.tuple elems) (.owned (.tuple types)) := by
  intro wire proper small
  cases wire with
  | tuple chain =>
    obtain ⟨-, properLinks⟩ := WireValue.everywhere_tuple_iff.1 proper
    obtain ⟨-, smallLinks⟩ := WireValue.everywhere_tuple_iff.1 small
    rw [Signature.owned, decodeValue, Signature.decodeShape, ofWire, ← parts.length_eq]
    split_ifs with length
    · refine Agree.skip rfl (Agree.bind_right (agree_ofChain parts length properLinks smallLinks) ?_)
      rintro values _ rfl
      exact .value rfl
    · exact .fault fun _ => ⟨rfl, rfl⟩
  | _ => exact .fault fun _ => ⟨rfl, rfl⟩

theorem corresponds_map (key : KeyKind) {value : NativeType} {s : Signature} (part : Corresponds value s) :
    Corresponds (.map key value) (.owned (.dict key s)) := by
  intro wire proper small
  cases wire with
  | dict found entries =>
    obtain ⟨keysProper, properValues⟩ := WireValue.everywhere_dict_iff.1 proper
    obtain ⟨keysSmall, smallValues⟩ := WireValue.everywhere_dict_iff.1 small
    rw [Signature.owned, decodeValue, Signature.decodeShape, ofWire]
    split_ifs with same
    · subst same
      have keys := WireKey.fits_of_keysFitHost keysProper keysSmall
      have empty : HostKey.Ascending (hostEntries key value.host []) := .nil
      have whole := agree_decodeEntries part keys properValues smallValues (by simp) empty
      have inside : (WireValue.dict key entries).Everywhere IndicesDistinct →
          ∀ entry ∈ entries, entry.2.Everywhere IndicesDistinct :=
        fun distinct => (WireValue.everywhere_dict_iff.1 distinct).2
      refine Agree.skip rfl (Agree.bind_right (whole.imp (fun _ _ same => same) fun f g alike => alike ∘ inside) ?_)
      rintro values _ ⟨rfl, ascending⟩
      exact .value (congrArg HostValue.dict (Ordered.putAll_of_ascending ascending).symm)
    · exact .fault fun _ => ⟨rfl, rfl⟩
  | _ => exact .fault fun _ => ⟨rfl, rfl⟩

/-- **The two walks agree**, by induction on the type. -/
theorem corresponds_of_signature? {t : NativeType} {s : Signature} (told : t.signature? = some s) : Corresponds t s := by
  refine induction_of_signature? corresponds_int ?_ ?_ ?_ corresponds_text (fun _ _ => corresponds_list)
    (fun _ _ => corresponds_tuple) (fun key _ _ => corresponds_map key) told
  · intro wire _ _
    cases wire with
    | float32 x => exact .value rfl
    | _ => exact .fault fun _ => ⟨rfl, rfl⟩
  · intro wire _ _
    cases wire with
    | float64 x => exact .value rfl
    | _ => exact .fault fun _ => ⟨rfl, rfl⟩
  · intro wire _ _
    cases wire with
    | bool b => exact .value rfl
    | _ => exact .fault fun _ => ⟨rfl, rfl⟩

/-- **Native values are taken out of wire values as the host decodes them.** For a native type with a signature and a wire value
without keys that are too large for the host: a native value is taken out exactly if a host value is decoded, and this is the
native one as the host sees it, whatever the order in which the two walk through dictionaries. In the same order, and with no
index of a tuple twice, they also fail with the same kind of fault at the same position. -/
theorem ofWire_agrees_decode (t : NativeType) (s : Signature) (told : t.signature? = some s) (wire : WireValue)
    (proper : wire.Everywhere KeysProper) (small : wire.Everywhere KeysFitHost) :
    (∀ other, wire.Reordered other →
      ((∃ x, (t.ofWire wire).result = .ok x) ↔ ∃ v, (s.decode other).result = .ok v) ∧
        ∀ x, (t.ofWire wire).result = .ok x → (s.decode other).result = .ok (t.host x)) ∧
      (wire.Everywhere IndicesDistinct → ∀ fault, (t.ofWire wire).result = .error fault →
        ∃ fault', (s.decode wire).result = .error fault' ∧ fault.kind = fault'.kind ∧ fault.position? = fault'.position?) := by
  have agree := corresponds_of_signature? told wire proper small
  have whole (other : WireValue) : s.decode other = s.decodeValue other := by
    rw [Signature.decode, firstHole?_of_signature? told]
  simp only [whole]
  refine ⟨?_, ?_⟩
  · intro other same
    have sameValue := agree_eq_iff.1 (Signature.decodeValue_reordered (s := s) proper same)
    constructor
    · rw [agree.exists_ok_iff]
      exact exists_congr sameValue
    · intro x taken
      obtain ⟨v, decoded, rfl⟩ := agree.of_ok taken
      exact (sameValue _).1 decoded
  · intro distinct fault failed
    obtain ⟨fault', failed', alike⟩ := agree.of_error failed
    exact ⟨fault', failed', alike distinct⟩

/-- a dictionary of tuples, walked in two orders and with one tuple linked back to front; and a tuple with a gap, the first
element of which is too large -/
theorem ofWire_agrees_unordered_dict_and_gap :
    let t : NativeType := .map (.int .u64) (.tuple [.int .i8, .bool])
    let pair : Signature := .owned (.tuple [.owned (.primitive (.int .i8)), .owned (.primitive .bool)])
    let s : Signature := .owned (.dict (.int .u64) pair)
    let one : WireKey × WireValue := (.int .u64 ⟨7, by decide⟩, .tuple [(1, .bool true), (0, .int ⟨-1, by decide⟩)])
    let two : WireKey × WireValue := (.int .u64 ⟨3, by decide⟩, .tuple [(0, .int ⟨5, by decide⟩), (1, .bool false)])
    let gap : WireKey × WireValue := (.int .u64 ⟨0, by decide⟩, .tuple [(4, .bool false), (0, .int ⟨300, by decide⟩)])
    (∃ x, (t.ofWire (.dict (.int .u64) [one, two])).result = .ok x ∧
      (s.decode (.dict (.int .u64) [two, one])).result = .ok (t.host x)) ∧
    ∃ fault, (s.decode (.dict (.int .u64) [one, gap])).result = .error fault ∧ fault.kind = .intOutOfRange ∧
      fault.position? = some [.value, .index 0] := by
  intro t pair s one two gap
  have swapped : (WireValue.dict (.int .u64) [one, two]).Reordered (.dict (.int .u64) [two, one]) :=
    .dict rfl (.cons (.refl _) (.cons (.refl _) .nil)) (.swap two one [])
  have whole := ofWire_agrees_decode t s rfl (.dict (.int .u64) [one, two]) (by decide) (by decide)
  obtain ⟨fault, failed, kind, position⟩ :=
    (ofWire_agrees_decode t s rfl (.dict (.int .u64) [one, gap]) (by decide) (by decide)).2 (by decide) _ rfl
  exact ⟨⟨_, rfl, (whole.1 _ swapped).2 _ rfl⟩, fault, failed, kind.symm, position.symm⟩

end NativeType

end NativeBridge
