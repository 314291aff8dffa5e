/-
What becomes of the objects when native values are taken out of wire values and made into them. As for host values, taking a
value out releases the whole of the wire value, and making one leaves exactly the objects of the wire value, or none after a
fault. A tuple is taken apart by index: the elements that are not reached are released with the chain they are left in.

- `consumes_ofChain`, `consumes_decodeEntries`: elements and entries are released one after the other.
- `consumes_ofWire`: so is every wire value, for every type without wire values in it.
- `accounts_encodeEntries`: a value that takes the place of another under an equal key is what releases it.
- `conversions_conserve`: the tallies of all conversions, whether they succeed or fail.
-/
import NativeBridge.Proofs.Codec.Ownership
import NativeBridge.Proofs.Codec.Release
import NativeBridge.Proofs.NativeType.RoundTrip

namespace NativeBridge.NativeType

open Metered WireValue

/-! ## Out of wire values -/

theorem consumes_consume {α : Type} (value : WireValue) (outcome : Except Fault α) :
    Consumes value.size 0 (consume value outcome) :=
  (Consumes.release value.size 0).bind fun _ _ => .ofExcept outcome

/-- the elements of a tuple out of any chain, whatever indices it has and however many -/
theorem consumes_ofChain {elems : List NativeType} (parts : ∀ elem ∈ elems, ∀ wire, Consumes wire.size 0 (elem.ofWire wire))
    (i : Nat) (chain : List (Nat × WireValue)) : Consumes (sizeOfChain chain) 0 (ofChain i elems chain) := by
  induction elems generalizing i chain with
  | nil => exact (Consumes.release (sizeOfChain chain) 0).bind fun _ _ => .pure _
  | cons elem elems ih =>
    obtain ⟨here, there⟩ := List.forall_mem_cons.1 parts
    rw [ofChain]
    split
    · exact (Consumes.release (sizeOfChain chain) 0).bind fun _ _ => .fail _
    · next item rest taken =>
      have element : Consumes item.size 0 ((elem.ofWire item).within (.index i)) := (here item).within
      have guarded := element.releasingOnFault (sizeOfChain rest)
      rw [sizeOfChain_take? taken, Nat.zero_add] at guarded
      exact guarded.bind fun first _ => (ih there (i + 1) rest).bind fun others _ => .pure _

/-- the value of an entry is gone before its key is looked at -/
theorem consumes_decodeEntries {α : Type} {kind : KeyKind} {decodeItem : WireValue → Metered α}
    (part : ∀ wire, Consumes wire.size 0 (decodeItem wire)) (decoded : List (kind.Value × α))
    (wires : List (WireKey × WireValue)) : Consumes (sizeOfEntries wires) 0 (decodeEntries kind decodeItem decoded wires) := by
  induction wires generalizing decoded with
  | nil => exact .pure _
  | cons wire rest ih =>
    have value : Consumes wire.2.size 0 ((decodeItem wire.2).within .value) := (part wire.2).within
    have guarded := value.releasingOnFault (sizeOfEntries rest)
    rw [Nat.zero_add] at guarded
    rw [decodeEntries, sizeOfEntries]
    refine guarded.bind fun item _ => ?_
    split
    · exact ih _
    · exact (Consumes.release (sizeOfEntries rest) 0).bind fun _ _ => .fail _

theorem consumes_ofWire {t : NativeType} (plain : t.Plain) (wire : WireValue) : Consumes wire.size 0 (t.ofWire wire) := by
  induction plain generalizing wire with
  | int w =>
    cases wire with
    | int v => exact consumes_consume _ _
    | _ => exact Signature.consumes_refuse _ _
  | float32 =>
    cases wire with
    | float32 x => exact consumes_consume _ _
    | _ => exact Signature.consumes_refuse _ _
  | float64 =>
    cases wire with
    | float64 x => exact consumes_consume _ _
    | _ => exact Signature.consumes_refuse _ _
  | bool =>
    cases wire with
    | bool b => exact consumes_consume _ _
    | _ => exact Signature.consumes_refuse _ _
  | text =>
    cases wire with
    | text s => exact consumes_consume _ _
    | _ => exact Signature.consumes_refuse _ _
  | list _ part =>
    cases wire with
    | list items => exact (Consumes.release 1 _).bind fun _ _ => Signature.consumes_decodeItems part 0 items
    | _ => exact Signature.consumes_refuse _ _
  | tuple _ parts =>
    cases wire with
    | tuple chain =>
      rw [ofWire]
      split_ifs
      · exact (Consumes.release 1 _).bind fun _ _ => consumes_ofChain parts 0 chain
      · exact Signature.consumes_refuse _ _
    | _ => exact Signature.consumes_refuse _ _
  | map _ part =>
    cases wire with
    | dict found entries =>
      rw [ofWire]
      split_ifs
      · exact (Consumes.release 1 _).bind fun _ _ => consumes_decodeEntries part [] entries
      · exact Signature.consumes_refuse _ _
    | _ => exact Signature.consumes_refuse _ _

/-! ## Into wire values -/

theorem accounts_createFrom {value : Except Fault WireValue} (h : ∀ wire, value = .ok wire → wire.size = 1) :
    Accounts 0 size (createFrom value) := by
  cases value with
  | ok wire => exact .create (h wire rfl).symm
  | error fault => exact .fail

theorem accounts_toChain {elems : List NativeType} (parts : ∀ elem ∈ elems, ∀ value, Accounts 0 size (elem.toWire value))
    (i : Nat) (values : Values elems) : Accounts 0 sizeOfChain (toChain i elems values) := by
  induction elems generalizing i with
  | nil => exact .pure rfl
  | cons elem elems ih =>
    obtain ⟨first, others⟩ := values
    obtain ⟨here, there⟩ := List.forall_mem_cons.1 parts
    rw [toChain]
    refine (here first).within.bind fun wire _ => ?_
    refine ((ih there (i + 1) others).carrying wire.size).bind fun chain _ => .pure ?_
    rw [sizeOfChain, Nat.add_comm]

theorem accounts_encodeEntries {α : Type} {kind : KeyKind} {encodeItem : α → Metered WireValue}
    (part : ∀ item, Accounts 0 size (encodeItem item)) (built : List (WireKey × WireValue))
    (entries : List (kind.Value × α)) :
    Accounts (sizeOfEntries built) sizeOfEntries (encodeEntries kind encodeItem built entries) := by
  induction entries generalizing built with
  | nil => exact .pure rfl
  | cons entry rest ih =>
    rw [encodeEntries]
    refine ((part entry.2).within.carrying (sizeOfEntries built)).bind fun value _ => ?_
    -- the value joins the entries built so far, and the one it replaces is released
    have sizes := Foreign.sizeOfEntries_put (kind.toKey entry.1) value built
    refine (Accounts.release ?_).bind fun _ _ => ih (Entries.put (kind.toKey entry.1) value built)
    omega

theorem accounts_toWire {t : NativeType} (plain : t.Plain) (value : t.Value) : Accounts 0 size (t.toWire value) := by
  induction plain with
  | int w =>
    refine accounts_createFrom fun wire made => ?_
    obtain ⟨v, -, rfl⟩ := wireInt_ok_iff.1 made
    rfl
  | text =>
    refine accounts_createFrom fun wire made => ?_
    obtain ⟨t, -, rfl⟩ := wireText_ok_iff.1 made
    rfl
  | float32 => exact .create rfl
  | float64 => exact .create rfl
  | bool => exact .create rfl
  | list _ part =>
    refine (Signature.accounts_encodeItems part 0 value).bind fun wires _ => .create ?_
    rw [size, Nat.add_comm]
  | tuple _ parts =>
    refine (accounts_toChain parts 0 value).bind fun chain _ => .create ?_
    rw [size, Nat.add_comm]
  | map _ part =>
    refine (accounts_encodeEntries part [] value).bind fun made _ => .create ?_
    rw [size, Nat.add_comm]

/-- **Conversions of native values conserve objects.** For a type without wire values in it: taking a value out of a wire value
releases all objects of the wire value and creates none, whether it gives a value or a fault. Making a wire value, or the
entries of a dictionary, creates as many objects as it releases and the ones that are in the end held, so that a value that
an equal key has replaced is released; and after a fault none is held. -/
theorem conversions_conserve (t : NativeType) (plain : t.Plain) :
    (∀ wire, (t.ofWire wire).tally = ⟨0, wire.size⟩) ∧
    (∀ value : t.Value,
      (∀ wire, (t.toWire value).result = .ok wire →
        (t.toWire value).tally.created = (t.toWire value).tally.released + wire.size) ∧
      ∀ fault, (t.toWire value).result = .error fault → (t.toWire value).tally.created = (t.toWire value).tally.released) ∧
    ∀ (key : KeyKind) (entries : List (key.Value × t.Value)),
      (∀ made, (encodeEntries key t.toWire [] entries).result = .ok made →
        (encodeEntries key t.toWire [] entries).tally.created =
          (encodeEntries key t.toWire [] entries).tally.released + sizeOfEntries made) ∧
      ∀ fault, (encodeEntries key t.toWire [] entries).result = .error fault →
        (encodeEntries key t.toWire [] entries).tally.created = (encodeEntries key t.toWire [] entries).tally.released := by
  refine ⟨fun wire => (consumes_ofWire plain wire).tally_eq, fun value => ⟨?_, ?_⟩, fun key entries => ⟨?_, ?_⟩⟩
  · intro wire made
    exact (Nat.zero_add _).symm.trans ((accounts_toWire plain value).ok made)
  · intro fault failed
    exact (Nat.zero_add _).symm.trans ((accounts_toWire plain value).fault failed)
  · intro made encoded
    exact (Nat.zero_add _).symm.trans ((accounts_encodeEntries (accounts_toWire plain) [] entries).ok encoded)
  · intro fault failed
    exact (Nat.zero_add _).symm.trans ((accounts_encodeEntries (accounts_toWire plain) [] entries).fault failed)

/-- lists of pairs under truth values: a dictionary that fails at its second entry, an entry replaced by a smaller one, and one
that cannot be sent after another that can -/
theorem conversions_conserve_replaced_and_failed :
    let t : NativeType := .list (.tuple [.int .u64, .bool])
    let small : BoundedInt .u64 := ⟨7, by decide⟩
    let large : BoundedInt .u64 := ⟨0xFFFFFFFFFFFFFFFF, by decide⟩
    let pair : WireValue := .tuple [(0, .int ⟨7, by decide⟩), (1, .bool true)]
    ((NativeType.map .bool t).ofWire (.dict .bool [(.bool true, .list [pair, pair]), (.bool false, .bool true)])).tally =
      ⟨0, 9⟩ ∧
    (∃ made, (encodeEntries .bool t.toWire [] [(true, [(small, true, ()), (small, true, ())]), (true, [])]).result = .ok made ∧
      WireValue.sizeOfEntries made = 1 ∧
      (encodeEntries .bool t.toWire [] [(true, [(small, true, ()), (small, true, ())]), (true, [])]).tally.created =
        (encodeEntries .bool t.toWire [] [(true, [(small, true, ()), (small, true, ())]), (true, [])]).tally.released + 1) ∧
    (t.toWire [(small, true, ()), (large, true, ())]).tally.created =
      (t.toWire [(small, true, ()), (large, true, ())]).tally.released := by
  intro t small large pair
  have plain : t.Plain := by
    refine .list (.tuple ?_)
    simp only [List.forall_mem_cons, List.not_mem_nil, false_implies, implies_true, and_true]
    exact ⟨.int .u64, .bool⟩
  refine ⟨(conversions_conserve _ (.map plain)).1 _, ⟨[(.bool true, .list [])], rfl, rfl, ?_⟩, ?_⟩
  · exact ((conversions_conserve t plain).2.2 .bool _).1 [(.bool true, .list [])] rfl
  · exact ((conversions_conserve t plain).2.1 _).2 _ rfl

end NativeBridge.NativeType
