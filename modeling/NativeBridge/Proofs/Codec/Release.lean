/-
What becomes of the objects of a wire value that is decoded.

- `consumes_decodeItems`, `consumes_decodeEntries`, `consumes_decodeElems`: the parts of a container are released one after the
  other, and those that are left when one of them cannot be decoded are released at once.
- `decode_releases_all`: decoding takes the value over. Whatever it gives, all objects of the value are released in the end,
  and no other object is ever created or released.
-/
import Mathlib.Tactic
import NativeBridge.Codec.Decode
import NativeBridge.Proofs.Accounting
import NativeBridge.Proofs.Objects
import NativeBridge.Proofs.Signature

namespace NativeBridge.Signature

open Metered WireValue

theorem consumes_refuse {α : Type} (value : WireValue) (fault : Fault) :
    Consumes value.size 0 (refuse value fault : Metered α) :=
  (Consumes.release value.size 0).bind fun _ _ => .fail fault

/-! ## Parts of containers -/

theorem consumes_decodeItems {α : Type} {decodeItem : WireValue → Metered α}
    (part : ∀ wire, Consumes wire.size 0 (decodeItem wire)) (i : Nat) (wires : List WireValue) :
    Consumes (sizeOfItems wires) 0 (decodeItems decodeItem i wires) := by
  induction wires generalizing i with
  | nil => exact .pure _
  | cons wire rest ih =>
    -- the rest of the list is decoded first, while this element waits
    have waiting := (ih (i + 1)).releasingOnFault wire.size
    rw [Nat.zero_add, Nat.add_comm] at waiting
    rw [decodeItems, sizeOfItems]
    exact waiting.bind fun others _ => (part wire).within.bind fun first _ => .pure _

theorem consumes_decodeEntries {kind : KeyKind} {decodeItem : WireValue → Metered HostValue}
    (part : ∀ wire, Consumes wire.size 0 (decodeItem wire)) (decoded : List (HostKey × HostValue))
    (wires : List (WireKey × WireValue)) : Consumes (sizeOfEntries wires) 0 (decodeEntries kind decodeItem decoded wires) := by
  induction wires generalizing decoded with
  | nil => exact .pure _
  | cons wire rest ih =>
    have key : Consumes 0 0 (Metered.within .key (.ofExcept (wire.1.toHost kind))) := (Consumes.ofExcept _).within
    have keyFirst := key.releasingOnFault (wire.2.size + sizeOfEntries rest)
    have value : Consumes wire.2.size 0 ((decodeItem wire.2).within .value) := (part wire.2).within
    have valueFirst := value.releasingOnFault (sizeOfEntries rest)
    rw [Nat.zero_add] at keyFirst valueFirst
    rw [decodeEntries, sizeOfEntries]
    exact keyFirst.bind fun hostKey _ => valueFirst.bind fun item _ => ih _

/-- the elements of a drained chain that has as many of them as the tuple; a wrong index ends the walk like any other fault -/
theorem consumes_decodeElems {elems : List Signature}
    (parts : ∀ elem ∈ elems, ∀ wire, Consumes wire.size 0 (elem.decodeValue wire)) (i : Nat)
    {links : List (Nat × WireValue)} (same : links.length = elems.length) :
    Consumes (sizeOfChain links) 0 (decodeElems i elems links) := by
  induction elems generalizing i links with
  | nil =>
    obtain rfl := List.length_eq_zero_iff.1 same
    exact .pure _
  | cons elem elems ih =>
    rw [List.forall_mem_cons] at parts
    cases links with
    | nil => cases same
    | cons link links =>
      rw [decodeElems, sizeOfChain]
      split_ifs
      · have element : Consumes link.2.size 0 ((elem.decodeValue link.2).within (.index i)) := (parts.1 link.2).within
        have elementFirst := element.releasingOnFault (sizeOfChain links)
        rw [Nat.zero_add] at elementFirst
        exact elementFirst.bind fun item _ => (ih parts.2 (i + 1) (Nat.succ.inj same)).bind fun others _ => .pure _
      · exact (Consumes.release _ 0).bind fun _ _ => .fail _

/-! ## Values -/

theorem consumes_decodeValue (s : Signature) (wire : WireValue) : Consumes wire.size 0 (s.decodeValue wire) := by
  induction s using Signature.induction generalizing wire with
  | primitive access kind =>
    rw [decodeValue, decodeShape]
    exact (Consumes.release wire.size 0).bind fun _ _ => .ofExcept _
  | tuple access elems parts =>
    rw [decodeValue]
    cases wire with
    | tuple chain =>
      rw [decodeShape]
      split_ifs with same
      · have drained : (Chain.drain chain).length = elems.length := (Chain.length_drain chain).trans same
        have walked := consumes_decodeElems parts 0 drained
        rw [sizeOfChain_drain] at walked
        exact (Consumes.release 1 _).bind fun _ _ => walked.bind fun items _ => .pure _
      · exact consumes_refuse _ _
    | _ => exact consumes_refuse _ _
  | list access elem part =>
    rw [decodeValue]
    cases wire with
    | list wires =>
      rw [decodeShape]
      exact (Consumes.release 1 _).bind fun _ _ => (consumes_decodeItems part 0 wires).bind fun items _ => .pure _
    | _ => exact consumes_refuse _ _
  | dict access kind item part =>
    rw [decodeValue]
    cases wire with
    | dict found entries =>
      rw [decodeShape]
      split_ifs
      · exact (Consumes.release 1 _).bind fun _ _ => (consumes_decodeEntries part [] entries).bind fun decoded _ => .pure _
      · exact consumes_refuse _ _
    | _ => exact consumes_refuse _ _
  | hole access head => exact consumes_refuse _ _
  | void access => exact consumes_refuse _ _

theorem consumes_decode (s : Signature) (wire : WireValue) : Consumes wire.size 0 (s.decode wire) := by
  unfold decode
  cases s.firstHole? with
  | none => exact consumes_decodeValue s wire
  | some p => exact consumes_refuse wire _

/-- **Decoding releases the whole value.** Whatever the wire value is and whatever the signature says, a value or a fault at
any depth comes out only after every object of the wire value has been released, and nothing else is created or released. -/
theorem decode_releases_all (s : Signature) (wire : WireValue) : (s.decode wire).tally = ⟨0, wire.size⟩ :=
  (consumes_decode s wire).tally_eq

end NativeBridge.Signature
