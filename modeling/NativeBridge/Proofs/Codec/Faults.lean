/-
What can go wrong in the codecs of a signature without holes: the value does not fit, and nothing else. In particular no hint
is missing, so what has been checked before a call is not reported by the call.

- `Fault.OfValue`: the faults of a value that does not fit its type.
- `faultsIn_encode`, `faultsIn_decode`: the codecs of a signature without holes end with these faults only.
-/
import Mathlib.Tactic
import NativeBridge.Codec.Decode
import NativeBridge.Proofs.Accounting
import NativeBridge.Proofs.Signature

namespace NativeBridge

/-! ## Faults of values -/

/-- a value does not fit its type -/
def Fault.OfValue : Fault → Prop
  | .unsupportedType _ | .typeMismatch _ _ _ | .invalidText _ | .keyOutOfRange _ _ | .intOutOfRange _ _ _ => True
  | _ => False

theorem Fault.OfValue.within {fault : Fault} (h : fault.OfValue) (step : Step) : (fault.within step).OfValue := by
  cases fault with
  | _ => exact h

theorem Fault.OfValue.forSymbol {fault : Fault} (h : fault.OfValue) (name : String) : fault.forSymbol name = fault := by
  cases fault with
  | missingHint symbol p => exact absurd h id
  | nullResult symbol => exact absurd h id
  | _ => rfl

theorem HostKey.ofValue_of_toWire {kind : KeyKind} {key : HostKey} {fault : Fault} (h : key.toWire kind = .error fault) :
    fault.OfValue := by
  unfold HostKey.toWire at h
  split at h
  · split at h <;> cases h
    trivial
  · cases h
  · split at h <;> cases h
    trivial
  · cases h
    trivial

theorem WireKey.ofValue_of_toHost {kind : KeyKind} {key : WireKey} {fault : Fault} (h : key.toHost kind = .error fault) :
    fault.OfValue := by
  unfold WireKey.toHost at h
  split at h
  · split at h
    · split at h <;> cases h
      trivial
    · cases h
    · cases h
  · cases h
    trivial

theorem IntWidth.ofValue_of_check {w : IntWidth} {v : HostInt} {fault : Fault} (h : w.check v = .error fault) :
    fault.OfValue := by
  unfold IntWidth.check at h
  split at h <;> cases h
  trivial

namespace Signature

open Metered

attribute [local simp] encodeValue encodeShape encodeElems decodeValue decodeShape decodeElems

theorem ofValue_of_encodePrimitive {s : Signature} {kind : Primitive} {value : HostValue} {fault : Fault}
    (h : s.encodePrimitive kind value = .error fault) : fault.OfValue := by
  unfold encodePrimitive at h
  split at h
  · next w v =>
    cases checked : w.check v with
    | ok u => simp [checked, Except.map] at h
    | error inner =>
      rw [checked] at h
      cases h
      exact IntWidth.ofValue_of_check checked
  · cases h
  · cases h
  · cases h
  · cases h
  · cases h
  · next t =>
    unfold WireText.ofString at h
    split at h <;> cases h
    trivial
  · cases h
    trivial

theorem ofValue_of_decodePrimitive {s : Signature} {kind : Primitive} {wire : WireValue} {fault : Fault}
    (h : s.decodePrimitive kind wire = .error fault) : fault.OfValue := by
  unfold decodePrimitive at h
  split at h
  · next w v =>
    cases checked : w.check v with
    | ok u => simp [checked, Except.map] at h
    | error inner =>
      rw [checked] at h
      cases h
      exact IntWidth.ofValue_of_check checked
  · cases h
  · cases h
  · cases h
  · split at h <;> cases h
    trivial
  · cases h
    trivial

theorem faultsIn_refuse {α : Type} {value : WireValue} {fault : Fault} (h : fault.OfValue) :
    FaultsIn Fault.OfValue (refuse value fault : Metered α) :=
  (FaultsIn.release _).bind fun _ _ => .fail h

/-! ## Parts of containers -/

theorem faultsIn_within {α : Type} {x : Metered α} (h : FaultsIn Fault.OfValue x) (step : Step) :
    FaultsIn Fault.OfValue (x.within step) :=
  h.within fun _ inner => inner.within step

theorem faultsIn_encodeItems {α : Type} {encodeItem : α → Metered WireValue}
    (part : ∀ item, FaultsIn Fault.OfValue (encodeItem item)) (i : Nat) (items : List α) :
    FaultsIn Fault.OfValue (encodeItems encodeItem i items) := by
  induction items generalizing i with
  | nil => exact .pure _
  | cons item rest ih =>
    rw [encodeItems]
    refine (faultsIn_within (part item) _).bind fun first _ => ?_
    exact (ih (i + 1)).releasingOnFault.bind fun others _ => .pure _

theorem faultsIn_decodeItems {α : Type} {decodeItem : WireValue → Metered α}
    (part : ∀ wire, FaultsIn Fault.OfValue (decodeItem wire)) (i : Nat) (wires : List WireValue) :
    FaultsIn Fault.OfValue (decodeItems decodeItem i wires) := by
  induction wires generalizing i with
  | nil => exact .pure _
  | cons wire rest ih =>
    rw [decodeItems]
    refine (ih (i + 1)).releasingOnFault.bind fun others _ => ?_
    exact (faultsIn_within (part wire) _).bind fun first _ => .pure _

theorem faultsIn_encodeEntries {kind : KeyKind} {encodeItem : HostValue → Metered WireValue}
    (part : ∀ item, FaultsIn Fault.OfValue (encodeItem item)) (built : List (WireKey × WireValue))
    (entries : List (HostKey × HostValue)) : FaultsIn Fault.OfValue (encodeEntries kind encodeItem built entries) := by
  induction entries generalizing built with
  | nil => exact .pure _
  | cons entry rest ih =>
    rw [encodeEntries]
    have key : FaultsIn Fault.OfValue (Metered.ofExcept (entry.1.toWire kind)) :=
      .ofExcept fun fault h => HostKey.ofValue_of_toWire h
    refine (faultsIn_within key _).releasingOnFault.bind fun wireKey _ => ?_
    refine (faultsIn_within (part entry.2) _).releasingOnFault.bind fun value _ => ?_
    exact (FaultsIn.release _).bind fun _ _ => ih _

theorem faultsIn_decodeEntries {kind : KeyKind} {decodeItem : WireValue → Metered HostValue}
    (part : ∀ wire, FaultsIn Fault.OfValue (decodeItem wire)) (decoded : List (HostKey × HostValue))
    (wires : List (WireKey × WireValue)) : FaultsIn Fault.OfValue (decodeEntries kind decodeItem decoded wires) := by
  induction wires generalizing decoded with
  | nil => exact .pure _
  | cons wire rest ih =>
    rw [decodeEntries]
    have key : FaultsIn Fault.OfValue (Metered.ofExcept (wire.1.toHost kind)) :=
      .ofExcept fun fault h => WireKey.ofValue_of_toHost h
    refine (faultsIn_within key _).releasingOnFault.bind fun hostKey _ => ?_
    exact (faultsIn_within (part wire.2) _).releasingOnFault.bind fun value _ => ih _

theorem faultsIn_encodeElems {elems : List Signature}
    (parts : ∀ elem ∈ elems, ∀ item, FaultsIn Fault.OfValue (elem.encodeValue item)) (i : Nat) (items : List HostValue) :
    FaultsIn Fault.OfValue (encodeElems i elems items) := by
  induction elems generalizing i items with
  | nil =>
    rw [encodeElems]
    · exact .pure _
    · nofun
  | cons elem elems ih =>
    rw [List.forall_mem_cons] at parts
    cases items with
    | nil =>
      rw [encodeElems]
      · exact .pure _
      · nofun
    | cons item items =>
      rw [encodeElems]
      refine (ih parts.2 (i + 1) items).bind fun others _ => ?_
      exact (faultsIn_within (parts.1 item) _).releasingOnFault.bind fun first _ => .pure _

theorem faultsIn_decodeElems {elems : List Signature}
    (parts : ∀ elem ∈ elems, ∀ wire, FaultsIn Fault.OfValue (elem.decodeValue wire)) (i : Nat)
    (links : List (Nat × WireValue)) : FaultsIn Fault.OfValue (decodeElems i elems links) := by
  induction elems generalizing i links with
  | nil =>
    rw [decodeElems]
    · exact .pure _
    · nofun
  | cons elem elems ih =>
    rw [List.forall_mem_cons] at parts
    cases links with
    | nil =>
      rw [decodeElems]
      · exact .pure _
      · nofun
    | cons link links =>
      rw [decodeElems]
      split_ifs
      · refine (faultsIn_within (parts.1 link.2) _).releasingOnFault.bind fun first _ => ?_
        exact (ih parts.2 (i + 1) links).bind fun others _ => .pure _
      · exact (FaultsIn.release _).bind fun _ _ => .fail trivial

/-! ## Codecs of signatures without holes -/

theorem faultsIn_encodeValue {s : Signature} (resolved : s.firstHole? = none) (value : HostValue) :
    FaultsIn Fault.OfValue (s.encodeValue value) := by
  induction s using Signature.induction generalizing value with
  | primitive access kind =>
    simp only [encodeValue, encodeShape]
    split
    · exact .create _
    · next h => exact .fail (ofValue_of_encodePrimitive h)
  | tuple access elems parts =>
    rw [firstHole?_tuple_iff] at resolved
    rw [encodeValue]
    cases value with
    | tuple items =>
      rw [encodeShape]
      split_ifs
      · refine (faultsIn_encodeElems (fun elem mem item => ?_) 0 items).bind fun chain _ => .create _
        exact parts elem mem (resolved elem mem) item
      · exact .fail trivial
    | _ => exact .fail trivial
  | list access elem part =>
    rw [firstHole?_list_iff] at resolved
    rw [encodeValue]
    cases value with
    | list items =>
      rw [encodeShape]
      exact (faultsIn_encodeItems (part resolved) 0 items).bind fun wires _ => .create _
    | _ => exact .fail trivial
  | dict access kind item part =>
    rw [firstHole?_dict_iff] at resolved
    rw [encodeValue]
    cases value with
    | dict entries =>
      rw [encodeShape]
      exact (faultsIn_encodeEntries (part resolved) [] entries).bind fun wires _ => .create _
    | _ => exact .fail trivial
  | hole access head =>
    rw [firstHole?_hole] at resolved
    cases resolved
  | void access => exact .fail trivial

theorem faultsIn_decodeValue {s : Signature} (resolved : s.firstHole? = none) (wire : WireValue) :
    FaultsIn Fault.OfValue (s.decodeValue wire) := by
  induction s using Signature.induction generalizing wire with
  | primitive access kind =>
    rw [decodeValue, decodeShape]
    exact (FaultsIn.release _).bind fun _ _ => .ofExcept fun fault h => ofValue_of_decodePrimitive h
  | tuple access elems parts =>
    rw [firstHole?_tuple_iff] at resolved
    rw [decodeValue]
    cases wire with
    | tuple chain =>
      rw [decodeShape]
      split_ifs
      · refine (FaultsIn.release _).bind fun _ _ => ?_
        refine (faultsIn_decodeElems (fun elem mem wire => ?_) 0 _).bind fun items _ => .pure _
        exact parts elem mem (resolved elem mem) wire
      · exact faultsIn_refuse trivial
    | _ => exact faultsIn_refuse trivial
  | list access elem part =>
    rw [firstHole?_list_iff] at resolved
    rw [decodeValue]
    cases wire with
    | list wires =>
      rw [decodeShape]
      refine (FaultsIn.release _).bind fun _ _ => ?_
      exact (faultsIn_decodeItems (part resolved) 0 wires).bind fun items _ => .pure _
    | _ => exact faultsIn_refuse trivial
  | dict access kind item part =>
    rw [firstHole?_dict_iff] at resolved
    rw [decodeValue]
    cases wire with
    | dict found entries =>
      rw [decodeShape]
      split_ifs
      · refine (FaultsIn.release _).bind fun _ _ => ?_
        exact (faultsIn_decodeEntries (part resolved) [] entries).bind fun decoded _ => .pure _
      · exact faultsIn_refuse trivial
    | _ => exact faultsIn_refuse trivial
  | hole access head =>
    rw [firstHole?_hole] at resolved
    cases resolved
  | void access => exact faultsIn_refuse trivial

theorem faultsIn_encode {s : Signature} (resolved : s.firstHole? = none) (value : HostValue) :
    FaultsIn Fault.OfValue (s.encode value) := by
  rw [encode, resolved]
  exact faultsIn_encodeValue resolved value

theorem faultsIn_decode {s : Signature} (resolved : s.firstHole? = none) (wire : WireValue) :
    FaultsIn Fault.OfValue (s.decode wire) := by
  rw [decode, resolved]
  exact faultsIn_decodeValue resolved wire

end Signature

end NativeBridge
