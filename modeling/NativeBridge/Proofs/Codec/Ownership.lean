/-
What becomes of the objects that encoding creates.

- `accounts_encode`: in the end exactly the objects of the wire value are left, and none after a fault: whatever had been
  built by then has been released.
- `keeps_encodeValue`: unless there is a fault, nothing is released on the way. For a dictionary this means that no entry ever
  takes the place of another one, which holds because different host keys have different wire keys.
- `encode_all_or_nothing`: what follows for the tally of an encoding, in each of its three outcomes.
-/
import Mathlib.Tactic
import NativeBridge.Codec.Encode
import NativeBridge.Foreign.Operations
import NativeBridge.Proofs.Accounting
import NativeBridge.Proofs.Codec.RoundTrip
import NativeBridge.Proofs.Codec.Success
import NativeBridge.Proofs.Signature

namespace NativeBridge.Signature

open Metered WireValue

attribute [local simp] encodeValue encodeShape encodeElems

/-! ## Parts of containers -/

theorem accounts_encodeItems {α : Type} {encodeItem : α → Metered WireValue}
    (part : ∀ item, Accounts 0 size (encodeItem item)) (i : Nat) (items : List α) :
    Accounts 0 sizeOfItems (encodeItems encodeItem i items) := by
  induction items generalizing i with
  | nil => exact .pure rfl
  | cons item rest ih =>
    rw [encodeItems]
    refine (part item).within.bind fun first _ => ?_
    refine ((ih (i + 1)).carrying first.size).bind fun others _ => .pure ?_
    rw [sizeOfItems, Nat.add_comm]

theorem accounts_encodeEntries {kind : KeyKind} {encodeItem : HostValue → Metered WireValue}
    (part : ∀ item, Accounts 0 size (encodeItem item)) (built : List (WireKey × WireValue))
    (entries : List (HostKey × HostValue)) :
    Accounts (sizeOfEntries built) sizeOfEntries (encodeEntries kind encodeItem built entries) := by
  induction entries generalizing built with
  | nil => exact .pure rfl
  | cons entry rest ih =>
    rw [encodeEntries]
    have key : Accounts 0 (fun _ => 0) (Metered.ofExcept (entry.1.toWire kind)) := .ofExcept fun _ _ => rfl
    refine (key.within.carrying (sizeOfEntries built)).bind fun wireKey _ => ?_
    rw [Nat.zero_add]
    refine ((part entry.2).within.carrying (sizeOfEntries built)).bind fun value _ => ?_
    -- the value joins the entries built so far, and the one it replaces is released
    have sizes := Foreign.sizeOfEntries_put wireKey value built
    refine (Accounts.release ?_).bind fun _ _ => ih (Entries.put wireKey value built)
    omega

theorem accounts_encodeElems {elems : List Signature}
    (parts : ∀ elem ∈ elems, ∀ item, Accounts 0 size (elem.encodeValue item)) (i : Nat) (items : List HostValue) :
    Accounts 0 sizeOfChain (encodeElems i elems items) := by
  induction elems generalizing i items with
  | nil =>
    rw [encodeElems]
    · exact .pure rfl
    · nofun
  | cons elem elems ih =>
    rw [List.forall_mem_cons] at parts
    cases items with
    | nil =>
      rw [encodeElems]
      · exact .pure rfl
      · nofun
    | cons item items =>
      rw [encodeElems]
      refine (ih parts.2 (i + 1) items).bind fun others _ => ?_
      exact ((parts.1 item).within.carrying (sizeOfChain others)).bind fun first _ => .pure rfl

/-! ## Values -/

theorem size_of_encodePrimitive {s : Signature} {kind : Primitive} {value : HostValue} {wire : WireValue}
    (h : s.encodePrimitive kind value = .ok wire) : wire.size = 1 := by
  cases kind with
  | int w =>
    obtain ⟨v, -, -, rfl⟩ := encodePrimitive_int_ok_iff.1 h
    rfl
  | float32 =>
    rcases encodePrimitive_float32_ok_iff.1 h with ⟨x, -, rfl⟩ | ⟨v, -, rfl⟩
    · rfl
    · rfl
  | float64 =>
    rcases encodePrimitive_float64_ok_iff.1 h with ⟨x, -, rfl⟩ | ⟨v, -, rfl⟩
    · rfl
    · rfl
  | bool =>
    obtain ⟨b, -, rfl⟩ := encodePrimitive_bool_ok_iff.1 h
    rfl
  | text =>
    obtain ⟨string, t, -, -, rfl⟩ := encodePrimitive_text_ok_iff.1 h
    rfl

theorem accounts_encodeValue (s : Signature) (value : HostValue) : Accounts 0 size (s.encodeValue value) := by
  induction s using Signature.induction generalizing value with
  | primitive access kind =>
    simp only [encodeValue, encodeShape]
    split
    · next wire h => exact .create (size_of_encodePrimitive h).symm
    · exact .fail
  | tuple access elems parts =>
    rw [encodeValue]
    cases value with
    | tuple items =>
      rw [encodeShape]
      split_ifs
      · refine (accounts_encodeElems parts 0 items).bind fun chain _ => .create ?_
        rw [size, Nat.add_comm]
      · exact .fail
    | _ => exact .fail
  | list access elem part =>
    rw [encodeValue]
    cases value with
    | list items =>
      rw [encodeShape]
      refine (accounts_encodeItems part 0 items).bind fun wires _ => .create ?_
      rw [size, Nat.add_comm]
    | _ => exact .fail
  | dict access kind item part =>
    rw [encodeValue]
    cases value with
    | dict entries =>
      rw [encodeShape]
      refine (accounts_encodeEntries part [] entries).bind fun wires _ => .create ?_
      rw [size, Nat.add_comm]
    | _ => exact .fail
  | hole access head => exact .fail
  | void access => exact .fail

theorem accounts_encode (s : Signature) (value : HostValue) : Accounts 0 size (s.encode value) := by
  unfold encode
  cases s.firstHole? with
  | none => exact accounts_encodeValue s value
  | some p => exact .fail

/-! ## Nothing is replaced -/

theorem keeps_encodeItems {α : Type} {encodeItem : α → Metered WireValue} {items : List α}
    (part : ∀ item ∈ items, Keeps (encodeItem item)) (i : Nat) : Keeps (encodeItems encodeItem i items) := by
  induction items generalizing i with
  | nil => exact .pure _
  | cons item rest ih =>
    rw [List.forall_mem_cons] at part
    rw [encodeItems]
    exact part.1.within.bind fun first _ => (ih part.2 (i + 1)).releasingOnFault.bind fun others _ => .pure _

/-- entries with different keys, none of which stands among the entries built so far, do not replace any of these nor each
other -/
theorem keeps_encodeEntries {kind : KeyKind} {encodeItem : HostValue → Metered WireValue}
    {built : List (WireKey × WireValue)} {entries : List (HostKey × HostValue)}
    (part : ∀ entry ∈ entries, Keeps (encodeItem entry.2)) (nodup : (entries.map Prod.fst).Nodup)
    (fresh : ∀ entry ∈ entries, ∀ key, entry.1.toWire kind = .ok key → key ∉ built.map Prod.fst) :
    Keeps (encodeEntries kind encodeItem built entries) := by
  induction entries generalizing built with
  | nil => exact .pure _
  | cons entry rest ih =>
    rw [List.forall_mem_cons] at part fresh
    obtain ⟨different, nodup⟩ := List.nodup_cons.1 nodup
    rw [encodeEntries]
    refine (Keeps.ofExcept _).within.releasingOnFault.bind fun wireKey encoded => ?_
    rw [result_releasingOnFault, within_ok_iff, result_ofExcept] at encoded
    refine part.1.within.releasingOnFault.bind fun value _ => ?_
    have here := fresh.1 wireKey encoded
    have others : ∀ other ∈ rest, ∀ key, other.1.toWire kind = .ok key →
        key ∉ (Entries.put wireKey value built).map Prod.fst := by
      intro other mem key made
      rw [Entries.put_eq_append here, List.map_append, List.mem_append, not_or]
      refine ⟨fresh.2 other mem key made, ?_⟩
      intro same
      obtain rfl : key = wireKey := List.mem_singleton.1 same
      exact different (WireKey.toWire_injective encoded made ▸ List.mem_map_of_mem mem)
    rw [Entries.get?_eq_none here]
    exact Keeps.bind (fun _ _ => rfl) fun _ _ => ih part.2 nodup others

theorem keeps_encodeElems {elems : List Signature} {items : List HostValue}
    (parts : ∀ elem ∈ elems, ∀ item ∈ items, Keeps (elem.encodeValue item)) (i : Nat) :
    Keeps (encodeElems i elems items) := by
  induction elems generalizing i items with
  | nil =>
    rw [encodeElems]
    · exact .pure _
    · nofun
  | cons elem elems ih =>
    rw [List.forall_mem_cons] at parts
    cases items with
    | nil =>
      rw [encodeElems]
      · exact .pure _
      · nofun
    | cons item items =>
      have others := fun other mem item' mem' => parts.2 other mem item' (List.mem_cons_of_mem item mem')
      rw [encodeElems]
      refine (ih others (i + 1)).bind fun chain _ => ?_
      exact (parts.1 item List.mem_cons_self).within.releasingOnFault.bind fun first _ => .pure _

theorem keeps_encodeValue (s : Signature) {value : HostValue} (ordered : value.WellFormed) :
    Keeps (s.encodeValue value) := by
  induction s using Signature.induction generalizing value with
  | primitive access kind =>
    simp only [encodeValue, encodeShape]
    split
    · exact .create _
    · exact .fail _
  | tuple access elems parts =>
    rw [encodeValue]
    cases ordered with
    | tuple ordered =>
      rw [encodeShape]
      split_ifs
      · have elements := keeps_encodeElems (fun elem mem item mem' => parts elem mem (ordered item mem')) 0
        exact elements.bind fun chain _ => .create _
      · exact .fail _
    | _ => exact .fail _
  | list access elem part =>
    rw [encodeValue]
    cases ordered with
    | list ordered =>
      rw [encodeShape]
      exact (keeps_encodeItems (fun item mem => part (ordered item mem)) 0).bind fun wires _ => .create _
    | _ => exact .fail _
  | dict access kind item part =>
    rw [encodeValue]
    cases ordered with
    | @dict entries ascending ordered =>
      rw [encodeShape]
      have built : Keeps (encodeEntries kind item.encodeValue [] entries) :=
        keeps_encodeEntries (fun entry mem => part (ordered entry mem)) ascending.nodup fun _ _ _ _ => List.not_mem_nil
      exact built.bind fun wires _ => .create _
    | _ => exact .fail _
  | hole access head => exact .fail _
  | void access => exact .fail _

theorem keeps_encode (s : Signature) {value : HostValue} (ordered : value.WellFormed) : Keeps (s.encode value) := by
  unfold encode
  cases s.firstHole? with
  | none => exact keeps_encodeValue s ordered
  | some p => exact .fail _

/-- a hole anywhere in the signature is noticed before anything is created -/
theorem encode_of_hasHole {s : Signature} (hole : s.HasHole) (value : HostValue) :
    ∃ p, s.firstHole? = some p ∧ s.encode value = ⟨.error (.missingHint "" p), 0⟩ := by
  obtain ⟨p, found⟩ := hasHole_iff.1 hole
  refine ⟨p, found, ?_⟩
  unfold encode
  rw [found]
  rfl

/-- **Encoding creates the whole wire value or nothing.** A value that can be encoded has cost exactly the objects it consists
of, none of which was released again; after a fault, whatever had been created has been released; and if the signature has
a hole, the first one is reported and nothing has been created. -/
theorem encode_all_or_nothing (s : Signature) (value : HostValue) (ordered : value.WellFormed) :
    (∀ wire, (s.encode value).result = .ok wire → (s.encode value).tally = ⟨wire.size, 0⟩) ∧
    (∀ fault, (s.encode value).result = .error fault → (s.encode value).tally.created = (s.encode value).tally.released) ∧
    (s.HasHole → ∃ p, s.firstHole? = some p ∧ s.encode value = ⟨.error (.missingHint "" p), 0⟩) := by
  refine ⟨?_, ?_, fun hole => encode_of_hasHole hole value⟩
  · intro wire encoded
    exact (keeps_encode s ordered).tally_eq (accounts_encode s value) encoded
  · intro fault failed
    have settled := (accounts_encode s value).fault failed
    rwa [Nat.zero_add] at settled

/-- a dictionary of lists with two keys costs four objects; with a text too many in the second list, the three that were
created before it are released -/
theorem encode_all_or_nothing_two_keys :
    let s : Signature := ⟨.borrowed, .dict (.int .u8) (.owned (.list (.owned (.primitive .bool))))⟩
    let value (last : List HostValue) : HostValue :=
      .dict [(.int ⟨0, by decide⟩, .list [.bool true]), (.int ⟨255, by decide⟩, .list last)]
    (s.encode (value [])).tally = ⟨4, 0⟩ ∧
      (∃ fault, (s.encode (value [.text "x"])).result = .error fault) ∧
      (s.encode (value [.text "x"])).tally.created = (s.encode (value [.text "x"])).tally.released := by
  intro s value
  have ordered : ∀ last : List HostValue, (∀ item ∈ last, item.WellFormed) → (value last).WellFormed := by
    intro last parts
    refine .dict (List.pairwise_pair.2 rfl) ?_
    intro entry mem
    rcases List.mem_pair.1 mem with rfl | rfl
    · exact .list (List.forall_mem_singleton.2 (.bool true))
    · exact .list parts
  have whole := encode_all_or_nothing s (value []) (ordered [] nofun)
  have broken := encode_all_or_nothing s (value [.text "x"]) (ordered _ (List.forall_mem_singleton.2 (.text "x")))
  exact ⟨whole.1 _ rfl, ⟨_, rfl⟩, broken.2.1 _ rfl⟩

end NativeBridge.Signature
