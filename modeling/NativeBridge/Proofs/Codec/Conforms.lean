/-
Which host values a signature takes, and where the encoder finds the fault with the others.

- `Signature.Conforms`: the value is, part by part, what the signature says. `encodeValue_ok_iff_conforms`: these are exactly the
  values that can be encoded.
- `encodeItems_fault`, `encodeElems_fault`, `encodeEntries_fault`: the part that makes a container fail. A list fails for the
  first part that cannot be encoded, a tuple for the last one, a dictionary for the first entry, and for its key before its value.
- `Signature.Blames`: the way from a value down to the spot that is to blame.
- `encode_blames`: a fault with a position is the fault of the spot at that position.
-/
import Mathlib.Tactic
import NativeBridge.Proofs.Codec.RoundTrip
import NativeBridge.Proofs.Codec.Success
import NativeBridge.Proofs.Text

namespace NativeBridge

/-! ## Keys -/

/-- the host key is what the kind says -/
inductive KeyKind.Takes : KeyKind → HostKey → Prop
  | int {w} {v : HostInt} (holds : w.Holds v.val) : Takes (.int w) (.int v)
  | bool (b : Bool) : Takes .bool (.bool b)
  | text {s : String} (free : '\x00' ∉ s.toList) : Takes .text (.text s)

theorem KeyKind.takes_iff {kind : KeyKind} {key : HostKey} : kind.Takes key ↔ ∃ wire, key.toWire kind = .ok wire := by
  constructor
  · intro takes
    cases takes with
    | @int w v holds =>
      have made : BoundedInt.ofInt? w v.val = some ⟨v.val, holds⟩ := BoundedInt.ofInt?_eq_some_iff.2 rfl
      exact ⟨.int w ⟨v.val, holds⟩, by simp [HostKey.toWire, made]⟩
    | bool b => exact ⟨.bool b, rfl⟩
    | @text s free => exact ⟨.text s, by simp [HostKey.toWire, free]⟩
  · intro h
    rcases h with ⟨wire, h⟩
    unfold HostKey.toWire at h
    split at h
    · next w v =>
      split at h
      · next value made =>
        have same : value.val = v.val := (BoundedInt.ofInt?_eq_some_iff.1 made).symm
        exact .int (same ▸ value.holds)
      · cases h
    · exact .bool _
    · next s =>
      split_ifs at h with zero
      exact .text (by simpa using zero)
    · cases h

/-- the codec of keys knows of no position -/
theorem HostKey.position?_of_toWire {kind : KeyKind} {key : HostKey} {fault : Fault} {p : Position}
    (h : key.toWire kind = .error fault) (placed : fault.position? = some p) : p = [] := by
  unfold toWire at h
  split at h
  · split at h
    · cases h
    · cases h
      cases placed
  · cases h
  · split_ifs at h
    cases h
    cases placed
  · cases h
    cases placed
    rfl

/-! ## Values -/

/-- the host value is, part by part, what the signature says -/
inductive Signature.Conforms : Signature → HostValue → Prop
  | int {access w} {v : HostInt} (holds : w.Holds v.val) : Conforms ⟨access, .primitive (.int w)⟩ (.int v)
  | float32 {access} (x : Binary64) : Conforms ⟨access, .primitive .float32⟩ (.float x)
  | float32OfInt {access} (v : HostInt) : Conforms ⟨access, .primitive .float32⟩ (.int v)
  | float64 {access} (x : Binary64) : Conforms ⟨access, .primitive .float64⟩ (.float x)
  | float64OfInt {access} (v : HostInt) : Conforms ⟨access, .primitive .float64⟩ (.int v)
  | bool {access} (b : Bool) : Conforms ⟨access, .primitive .bool⟩ (.bool b)
  | text {access} {s : String} (free : '\x00' ∉ s.toList) : Conforms ⟨access, .primitive .text⟩ (.text s)
  | tuple {access elems items} (parts : List.Forall₂ Conforms elems items) : Conforms ⟨access, .tuple elems⟩ (.tuple items)
  | list {access elem items} (parts : ∀ item ∈ items, Conforms elem item) : Conforms ⟨access, .list elem⟩ (.list items)
  | dict {access kind item entries} (keys : ∀ entry ∈ entries, KeyKind.Takes kind entry.1)
      (parts : ∀ entry ∈ entries, Conforms item entry.2) : Conforms ⟨access, .dict kind item⟩ (.dict entries)

namespace Signature

open Metered

theorem encodePrimitive_ok_iff_conforms {access : Access} {kind : Primitive} {value : HostValue} :
    (∃ wire, encodePrimitive ⟨access, .primitive kind⟩ kind value = .ok wire) ↔
      Conforms ⟨access, .primitive kind⟩ value := by
  cases kind with
  | int w =>
    simp only [encodePrimitive_int_ok_iff]
    constructor
    · intro h
      rcases h with ⟨_, v, rfl, holds, -⟩
      exact .int holds
    · intro conforms
      cases conforms with
      | int holds => exact ⟨_, _, rfl, holds, rfl⟩
  | float32 =>
    simp only [encodePrimitive_float32_ok_iff]
    constructor
    · intro h
      rcases h with ⟨_, ⟨x, rfl, -⟩ | ⟨v, rfl, -⟩⟩
      · exact .float32 x
      · exact .float32OfInt v
    · intro conforms
      cases conforms with
      | float32 x => exact ⟨_, .inl ⟨x, rfl, rfl⟩⟩
      | float32OfInt v => exact ⟨_, .inr ⟨v, rfl, rfl⟩⟩
  | float64 =>
    simp only [encodePrimitive_float64_ok_iff]
    constructor
    · intro h
      rcases h with ⟨_, ⟨x, rfl, -⟩ | ⟨v, rfl, -⟩⟩
      · exact .float64 x
      · exact .float64OfInt v
    · intro conforms
      cases conforms with
      | float64 x => exact ⟨_, .inl ⟨x, rfl, rfl⟩⟩
      | float64OfInt v => exact ⟨_, .inr ⟨v, rfl, rfl⟩⟩
  | bool =>
    simp only [encodePrimitive_bool_ok_iff]
    constructor
    · intro h
      rcases h with ⟨_, b, rfl, -⟩
      exact .bool b
    · intro conforms
      cases conforms with
      | bool b => exact ⟨_, b, rfl, rfl⟩
  | text =>
    simp only [encodePrimitive_text_ok_iff]
    constructor
    · intro h
      rcases h with ⟨_, string, t, rfl, made, -⟩
      exact .text (WireText.exists_ofString_iff.1 ⟨t, WireText.ofString_ok_iff.2 made⟩)
    · intro conforms
      cases conforms with
      | text free =>
        obtain ⟨t, made⟩ := WireText.exists_ofString_iff.2 free
        exact ⟨_, _, t, rfl, WireText.ofString_ok_iff.1 made, rfl⟩

/-- the elements of a tuple can be encoded exactly if each conforms to its type -/
theorem exists_encode_elems_iff {elems : List Signature} {items : List HostValue}
    (parts : ∀ elem ∈ elems, ∀ {item}, (∃ wire, (elem.encodeValue item).result = .ok wire) ↔ elem.Conforms item)
    (same : elems.length = items.length) :
    (∃ wires, List.Forall₂ (fun elem wire => (encodeValue elem.1 elem.2).result = .ok wire) (elems.zip items) wires) ↔
      List.Forall₂ Conforms elems items := by
  rw [exists_forall₂_iff, List.forall₂_iff_zip]
  constructor
  · intro h
    refine ⟨same, fun {elem item} mem => ?_⟩
    exact (parts elem (List.of_mem_zip mem).1).1 (h (elem, item) mem)
  · intro h pair mem
    exact (parts pair.1 (List.of_mem_zip mem).1).2 (h.2 mem)

/-- **The values that can be encoded are those that conform.** -/
theorem encodeValue_ok_iff_conforms {s : Signature} {value : HostValue} :
    (∃ wire, (s.encodeValue value).result = .ok wire) ↔ s.Conforms value := by
  induction s using Signature.induction generalizing value with
  | primitive access kind => simp only [result_encodeValue_primitive, encodePrimitive_ok_iff_conforms]
  | tuple access elems parts =>
    simp only [encodeValue_tuple_ok_iff]
    constructor
    · intro h
      rcases h with ⟨_, items, wires, rfl, same, encoded, -⟩
      exact .tuple ((exists_encode_elems_iff parts same).1 ⟨wires, encoded⟩)
    · intro conforms
      cases conforms with
      | tuple conform =>
        obtain ⟨wires, encoded⟩ := (exists_encode_elems_iff parts conform.length_eq).2 conform
        exact ⟨_, _, wires, rfl, conform.length_eq, encoded, rfl⟩
  | list access elem part =>
    simp only [encodeValue_list_ok_iff]
    constructor
    · intro h
      rcases h with ⟨_, items, wires, rfl, encoded, -⟩
      exact .list fun item mem => part.1 (exists_forall₂_iff.1 ⟨wires, encoded⟩ item mem)
    · intro conforms
      cases conforms with
      | list conform =>
        obtain ⟨wires, encoded⟩ := exists_forall₂_iff.2 fun item mem => part.2 (conform item mem)
        exact ⟨_, _, wires, rfl, encoded, rfl⟩
  | dict access kind item part =>
    simp only [encodeValue_dict_ok_iff]
    constructor
    · intro h
      rcases h with ⟨_, entries, wires, rfl, encoded, -⟩
      have each := exists_forall₂_iff.1 ⟨wires, encoded⟩
      refine .dict ?_ ?_
      · intro entry mem
        obtain ⟨wire, key, -⟩ := each entry mem
        exact KeyKind.takes_iff.2 ⟨wire.1, key⟩
      · intro entry mem
        obtain ⟨wire, -, value⟩ := each entry mem
        exact part.1 ⟨wire.2, value⟩
    · intro conforms
      cases conforms with
      | @dict _ _ _ entries keys conform =>
        have each : ∀ entry ∈ entries, ∃ wire, EncodesEntry kind item.encodeValue entry wire := by
          intro entry mem
          obtain ⟨key, hk⟩ := KeyKind.takes_iff.1 (keys entry mem)
          obtain ⟨value, hv⟩ := part.2 (conform entry mem)
          exact ⟨(key, value), hk, hv⟩
        obtain ⟨wires, encoded⟩ := exists_forall₂_iff.2 each
        exact ⟨_, _, wires, rfl, encoded, rfl⟩
  | hole access head =>
    simp only [encodeValue_hole_not_ok, exists_false, false_iff]
    nofun
  | void access =>
    simp only [encodeValue_void_not_ok, exists_false, false_iff]
    nofun

theorem not_conforms_of_fault {s : Signature} {value : HostValue} {fault : Fault}
    (failed : (s.encodeValue value).result = .error fault) : ¬ s.Conforms value := by
  intro conforms
  obtain ⟨wire, encoded⟩ := encodeValue_ok_iff_conforms.2 conforms
  cases failed.symm.trans encoded

/-! ## The part that makes a container fail -/

/-- lists: the first part that fails, seen from the list -/
theorem encodeItems_fault {α : Type} {encodeItem : α → Metered WireValue} {i : Nat} {items : List α} {fault : Fault}
    (failed : (encodeItems encodeItem i items).result = .error fault) :
    ∃ before item after inner, items = before ++ item :: after ∧
      (∀ other ∈ before, ∃ wire, (encodeItem other).result = .ok wire) ∧
      (encodeItem item).result = .error inner ∧ inner.within (.index (i + before.length)) = fault := by
  induction items generalizing i with
  | nil => cases failed
  | cons item rest ih =>
    rw [encodeItems, bind_fault_iff] at failed
    rcases failed with failed | ⟨first, encoded, failed⟩
    · obtain ⟨inner, broken, rfl⟩ := within_fault_iff.1 failed
      exact ⟨[], item, rest, inner, rfl, List.forall_mem_nil _, broken, rfl⟩
    · rw [within_ok_iff] at encoded
      rw [bind_fault_iff, result_releasingOnFault] at failed
      rcases failed with failed | ⟨others, -, failed⟩
      · obtain ⟨before, other, after, inner, rfl, fine, broken, rfl⟩ := ih failed
        refine ⟨item :: before, other, after, inner, rfl, ?_, broken, ?_⟩
        · exact List.forall_mem_cons.2 ⟨⟨first, encoded⟩, fine⟩
        · rw [List.length_cons, Nat.add_right_comm, Nat.add_assoc]
      · cases failed

/-- tuples: the last part that fails, seen from the tuple -/
theorem encodeElems_fault {i : Nat} {elems : List Signature} {items : List HostValue} {fault : Fault}
    (same : elems.length = items.length) (failed : (encodeElems i elems items).result = .error fault) :
    ∃ elemsBefore elem elemsAfter before item after inner,
      elems = elemsBefore ++ elem :: elemsAfter ∧ items = before ++ item :: after ∧ elemsBefore.length = before.length ∧
      List.Forall₂ (fun other item => ∃ wire, (encodeValue other item).result = .ok wire) elemsAfter after ∧
      (elem.encodeValue item).result = .error inner ∧ inner.within (.index (i + before.length)) = fault := by
  induction elems generalizing i items with
  | nil =>
    obtain rfl := List.length_eq_zero_iff.1 same.symm
    rw [encodeElems] at failed
    · cases failed
    · nofun
  | cons elem elems ih =>
    cases items with
    | nil => cases same
    | cons item items =>
      have same' : elems.length = items.length := Nat.succ.inj same
      rw [encodeElems, bind_fault_iff] at failed
      rcases failed with failed | ⟨others, encoded, failed⟩
      · obtain ⟨eb, other, ea, before, x, after, inner, rfl, rfl, length, fine, broken, rfl⟩ := ih same' failed
        refine ⟨elem :: eb, other, ea, item :: before, x, after, inner, rfl, rfl, congrArg Nat.succ length, fine, broken, ?_⟩
        rw [List.length_cons, Nat.add_right_comm, Nat.add_assoc]
      · rw [bind_fault_iff, result_releasingOnFault] at failed
        rcases failed with failed | ⟨first, -, failed⟩
        · obtain ⟨inner, broken, rfl⟩ := within_fault_iff.1 failed
          obtain ⟨wires, encoded, -⟩ := (encodeElems_ok_iff same').1 encoded
          refine ⟨[], elem, elems, [], item, items, inner, rfl, rfl, rfl, ?_, broken, rfl⟩
          refine List.forall₂_iff_zip.2 ⟨same', fun {other x} mem => ?_⟩
          exact exists_forall₂_iff.1 ⟨wires, encoded⟩ (other, x) mem
        · cases failed

/-- dictionaries: the first entry that fails, for its key or else for its value, seen from the dictionary -/
theorem encodeEntries_fault {kind : KeyKind} {encodeItem : HostValue → Metered WireValue} {built : List (WireKey × WireValue)}
    {entries : List (HostKey × HostValue)} {fault : Fault}
    (failed : (encodeEntries kind encodeItem built entries).result = .error fault) :
    ∃ before entry after inner, entries = before ++ entry :: after ∧
      (∀ other ∈ before, ∃ wire, EncodesEntry kind encodeItem other wire) ∧
      (entry.1.toWire kind = .error inner ∧ inner.within .key = fault ∨
        (∃ wire, entry.1.toWire kind = .ok wire) ∧ (encodeItem entry.2).result = .error inner ∧
          inner.within .value = fault) := by
  induction entries generalizing built with
  | nil => cases failed
  | cons entry rest ih =>
    rw [encodeEntries, bind_fault_iff, result_releasingOnFault] at failed
    rcases failed with failed | ⟨key, hk, failed⟩
    · obtain ⟨inner, broken, rfl⟩ := within_fault_iff.1 failed
      exact ⟨[], entry, rest, inner, rfl, List.forall_mem_nil _, .inl ⟨broken, rfl⟩⟩
    · have hk := within_ok_iff.1 hk
      rw [bind_fault_iff, result_releasingOnFault] at failed
      rcases failed with failed | ⟨value, hv, failed⟩
      · obtain ⟨inner, broken, rfl⟩ := within_fault_iff.1 failed
        exact ⟨[], entry, rest, inner, rfl, List.forall_mem_nil _, .inr ⟨⟨key, hk⟩, broken, rfl⟩⟩
      · have hv := within_ok_iff.1 hv
        rw [bind_fault_iff] at failed
        rcases failed with failed | ⟨-, -, failed⟩
        · cases failed
        · obtain ⟨before, other, after, inner, rfl, fine, failed⟩ := ih failed
          refine ⟨entry :: before, other, after, inner, rfl, ?_, failed⟩
          exact List.forall_mem_cons.2 ⟨⟨(key, value), hk, hv⟩, fine⟩

end Signature

/-! ## The spot that is to blame -/

/-- something that is encoded: a value by its type or a key by its kind -/
inductive Spot where
  | ofValue (type : Signature) (value : HostValue)
  | ofKey (kind : KeyKind) (key : HostKey)

/-- encoding what is at the spot, and nothing else, ends with the fault -/
def Spot.Fails (fault : Fault) : Spot → Prop
  | ofValue type value => (type.encode value).result = .error fault
  | ofKey kind key => key.toWire kind = .error fault

/-- the fault seen from the start of a path that leads to it -/
def Fault.along (p : Position) (fault : Fault) : Fault := p.foldr Fault.within fault

/-- a fault seen through one more step: its position is that of the part behind the step -/
theorem Fault.position?_of_within {fault : Fault} {step : Step} {p : Position}
    (placed : (fault.within step).position? = some p) : ∃ q, fault.position? = some q ∧ p = step :: q := by
  rw [position?_within, Option.map_eq_some_iff] at placed
  obtain ⟨q, found, rfl⟩ := placed
  exact ⟨q, found, rfl⟩

namespace Signature

open Metered

/-- The path leads from a value to the spot that is to blame for its fault: in a list through the first item that does not
conform, in a tuple through the last one, in a dictionary through the entry with the first key of those that do not conform,
and there to the key, or through the value if the key is one of the kind. -/
inductive Blames : Signature → HostValue → Position → Spot → Prop
  | here (s : Signature) (value : HostValue) : Blames s value [] (.ofValue s value)
  | item {access elem before item after p spot} (fine : ∀ other ∈ before, Conforms elem other)
      (fails : ¬ Conforms elem item) (rest : Blames elem item p spot) :
      Blames ⟨access, .list elem⟩ (.list (before ++ item :: after)) (.index before.length :: p) spot
  | elem {access elems elem others before item after p spot} (same : elems.length = before.length)
      (fine : List.Forall₂ Conforms others after) (fails : ¬ Conforms elem item) (rest : Blames elem item p spot) :
      Blames ⟨access, .tuple (elems ++ elem :: others)⟩ (.tuple (before ++ item :: after)) (.index before.length :: p) spot
  | key {access kind item entries} {entry : HostKey × HostValue} (mem : entry ∈ entries)
      (fine : ∀ other ∈ entries, other.1.before entry.1 → KeyKind.Takes kind other.1 ∧ Conforms item other.2)
      (fails : ¬ KeyKind.Takes kind entry.1) :
      Blames ⟨access, .dict kind item⟩ (.dict entries) [.key] (.ofKey kind entry.1)
  | value {access kind item entries p spot} {entry : HostKey × HostValue} (mem : entry ∈ entries)
      (fine : ∀ other ∈ entries, other.1.before entry.1 → KeyKind.Takes kind other.1 ∧ Conforms item other.2)
      (takes : KeyKind.Takes kind entry.1) (fails : ¬ Conforms item entry.2) (rest : Blames item entry.2 p spot) :
      Blames ⟨access, .dict kind item⟩ (.dict entries) (.value :: p) spot

/-- every fault of the value that has a position is, seen from there, the own fault of the spot that is to blame -/
def Traced (s : Signature) (value : HostValue) : Prop :=
  ∀ fault p, (s.encode value).result = .error fault → fault.position? = some p →
    ∃ spot root, Blames s value p spot ∧ spot.Fails root ∧ root.position? = some [] ∧ fault = root.along p

theorem encode_of_resolved {s : Signature} (resolved : s.firstHole? = none) (value : HostValue) :
    s.encode value = s.encodeValue value := by
  rw [encode, resolved]

/-- the faults that are the value's own -/
theorem traced_here {s : Signature} {value : HostValue}
    (own : ∀ fault p, (s.encode value).result = .error fault → fault.position? = some p → p = []) : s.Traced value := by
  intro fault p failed placed
  obtain rfl := own fault p failed placed
  exact ⟨.ofValue s value, fault, .here s value, failed, placed, rfl⟩

theorem position?_of_encodePrimitive {s : Signature} {kind : Primitive} {value : HostValue} {fault : Fault} {p : Position}
    (h : s.encodePrimitive kind value = .error fault) (placed : fault.position? = some p) : p = [] := by
  unfold encodePrimitive at h
  split at h
  · next w v =>
    unfold IntWidth.check at h
    split_ifs at h
    · cases h
    · cases h
      cases placed
      rfl
  · cases h
  · cases h
  · cases h
  · cases h
  · cases h
  · next t =>
    unfold WireText.ofString at h
    split at h
    · cases h
    · cases h
      cases placed
  · cases h
    cases placed
    rfl

variable {access : Access}

theorem traced_primitive (kind : Primitive) (value : HostValue) : Traced ⟨access, .primitive kind⟩ value := by
  refine traced_here fun fault p failed placed => ?_
  rw [encode_of_resolved rfl, result_encodeValue_primitive] at failed
  exact position?_of_encodePrimitive failed placed

theorem traced_list {elem : Signature} (resolved : elem.firstHole? = none) {items : List HostValue}
    (parts : ∀ item ∈ items, elem.Traced item) : Traced ⟨access, .list elem⟩ (.list items) := by
  intro fault p failed placed
  rw [encode_of_resolved (firstHole?_list_iff.2 resolved), encodeValue, encodeShape, bind_fault_iff] at failed
  rcases failed with failed | ⟨wires, -, failed⟩
  · obtain ⟨before, item, after, inner, rfl, fine, broken, rfl⟩ := encodeItems_fault failed
    obtain ⟨q, found, rfl⟩ := Fault.position?_of_within placed
    rw [← encode_of_resolved resolved] at broken
    obtain ⟨spot, root, rest, fails, own, rfl⟩ := parts item (by simp) inner q broken found
    rw [encode_of_resolved resolved] at broken
    refine ⟨spot, root, ?_, fails, own, rfl⟩
    rw [Nat.zero_add]
    exact .item (fun other mem => encodeValue_ok_iff_conforms.1 (fine other mem)) (not_conforms_of_fault broken) rest
  · cases failed

theorem traced_tuple {elems : List Signature} (resolved : ∀ elem ∈ elems, elem.firstHole? = none) {items : List HostValue}
    (same : elems.length = items.length) (parts : ∀ elem ∈ elems, ∀ item ∈ items, elem.Traced item) :
    Traced ⟨access, .tuple elems⟩ (.tuple items) := by
  intro fault p failed placed
  rw [encode_of_resolved (firstHole?_tuple_iff.2 resolved), encodeValue, encodeShape, if_pos same, bind_fault_iff] at failed
  rcases failed with failed | ⟨chain, -, failed⟩
  · obtain ⟨front, elem, others, before, item, after, inner, rfl, rfl, length, fine, broken, rfl⟩ :=
      encodeElems_fault same failed
    obtain ⟨q, found, rfl⟩ := Fault.position?_of_within placed
    have resolved := resolved elem (by simp)
    rw [← encode_of_resolved resolved] at broken
    obtain ⟨spot, root, rest, fails, own, rfl⟩ := parts elem (by simp) item (by simp) inner q broken found
    rw [encode_of_resolved resolved] at broken
    refine ⟨spot, root, ?_, fails, own, rfl⟩
    rw [Nat.zero_add]
    exact .elem length (fine.imp fun _ _ => encodeValue_ok_iff_conforms.1) (not_conforms_of_fault broken) rest
  · cases failed

theorem traced_dict {kind : KeyKind} {item : Signature} (resolved : item.firstHole? = none)
    {entries : List (HostKey × HostValue)} (ascending : HostKey.Ascending entries)
    (parts : ∀ entry ∈ entries, item.Traced entry.2) : Traced ⟨access, .dict kind item⟩ (.dict entries) := by
  intro fault p failed placed
  rw [encode_of_resolved (firstHole?_dict_iff.2 resolved), encodeValue, encodeShape, bind_fault_iff] at failed
  rcases failed with failed | ⟨wires, -, failed⟩
  · obtain ⟨before, entry, after, inner, rfl, fine, broken⟩ := encodeEntries_fault failed
    have fine : ∀ other ∈ before ++ entry :: after, other.1.before entry.1 → kind.Takes other.1 ∧ item.Conforms other.2 := by
      intro other mem first
      obtain ⟨wire, key, value⟩ := fine other (ascending.mem_of_before mem first)
      exact ⟨KeyKind.takes_iff.2 ⟨wire.1, key⟩, encodeValue_ok_iff_conforms.1 ⟨wire.2, value⟩⟩
    rcases broken with ⟨broken, rfl⟩ | ⟨takes, broken, rfl⟩
    · obtain ⟨q, found, rfl⟩ := Fault.position?_of_within placed
      obtain rfl := HostKey.position?_of_toWire broken found
      refine ⟨.ofKey kind entry.1, inner, .key (by simp) fine ?_, broken, found, rfl⟩
      rw [KeyKind.takes_iff]
      rintro ⟨wire, made⟩
      cases broken.symm.trans made
    · obtain ⟨q, found, rfl⟩ := Fault.position?_of_within placed
      rw [← encode_of_resolved resolved] at broken
      obtain ⟨spot, root, rest, fails, own, rfl⟩ := parts entry (by simp) inner q broken found
      rw [encode_of_resolved resolved] at broken
      exact ⟨spot, root, .value (by simp) fine (KeyKind.takes_iff.2 takes) (not_conforms_of_fault broken) rest, fails, own, rfl⟩
  · cases failed

/-- a value that is not of the type at all -/
theorem traced_mismatch {s : Signature} {value : HostValue} {expected found : String}
    (unfit : (s.encode value).result = .error (.mismatch expected found)) : s.Traced value := by
  refine traced_here fun fault p failed placed => ?_
  cases unfit.symm.trans failed
  cases placed
  rfl

theorem traced {s : Signature} (resolved : s.firstHole? = none) {value : HostValue} (ordered : value.WellFormed) :
    s.Traced value := by
  induction s using Signature.induction generalizing value with
  | primitive access kind => exact traced_primitive kind value
  | tuple access elems parts =>
    have whole := encode_of_resolved resolved value
    rw [firstHole?_tuple_iff] at resolved
    cases value with
    | tuple items =>
      cases ordered with
      | tuple ordered =>
        by_cases same : elems.length = items.length
        · exact traced_tuple resolved same fun elem mem item mem' => parts elem mem (resolved elem mem) (ordered item mem')
        · rw [encodeValue, encodeShape, if_neg same] at whole
          exact traced_mismatch (congrArg result whole)
    | _ => exact traced_mismatch (congrArg result whole)
  | list access elem part =>
    have whole := encode_of_resolved resolved value
    rw [firstHole?_list_iff] at resolved
    cases value with
    | list items =>
      cases ordered with
      | list ordered => exact traced_list resolved fun item mem => part resolved (ordered item mem)
    | _ => exact traced_mismatch (congrArg result whole)
  | dict access kind item part =>
    have whole := encode_of_resolved resolved value
    rw [firstHole?_dict_iff] at resolved
    cases value with
    | dict entries =>
      cases ordered with
      | dict ascending ordered => exact traced_dict resolved ascending fun entry mem => part resolved (ordered entry mem)
    | _ => exact traced_mismatch (congrArg result whole)
  | hole access head =>
    rw [firstHole?_hole] at resolved
    cases resolved
  | void access =>
    refine traced_here fun fault p failed placed => ?_
    cases failed
    cases placed

/-- the steps of such a path, as they are written -/
theorem Blames.steps {s : Signature} {value : HostValue} {p : Position} {spot : Spot} (h : Blames s value p spot) :
    ∀ step ∈ p, step.text = ".key" ∨ step.text = ".value" ∨ ∃ i : Nat, step.text = "[" ++ toString i ++ "]" := by
  induction h with
  | here => exact List.forall_mem_nil _
  | item _ _ _ ih => exact List.forall_mem_cons.2 ⟨.inr (.inr ⟨_, rfl⟩), ih⟩
  | elem _ _ _ _ ih => exact List.forall_mem_cons.2 ⟨.inr (.inr ⟨_, rfl⟩), ih⟩
  | key => exact List.forall_mem_singleton.2 (.inl rfl)
  | value _ _ _ _ _ ih => exact List.forall_mem_cons.2 ⟨.inr (.inl rfl), ih⟩

/-- **The encoder takes what conforms and points at the spot that does not.** Encoding by a signature without holes gives a
value exactly if the host value conforms. A fault with a position is the fault of the spot that the position leads to: what
stands there fails by itself with the same fault, right where it is. The way there goes through the first faulty item of each
list, the last faulty element of each tuple and the first faulty entry of each dictionary, in the order of the keys; it is
understood that the dictionaries list their entries in this order. -/
theorem encode_blames (s : Signature) (value : HostValue) (resolved : s.isResolved = true) :
    ((∃ wire, (s.encode value).result = .ok wire) ↔ s.Conforms value) ∧
    ∀ fault p, value.WellFormed → (s.encode value).result = .error fault → fault.position? = some p →
      (∀ step ∈ p, step.text = ".key" ∨ step.text = ".value" ∨ ∃ i : Nat, step.text = "[" ++ toString i ++ "]") ∧
      ∃ spot root, Blames s value p spot ∧ spot.Fails root ∧ root.position? = some [] ∧ fault = root.along p := by
  have resolved := isResolved_iff.1 resolved
  refine ⟨?_, fun fault p ordered failed placed => ?_⟩
  · rw [encode_of_resolved resolved]
    exact encodeValue_ok_iff_conforms
  · obtain ⟨spot, root, blames, found⟩ := traced resolved ordered fault p failed placed
    exact ⟨blames.steps, spot, root, blames, found⟩

/-- a tuple with two faulty elements: its list is to blame, and in the list the first of two faulty items -/
theorem encode_blames_second_of_list :
    let byte (access : Access) : Signature := ⟨access, .primitive (.int .i8)⟩
    let s : Signature := ⟨.borrowed, .tuple [byte .owned, ⟨.owned, .list (byte .rawMut)⟩]⟩
    let large : HostInt := ⟨128, by decide⟩
    let value : HostValue := .tuple [.text "x", .list [.int ⟨-128, by decide⟩, .int large, .bool true]]
    ¬ s.Conforms value ∧
      (s.encode value).result = .error (.intOutOfRange .i8 128 [.index 1, .index 1]) ∧
      ∃ spot root, Blames s value [.index 1, .index 1] spot ∧ spot.Fails root ∧ root.position? = some [] ∧
        .intOutOfRange .i8 128 [.index 1, .index 1] = root.along [.index 1, .index 1] := by
  intro byte s large value
  have ordered : value.WellFormed := by
    apply HostValue.WellFormed.tuple
    rw [List.forall_mem_cons, List.forall_mem_singleton]
    refine ⟨.text "x", .list ?_⟩
    rw [List.forall_mem_cons, List.forall_mem_cons, List.forall_mem_singleton]
    exact ⟨.int _, .int _, .bool true⟩
  have failed : (s.encode value).result = .error (.intOutOfRange .i8 128 [.index 1, .index 1]) := by rfl
  obtain ⟨accepted, placed⟩ := encode_blames s value rfl
  refine ⟨fun conforms => ?_, failed, (placed _ _ ordered failed rfl).2⟩
  obtain ⟨wire, encoded⟩ := accepted.2 conforms
  cases failed.symm.trans encoded

end Signature

end NativeBridge
