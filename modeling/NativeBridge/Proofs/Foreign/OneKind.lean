/-
One kind of keys in each dictionary. A dictionary refuses keys of another kind; whoever builds one makes only keys of its kind, so
that none is ever refused, and whoever reads one finds only keys of its kind.

- `Reached`: the dictionaries that are reached by inserting, with the entries that were accepted on the way.
- `keys_of_reached`, `get?_of_reached`: what their keys are, and what stands under each.
- `insert_of_kind`: a key of the kind is not refused. So the loops that ask the dictionary are those that just put
  (`Signature.encodeEntriesAsking_eq`, `NativeType.encodeEntriesAsking_eq`, `insertDictAsking_eq`), and so is the drain that asks
  (`openDrainAsking_eq`), whatever would be done on a refusal.
- `decodeValue_ne_keyMismatch`, `ofWire_ne_keyMismatch`: readers of such a dictionary do not report the kind of a key.
- `one_key_kind`: all of this together.
-/
import NativeBridge.Proofs.Foreign.Built
import NativeBridge.Proofs.Foreign.Conservation
import NativeBridge.Proofs.NativeType.Agreement

namespace NativeBridge

open Metered

namespace Foreign

/-! ## Dictionaries that are reached -/

/-- The dictionaries that are reached, each with the entries that were accepted on the way, in this order: an empty one; one that
native code or foreign code has put another entry into, or has tried to; one made of native entries; and one made of a host
value. Nothing is known of the order in which a dictionary lists its entries. -/
inductive Reached : List (WireKey × WireValue) → WireDict → Prop
  | new (kind : KeyKind) : Reached [] (.new kind)
  | insert {accepted : List (WireKey × WireValue)} {d next : WireDict} {key : WireKey} {value : WireValue}
      (before : Reached accepted d) (done : d.insert key value = (.ok (), next)) : Reached (accepted ++ [(key, value)]) next
  | insertRefused {accepted : List (WireKey × WireValue)} {d next : WireDict} {key : WireKey} {value : WireValue} {fault : Fault}
      (before : Reached accepted d) (done : d.insert key value = (.error fault, next)) : Reached accepted next
  | fromEntries {kind : KeyKind} {t : NativeType} {entries : List (kind.Value × t.Value)}
      {accepted made : List (WireKey × WireValue)}
      (encoded : (NativeType.encodeEntries kind t.toWire [] entries).result = .ok made)
      (given : List.Forall₂ (fun entry wire => kind.toKey entry.1 = wire.1 ∧ (t.toWire entry.2).result = .ok wire.2)
        entries accepted) : Reached accepted ⟨kind, made⟩
  | ofHost {access : Access} {declared kind : KeyKind} {item : Signature} {entries : List (HostKey × HostValue)}
      {accepted made : List (WireKey × WireValue)}
      (encoded : (Signature.encodeValue ⟨access, .dict declared item⟩ (.dict entries)).result = .ok (.dict kind made))
      (given : List.Forall₂ (Signature.EncodesEntry declared item.encodeValue) entries accepted) :
      Reached accepted ⟨kind, made⟩
  | insertDict {accepted : List (WireKey × WireValue)} {d next : WireDict} {key value : WireValue} {wireKey : WireKey}
      (before : Reached accepted d) (read : WireKey.ofValue? d.kind key = some wireKey)
      (done : (Foreign.insertDict (some (.dict d.kind d.entries)) (some key) (some value)).status = .ok)
      (left : (Foreign.insertDict (some (.dict d.kind d.entries)) (some key) (some value)).target =
        some (.dict next.kind next.entries)) : Reached (accepted ++ [(wireKey, value)]) next
  | insertDictRefused {accepted : List (WireKey × WireValue)} {d next : WireDict} {key value : Option WireValue}
      (before : Reached accepted d) (done : (Foreign.insertDict (some (.dict d.kind d.entries)) key value).status ≠ .ok)
      (left : (Foreign.insertDict (some (.dict d.kind d.entries)) key value).target =
        some (.dict next.kind next.entries)) : Reached accepted next
  | reordered {accepted others : List (WireKey × WireValue)} {d : WireDict} (before : Reached accepted d)
      (order : d.entries.Perm others) : Reached accepted ⟨d.kind, others⟩

end Foreign

namespace WireDict

variable {d next : WireDict} {key : WireKey} {value : WireValue}

theorem insert_ok_iff : d.insert key value = (.ok (), next) ↔
    key.kind = d.kind ∧ next = ⟨d.kind, Entries.put key value d.entries⟩ := by
  unfold insert WireValue.insert
  split_ifs with same <;> simp [same, eq_comm]

theorem insert_error_iff {fault : Fault} : d.insert key value = (.error fault, next) ↔
    key.kind ≠ d.kind ∧ fault = Fault.within .key (.mismatch d.kind.name key.kind.name) ∧ next = d := by
  unfold insert WireValue.insert
  split_ifs with same <;> simp [same, eq_comm]

end WireDict

namespace Foreign

variable {accepted : List (WireKey × WireValue)} {d next : WireDict}

/-- a key that can be read for the kind is put -/
theorem insertDict_of_read {key value : WireValue} {wireKey : WireKey} (read : WireKey.ofValue? d.kind key = some wireKey) :
    (insertDict (some (.dict d.kind d.entries)) (some key) (some value)).target =
      some (.dict d.kind (Entries.put wireKey value d.entries)) := by
  simp only [insertDict, read]

theorem eq_of_dict_eq (same : (some (.dict d.kind d.entries) : Option WireValue) = some (.dict next.kind next.entries)) :
    next = d := by
  obtain ⟨kind, entries⟩ := d
  obtain ⟨kind', entries'⟩ := next
  cases same
  rfl

/-- what is reached could be built, whatever keys native code gives -/
theorem built_of_reached (reached : Reached accepted d) : Built (fun _ => True) d.kind d.entries := by
  induction reached with
  | new kind => exact .new kind
  | insert _ done ih =>
    obtain ⟨same, rfl⟩ := WireDict.insert_ok_iff.1 done
    exact .insert ih trivial (if_pos same)
  | insertRefused _ done ih =>
    obtain ⟨-, -, rfl⟩ := WireDict.insert_error_iff.1 done
    exact ih
  | fromEntries encoded _ => exact .fromEntries (fun _ _ => trivial) encoded
  | ofHost encoded _ => exact .ofHost encoded
  | @insertDict _ d next _ _ _ _ read _ left ih =>
    obtain ⟨kind, made⟩ := next
    have kinds := left
    rw [insertDict_of_read read] at kinds
    cases kinds
    exact .insertDict ih left
  | insertDictRefused _ done left ih =>
    rw [(insertDict_refused done).1] at left
    obtain rfl := eq_of_dict_eq left
    exact ih
  | reordered _ order ih => exact .reordered ih order

/-- each key stands once, and all are of the kind of the dictionary -/
theorem keys_of_reached (reached : Reached accepted d) :
    (∀ entry ∈ d.entries, entry.1.kind = d.kind) ∧ (d.entries.map Prod.fst).Nodup := by
  obtain ⟨nodup, keys⟩ := sound_of_built (built_of_reached reached)
  exact ⟨fun entry mem => (keys entry mem).1, nodup⟩

/-- one more entry at the end is found before all others under its key -/
theorem get?_reverse_append (key : WireKey) (entry : WireKey × WireValue) :
    Entries.get? key (accepted ++ [entry]).reverse =
      if entry.1 = key then some entry.2 else Entries.get? key accepted.reverse := by
  rw [List.reverse_append]
  rfl

theorem rightUnique_encodesEntry {kind : KeyKind} {encodeItem : HostValue → Metered WireValue} :
    Relator.RightUnique (Signature.EncodesEntry kind encodeItem) := by
  rintro entry ⟨key, value⟩ ⟨key', value'⟩ ⟨made, encoded⟩ ⟨made', encoded'⟩
  cases made.symm.trans made'
  cases encoded.symm.trans encoded'
  rfl

theorem rightUnique_entry {kind : KeyKind} {t : NativeType} :
    Relator.RightUnique fun (entry : kind.Value × t.Value) (wire : WireKey × WireValue) =>
      kind.toKey entry.1 = wire.1 ∧ (t.toWire entry.2).result = .ok wire.2 := by
  rintro entry ⟨key, value⟩ ⟨key', value'⟩ ⟨made, encoded⟩ ⟨made', encoded'⟩
  cases made.symm.trans made'
  cases encoded.symm.trans encoded'
  rfl

theorem get?_putAll_nil (key : WireKey) (wires : List (WireKey × WireValue)) :
    Entries.get? key (Entries.putAll [] wires) = Entries.get? key wires.reverse := by
  rw [Entries.get?_putAll]
  exact Option.or_none

/-- **Under each key stands the last value that was accepted for it.** -/
theorem get?_of_reached (reached : Reached accepted d) (key : WireKey) :
    Entries.get? key d.entries = Entries.get? key accepted.reverse := by
  induction reached with
  | new kind => rfl
  | insert _ done ih =>
    obtain ⟨-, rfl⟩ := WireDict.insert_ok_iff.1 done
    rw [get?_reverse_append, Entries.get?_put, ih]
  | insertRefused _ done ih =>
    obtain ⟨-, -, rfl⟩ := WireDict.insert_error_iff.1 done
    exact ih
  | fromEntries encoded given =>
    obtain ⟨wires, parts, rfl⟩ := NativeType.encodeEntries_ok_iff.1 encoded
    obtain rfl := rightUnique_entry.forall₂ parts given
    exact get?_putAll_nil key wires
  | ofHost encoded given =>
    obtain ⟨entries, wires, same, parts, whole⟩ := Signature.encodeValue_dict_ok_iff.1 encoded
    cases same
    cases whole
    obtain rfl := rightUnique_encodesEntry.forall₂ parts given
    exact get?_putAll_nil key wires
  | @insertDict _ d next _ _ _ _ read _ left ih =>
    rw [insertDict_of_read read] at left
    obtain ⟨kind, made⟩ := next
    cases left
    rw [get?_reverse_append, Entries.get?_put, ih]
  | insertDictRefused _ done left ih =>
    rw [(insertDict_refused done).1] at left
    obtain rfl := eq_of_dict_eq left
    exact ih
  | reordered before order ih => exact (Entries.get?_perm (keys_of_reached before).2 order key).symm.trans ih

end Foreign

/-! ## Refusals that never happen -/

/-- a dictionary does not refuse a key of its kind -/
theorem WireValue.insert_of_kind {kind : KeyKind} {key : WireKey} (same : key.kind = kind) (value : WireValue)
    (entries : List (WireKey × WireValue)) : insert kind key value entries = .ok (Entries.put key value entries) :=
  if_pos same

/-- the entries of a host dictionary, where the dictionary is asked to take each and a refusal may have any consequence -/
def Signature.encodeEntriesAsking (refused : Fault → Metered (List (WireKey × WireValue))) (kind : KeyKind)
    (encodeItem : HostValue → Metered WireValue) (built : List (WireKey × WireValue)) :
    List (HostKey × HostValue) → Metered (List (WireKey × WireValue))
  | [] => pure built
  | (key, item) :: rest => do
    let size := WireValue.sizeOfEntries built
    let wireKey ← ((Metered.ofExcept (key.toWire kind)).within .key).releasingOnFault size
    let value ← ((encodeItem item).within .value).releasingOnFault size
    match WireValue.insert kind wireKey value built with
    | .ok made => do
      Metered.release (WireValue.sizeOfOption (Entries.get? wireKey built))
      encodeEntriesAsking refused kind encodeItem made rest
    | .error fault => refused fault

/-- the entries of a native map, where the dictionary is asked to take each and a refusal may have any consequence -/
def NativeType.encodeEntriesAsking {α : Type} (refused : Fault → Metered (List (WireKey × WireValue))) (kind : KeyKind)
    (encodeItem : α → Metered WireValue) (built : List (WireKey × WireValue)) :
    List (kind.Value × α) → Metered (List (WireKey × WireValue))
  | [] => pure built
  | (key, item) :: rest => do
    let value ← ((encodeItem item).within .value).releasingOnFault (WireValue.sizeOfEntries built)
    match WireValue.insert kind (kind.toKey key) value built with
    | .ok made => do
      Metered.release (WireValue.sizeOfOption (Entries.get? (kind.toKey key) built))
      encodeEntriesAsking refused kind encodeItem made rest
    | .error fault => refused fault

/-- putting a value into a dictionary, where the dictionary is asked to take it and a refusal may have any consequence -/
def Foreign.insertDictAsking (refused : Fault → Update) (target key value : Option WireValue) : Update :=
  match key, value with
  | some key, some value =>
    match target with
    | some (.dict kind entries) =>
      match WireKey.ofValue? kind key with
      | some wireKey =>
        match WireValue.insert kind wireKey value entries with
        | .ok made =>
          ⟨.ok, some (.dict kind made), key.size + WireValue.sizeOfOption (Entries.get? wireKey entries)⟩
        | .error fault => refused fault
      | none => ⟨.badKey, some (.dict kind entries), key.size + value.size⟩
    | some other => ⟨.wrongKind, some other, key.size + value.size⟩
    | none => ⟨.null, none, key.size + value.size⟩
  | key, value => ⟨.null, target, WireValue.sizeOfOption key + WireValue.sizeOfOption value⟩

/-- opening a drain, where the dictionary is asked for its entries and a refusal may have any consequence -/
def Foreign.Session.openDrainAsking (refused : Session → Fault → Session × Reply) (s : Session) (on out : SlotName) :
    Session × Reply :=
  match s.take on with
  | (some (.dict kind entries), s) =>
    match (WireDict.mk kind entries).drain kind with
    | .ok (kind, entries) => ((s.release 1).store out (.drain kind entries), .drain (some (kind, entries.length)))
    | .error fault => refused s fault
  | (some other, s) => (s.release other.size, .drain none)
  | (none, s) => (s, .drain none)

theorem Signature.encodeEntriesAsking_eq (refused : Fault → Metered (List (WireKey × WireValue))) (kind : KeyKind)
    (encodeItem : HostValue → Metered WireValue) (built : List (WireKey × WireValue)) (entries : List (HostKey × HostValue)) :
    encodeEntriesAsking refused kind encodeItem built entries = encodeEntries kind encodeItem built entries := by
  induction entries generalizing built with
  | nil => rfl
  | cons entry rest ih =>
    rw [encodeEntriesAsking, encodeEntries]
    refine bind_congr_of_ok fun wireKey made => bind_congr_of_ok fun value _ => ?_
    rw [result_releasingOnFault, within_ok_iff, result_ofExcept] at made
    simp only [WireValue.insert_of_kind (WireKey.kind_of_toWire made), ih]

theorem NativeType.encodeEntriesAsking_eq {α : Type} (refused : Fault → Metered (List (WireKey × WireValue))) (kind : KeyKind)
    (encodeItem : α → Metered WireValue) (built : List (WireKey × WireValue)) (entries : List (kind.Value × α)) :
    encodeEntriesAsking refused kind encodeItem built entries = encodeEntries kind encodeItem built entries := by
  induction entries generalizing built with
  | nil => rfl
  | cons entry rest ih =>
    obtain ⟨key, item⟩ := entry
    simp only [encodeEntriesAsking, encodeEntries, WireValue.insert_of_kind (KeyKind.kind_toKey key), ih]

theorem Foreign.insertDictAsking_eq (refused : Fault → Update) (target key value : Option WireValue) :
    insertDictAsking refused target key value = insertDict target key value := by
  cases key with
  | none => rfl
  | some key =>
    cases value with
    | none => rfl
    | some value =>
      cases target with
      | none => rfl
      | some target =>
        cases target with
        | dict kind entries =>
          simp only [insertDictAsking, insertDict]
          cases read : WireKey.ofValue? kind key with
          | none => rfl
          | some wireKey =>
            obtain ⟨same, -⟩ := WireKey.kind_and_clean_of_ofValue? read
            simp only [WireValue.insert_of_kind same]
        | _ => rfl

theorem Foreign.Session.openDrainAsking_eq (refused : Session → Fault → Session × Reply) (s : Session) (on out : SlotName) :
    s.openDrainAsking refused on out = s.openDrain on out := by
  unfold openDrainAsking openDrain
  split <;> simp_all [WireDict.drain]

/-! ## Readers -/

/-- what comes from the items cannot be mistaken for a fault of a key -/
theorem Fault.within_value_ne_key (inner : Fault) (expected found : String) (p : Position) :
    inner.within .value ≠ .typeMismatch expected found (.key :: p) := by
  cases inner <;> simp [Fault.within]

/-- the reader of a host dictionary finds no key of another kind -/
theorem Signature.decodeEntries_ne_keyMismatch {kind : KeyKind} {decodeItem : WireValue → Metered HostValue}
    {decoded : List (HostKey × HostValue)} {wires : List (WireKey × WireValue)} (keys : ∀ wire ∈ wires, wire.1.kind = kind)
    (expected found : String) (p : Position) :
    (decodeEntries kind decodeItem decoded wires).result ≠ .error (.typeMismatch expected found (.key :: p)) := by
  induction wires generalizing decoded with
  | nil => nofun
  | cons wire rest ih =>
    obtain ⟨same, keys⟩ := List.forall_mem_cons.1 keys
    rw [decodeEntries]
    intro failed
    rw [bind_fault_iff, result_releasingOnFault] at failed
    rcases failed with failed | ⟨hostKey, -, failed⟩
    · obtain ⟨inner, broken, mismatch⟩ := within_fault_iff.1 failed
      rw [result_ofExcept, ← same] at broken
      obtain ⟨v, -, -, rfl⟩ := WireKey.toHost_error_iff.1 broken
      cases mismatch
    · rw [bind_fault_iff, result_releasingOnFault] at failed
      rcases failed with failed | ⟨value, -, failed⟩
      · obtain ⟨inner, -, mismatch⟩ := within_fault_iff.1 failed
        exact Fault.within_value_ne_key inner expected found p mismatch
      · exact ih keys failed

/-- the reader of a native map finds no key of another kind -/
theorem NativeType.decodeEntries_ne_keyMismatch {α : Type} {kind : KeyKind} {decodeItem : WireValue → Metered α}
    {decoded : List (kind.Value × α)} {wires : List (WireKey × WireValue)} (keys : ∀ wire ∈ wires, wire.1.kind = kind)
    (expected found : String) (p : Position) :
    (decodeEntries kind decodeItem decoded wires).result ≠ .error (.typeMismatch expected found (.key :: p)) := by
  induction wires generalizing decoded with
  | nil => nofun
  | cons wire rest ih =>
    obtain ⟨key, item⟩ := wire
    obtain ⟨same, keys⟩ := List.forall_mem_cons.1 keys
    obtain ⟨native, read, -⟩ := KeyKind.exists_native_of_kind same
    rw [decodeEntries]
    intro failed
    rw [bind_fault_iff, result_releasingOnFault] at failed
    rcases failed with failed | ⟨value, -, failed⟩
    · obtain ⟨inner, -, mismatch⟩ := within_fault_iff.1 failed
      exact Fault.within_value_ne_key inner expected found p mismatch
    · rw [read] at failed
      exact ih keys failed

/-- nor does it report one at the key, whatever kind it expects -/
theorem Signature.decodeValue_ne_keyMismatch {access : Access} {declared : KeyKind} {item : Signature} {d : WireDict}
    (keys : ∀ entry ∈ d.entries, entry.1.kind = d.kind) (expected found : String) (p : Position) :
    (decodeValue ⟨access, .dict declared item⟩ (.dict d.kind d.entries)).result ≠
      .error (.typeMismatch expected found (.key :: p)) := by
  rw [decodeValue, decodeShape]
  split_ifs with same
  · intro failed
    rw [bind_fault_iff] at failed
    rcases failed with failed | ⟨-, -, failed⟩
    · cases failed
    · rw [bind_fault_iff] at failed
      rcases failed with failed | ⟨entries, -, failed⟩
      · exact decodeEntries_ne_keyMismatch (same ▸ keys) expected found p failed
      · cases failed
  · nofun

theorem NativeType.ofWire_ne_keyMismatch {declared : KeyKind} {item : NativeType} {d : WireDict}
    (keys : ∀ entry ∈ d.entries, entry.1.kind = d.kind) (expected found : String) (p : Position) :
    (ofWire (.map declared item) (.dict d.kind d.entries)).result ≠ .error (.typeMismatch expected found (.key :: p)) := by
  rw [ofWire]
  split_ifs with same
  · intro failed
    rw [bind_fault_iff] at failed
    rcases failed with failed | ⟨-, -, failed⟩
    · cases failed
    · exact decodeEntries_ne_keyMismatch (same ▸ keys) expected found p failed
  · intro failed
    cases failed

/-- a drain is opened on every dictionary -/
theorem Foreign.Session.openDrain_dict {s : Session} {on out : SlotName} {d : WireDict}
    (held : s.value? on = some (.dict d.kind d.entries)) :
    (s.step (.openDrain on out)).2 = .drain (some (d.kind, d.entries.length)) := by
  show (s.openDrain on out).2 = _
  have taken : (s.take on).1 = some (.dict d.kind d.entries) := (take_fst s on).trans held
  unfold openDrain
  split
  · next found =>
    rw [found] at taken
    cases taken
    rfl
  · next no found =>
    rw [found] at taken
    cases taken
    exact absurd rfl (no _ _)
  · next found =>
    rw [found] at taken
    cases taken

/-! ## One key kind for each dictionary -/

namespace Foreign

/-- what is done when a dictionary refuses an entry, or its own kind, says nothing about what the builders and the drain do -/
structure NeverRefused : Prop where
  ofHost : ∀ refused kind encodeItem built entries,
    Signature.encodeEntriesAsking refused kind encodeItem built entries =
      Signature.encodeEntries kind encodeItem built entries
  fromEntries : ∀ (t : NativeType) refused kind built (entries : List (kind.Value × t.Value)),
    NativeType.encodeEntriesAsking refused kind t.toWire built entries = NativeType.encodeEntries kind t.toWire built entries
  insertDict : ∀ refused target key value, insertDictAsking refused target key value = insertDict target key value
  openDrain : ∀ refused (s : Session) on out, s.openDrainAsking refused on out = s.openDrain on out

theorem neverRefused : NeverRefused where
  ofHost := Signature.encodeEntriesAsking_eq
  fromEntries t refused kind := NativeType.encodeEntriesAsking_eq refused kind t.toWire
  insertDict := insertDictAsking_eq
  openDrain := Session.openDrainAsking_eq

/-- nobody who reads the dictionary reports a key of another kind, and whoever drains it gets the drain -/
structure Readable (d : WireDict) : Prop where
  decode : ∀ access declared item expected found p,
    (Signature.decodeValue ⟨access, .dict declared item⟩ (.dict d.kind d.entries)).result ≠
      .error (.typeMismatch expected found (.key :: p))
  ofWire : ∀ declared item expected found p,
    (NativeType.ofWire (.map declared item) (.dict d.kind d.entries)).result ≠
      .error (.typeMismatch expected found (.key :: p))
  openDrain : ∀ (s : Session) on out, s.value? on = some (.dict d.kind d.entries) →
    (s.step (.openDrain on out)).2 = .drain (some (d.kind, d.entries.length))

/-- a dictionary with keys of its kind only -/
theorem readable_of_keys (keys : ∀ entry ∈ d.entries, entry.1.kind = d.kind) : Readable d where
  decode _ _ _ := Signature.decodeValue_ne_keyMismatch keys
  ofWire _ _ := NativeType.ofWire_ne_keyMismatch keys
  openDrain _ _ _ := Session.openDrain_dict

/-- **One key kind for each dictionary.** In every dictionary that is reached by inserting, each key stands once and is of the
kind of the dictionary, and under each key stands the last value that was accepted for it. The dictionary refuses exactly the
keys of another kind, and what is refused, by it or by the operation of foreign code, leaves it as it was. So nobody who builds
a dictionary is ever refused an entry, nobody who reads one finds a key of another kind, and every dictionary can be drained. -/
theorem one_key_kind (reached : Reached accepted d) :
    ((∀ entry ∈ d.entries, entry.1.kind = d.kind) ∧ (d.entries.map Prod.fst).Nodup) ∧
    (∀ key, Entries.get? key d.entries = Entries.get? key accepted.reverse) ∧
    (∀ key value, ((∃ fault, (d.insert key value).1 = .error fault) ↔ key.kind ≠ d.kind) ∧
      ∀ fault, (d.insert key value).1 = .error fault → (d.insert key value).2 = d) ∧
    (∀ key value, (insertDict (some (.dict d.kind d.entries)) key value).status ≠ .ok →
      (insertDict (some (.dict d.kind d.entries)) key value).target = some (.dict d.kind d.entries)) ∧
    Readable d ∧ NeverRefused := by
  obtain ⟨keys, nodup⟩ := keys_of_reached reached
  refine ⟨⟨keys, nodup⟩, get?_of_reached reached, fun key value => ⟨?_, fun fault failed => ?_⟩, fun key value failed => ?_,
    readable_of_keys keys, neverRefused⟩
  · constructor
    · rintro ⟨fault, failed⟩
      exact (WireDict.insert_error_iff.1 (Prod.ext failed rfl)).1
    · intro other
      exact ⟨_, congrArg Prod.fst (WireDict.insert_error_iff.2 ⟨other, rfl, rfl⟩)⟩
  · exact (WireDict.insert_error_iff.1 (Prod.ext failed rfl)).2.2
  · exact (insertDict_refused failed).1

/-- a dictionary of bytes: native code puts a value under a key, is refused another key, and foreign code replaces the value -/
theorem one_key_kind_bytes :
    let seven : HostInt := ⟨7, by decide⟩
    let key : WireKey := .int .u8 ⟨7, by decide⟩
    let d : WireDict := ⟨.int .u8, [(key, .bool true)]⟩
    let accepted : List (WireKey × WireValue) := [(key, .int seven), (key, .bool true)]
    Reached accepted d ∧ Entries.get? key d.entries = some (.bool true) ∧ (∀ entry ∈ d.entries, entry.1.kind = .int .u8) ∧
      (d.insert (.bool true) (.int seven)).2 = d ∧ Readable d := by
  intro seven key d accepted
  let before : WireDict := ⟨.int .u8, [(key, .int seven)]⟩
  have first : Reached [(key, .int seven)] before := .insert (.new (.int .u8)) rfl
  have fault : before.insert (.bool true) (.int seven) = (.error (Fault.within .key (.mismatch "u8" "bool")), before) := rfl
  have read : WireKey.ofValue? before.kind (.int seven) = some key := rfl
  have put : (insertDict (some (.dict before.kind before.entries)) (some (.int seven)) (some (.bool true))).target =
      some (.dict d.kind d.entries) := rfl
  have reached : Reached accepted d := .insertDict (.insertRefused first fault) read rfl put
  obtain ⟨⟨keys, -⟩, contents, refused, -, readable, -⟩ := one_key_kind reached
  exact ⟨reached, (contents key).trans rfl, keys, (refused (.bool true) (.int seven)).2 _ rfl, readable⟩

end Foreign

end NativeBridge
