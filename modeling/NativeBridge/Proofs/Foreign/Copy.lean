/-
Dictionaries copied by foreign code: taken apart into a drain and put together again, entry by entry, in a new dictionary with
the same key code. A key stands outside a dictionary as a wire value, and a text with a zero character has none: it is given
out as the empty text, and no fault tells.

- `Round`, `copyRounds`, `copyDict`: what foreign code requests, and what it sees.
- `copyRounds_eq`: round by round, by induction on what is left in the drain.
- `copied_exactly_iff_clean`: every insertion is accepted, and the copy is the original exactly if no key has a zero character.
- `copied_keys_merge`: two keys that become one.
-/
import NativeBridge.Proofs.Foreign.Built
import NativeBridge.Proofs.Foreign.Slots

namespace NativeBridge

namespace Foreign

/-- the slots of a copy: the original, the drain that it is taken apart into, the new dictionary, and a key and a value on their
way from the one to the other -/
structure Route where
  original : String
  drain : String
  copy : String
  key : String
  value : String
  differ : [drain, copy, key, value].Nodup

/-- what foreign code sees of one entry: the key and the value that it is given, and the reply when it puts them into the
copy -/
structure Round where
  key : Option WireValue
  value : Option WireValue
  reply : Reply

namespace Session

/-- the next entry of the drain, put into the copy -/
def copyRound (r : Route) (s : Session) : Session × Round :=
  let given := (s.step (.nextEntry (some r.drain) (some r.value) true (some r.key))).1
  let (after, reply) := given.step (.insertDict (some r.copy) (some r.key) (some r.value))
  (after, ⟨given.value? (some r.key), given.value? (some r.value), reply⟩)

/-- as many entries, one after the other -/
def copyRounds (r : Route) : Nat → Session → Session × List Round
  | 0, s => (s, [])
  | n + 1, s =>
    let (next, round) := s.copyRound r
    let (last, rounds) := copyRounds r n next
    (last, round :: rounds)

/-- the original taken apart, and as many entries put into a new dictionary with this key code -/
def copyDict (r : Route) (code count : Nat) (s : Session) : Session × List Round :=
  (s.run [.openDrain (some r.original) (some r.drain), .newDict code (some r.copy)]).copyRounds r count

/-! ## Single requests -/

theorem held?_store (s : Session) (slot : String) (held : Held) (name : SlotName) :
    (s.store (some slot) held).held? name = if name = some slot then some held else s.held? name := by
  rw [store]
  split
  · next old _ =>
    rw [held?_set]
    rfl
  · exact s.held?_set slot held name

theorem held?_nextEntry {s : Session} {slot : String} {kind : KeyKind} {key : WireKey} {value : WireValue}
    {left : List (WireKey × WireValue)} (drain : s.held? (some slot) = some (.drain kind ((key, value) :: left)))
    (out keyOut : String) (name : SlotName) :
    (s.step (.nextEntry (some slot) (some out) true (some keyOut))).1.held? name =
      if name = some keyOut then some (.value key.toValue)
      else if name = some out then some (.value value)
      else if name = some slot then some (.drain kind left)
      else s.held? name := by
  have next : (s.step (.nextEntry (some slot) (some out) true (some keyOut))).1 =
      ((((s.set slot (.drain kind left)).create key.toValue.size).store (some out) (.value value)).store (some keyOut)
        (.value key.toValue)) := by
    simp only [step, nextEntry, drain]
    rfl
  rw [next, held?_store, held?_store]
  show _ = if name = some keyOut then _ else if name = some out then _ else if name = some slot then _ else s.held? name
  rw [← s.held?_set slot (.drain kind left) name]
  rfl

theorem take_of_held {s : Session} {slot : String} {v : WireValue} (held : s.held? (some slot) = some (.value v)) :
    s.take (some slot) = (some v, s.clear slot) := by
  simp only [take, value?_eq_some_iff.2 held]

/-- a value put under a key into a dictionary that takes it -/
theorem insertDict_accepted {s : Session} {on key elem : String} {kind : KeyKind} {entries : List (WireKey × WireValue)}
    {keyValue value : WireValue} {wireKey : WireKey} (target : s.held? (some on) = some (.value (.dict kind entries)))
    (keyHeld : s.held? (some key) = some (.value keyValue)) (elemHeld : s.held? (some elem) = some (.value value))
    (codec : WireKey.ofValue? kind keyValue = some wireKey) (differ : on ≠ key ∧ on ≠ elem ∧ key ≠ elem) :
    (s.step (.insertDict (some on) (some key) (some elem))).2 = .code Status.ok.code ∧
      ∀ name, (s.step (.insertDict (some on) (some key) (some elem))).1.held? name =
        if name = some on then some (.value (.dict kind (Entries.put wireKey value entries)))
        else if name = some elem then none
        else if name = some key then none
        else s.held? name := by
  obtain ⟨onKey, onElem, keyElem⟩ := differ
  have elemLeft : (s.clear key).held? (some elem) = some (.value value) := by
    rw [held?_clear, if_neg (by simpa using keyElem.symm), elemHeld]
  have targetLeft : ((s.clear key).clear elem).value? (some on) = some (.dict kind entries) := by
    rw [value?_eq_some_iff, held?_clear, if_neg (by simpa using onElem), held?_clear, if_neg (by simpa using onKey), target]
  have done : s.step (.insertDict (some on) (some key) (some elem)) =
      ((s.clear key).clear elem).carryOut (some on)
        ⟨.ok, some (.dict kind (Entries.put wireKey value entries)),
          keyValue.size + WireValue.sizeOfOption (Entries.get? wireKey entries)⟩ := by
    simp only [step, take_of_held keyHeld, take_of_held elemLeft, targetLeft, Foreign.insertDict, codec]
  rw [done]
  refine ⟨rfl, fun name => ?_⟩
  rw [← held?_clear, ← held?_clear, ← held?_set]
  rfl

/-! ## Round by round -/

/-- a dictionary of this kind, what is left of it in the drain and what is built of it in the copy -/
structure Copying (r : Route) (kind : KeyKind) (left built : List (WireKey × WireValue)) (s : Session) : Prop where
  drain : s.held? (some r.drain) = some (.drain kind left)
  copy : s.held? (some r.copy) = some (.value (.dict kind built))

/-- an entry as it comes through -/
def passEntry (entry : WireKey × WireValue) : WireKey × WireValue := (entry.1.passed, entry.2)

/-- what is seen of an entry whose key is accepted -/
def accepted (entry : WireKey × WireValue) : Round := ⟨some entry.1.toValue, some entry.2, .code Status.ok.code⟩

theorem copyRound_eq {r : Route} {kind : KeyKind} {entry : WireKey × WireValue} {left built : List (WireKey × WireValue)}
    {s : Session} (h : Copying r kind (entry :: left) built s) (same : entry.1.kind = kind) :
    Copying r kind left (Entries.put entry.1.passed entry.2 built) (s.copyRound r).1 ∧ (s.copyRound r).2 = accepted entry := by
  have differ := r.differ
  simp only [List.nodup_cons, List.mem_cons, List.not_mem_nil, or_false, not_or] at differ
  obtain ⟨⟨drainCopy, drainKey, drainValue⟩, ⟨copyKey, copyValue⟩, keyValue, -⟩ := differ
  have given := held?_nextEntry h.drain r.value r.key
  generalize next : (s.step (.nextEntry (some r.drain) (some r.value) true (some r.key))).1 = t at given
  have keyHeld : t.held? (some r.key) = some (.value entry.1.toValue) := by
    rw [given, if_pos rfl]
  have valueHeld : t.held? (some r.value) = some (.value entry.2) := by
    rw [given, if_neg (by simpa using Ne.symm keyValue), if_pos rfl]
  have drainHeld : t.held? (some r.drain) = some (.drain kind left) := by
    rw [given, if_neg (by simpa using drainKey), if_neg (by simpa using drainValue), if_pos rfl]
  have copyHeld : t.held? (some r.copy) = some (.value (.dict kind built)) := by
    rw [given, if_neg (by simpa using copyKey), if_neg (by simpa using copyValue), if_neg (by simpa using Ne.symm drainCopy),
      h.copy]
  have codec : WireKey.ofValue? kind entry.1.toValue = some entry.1.passed := same ▸ WireKey.ofValue?_toValue entry.1
  obtain ⟨reply, after⟩ := insertDict_accepted copyHeld keyHeld valueHeld codec ⟨copyKey, copyValue, keyValue⟩
  have round : s.copyRound r =
      ((t.step (.insertDict (some r.copy) (some r.key) (some r.value))).1, ⟨t.value? (some r.key), t.value? (some r.value),
        (t.step (.insertDict (some r.copy) (some r.key) (some r.value))).2⟩) := by
    rw [← next]
    rfl
  rw [round, reply, value?_eq_some_iff.2 keyHeld, value?_eq_some_iff.2 valueHeld]
  refine ⟨⟨?_, ?_⟩, rfl⟩
  · rw [after, if_neg (by simpa using drainCopy), if_neg (by simpa using drainValue), if_neg (by simpa using drainKey),
      drainHeld]
  · rw [after, if_pos rfl]

theorem copyRounds_eq {r : Route} {kind : KeyKind} {left built : List (WireKey × WireValue)} {s : Session}
    (h : Copying r kind left built s) (same : ∀ entry ∈ left, entry.1.kind = kind) :
    Copying r kind [] (Entries.putAll built (left.map passEntry)) (s.copyRounds r left.length).1 ∧
      (s.copyRounds r left.length).2 = left.map accepted := by
  induction left generalizing built s with
  | nil => exact ⟨h, rfl⟩
  | cons entry left ih =>
    obtain ⟨here, there⟩ := List.forall_mem_cons.1 same
    obtain ⟨next, seen⟩ := copyRound_eq h here
    obtain ⟨last, rounds⟩ := ih next there
    exact ⟨last, congrArg₂ List.cons seen rounds⟩

theorem copying_opened {r : Route} {kind : KeyKind} {entries : List (WireKey × WireValue)} {s : Session}
    (held : s.held? (some r.original) = some (.value (.dict kind entries))) :
    Copying r kind entries [] (s.run [.openDrain (some r.original) (some r.drain), .newDict kind.code (some r.copy)]) := by
  have drainCopy : r.drain ≠ r.copy := by
    have differ := r.differ
    simp only [List.nodup_cons, List.mem_cons, not_or] at differ
    exact differ.1.1
  have opened : s.run [.openDrain (some r.original) (some r.drain), .newDict kind.code (some r.copy)] =
      ((((s.clear r.original).release 1).store (some r.drain) (.drain kind entries)).create 1).store (some r.copy)
        (.value (.dict kind [])) := by
    simp only [run, List.foldl_cons, List.foldl_nil, step, openDrain, take_of_held held, KeyKind.ofCode?_code]
    rfl
  rw [opened]
  constructor
  · rw [held?_store, if_neg (by simpa using drainCopy)]
    exact (held?_store _ _ _ _).trans (if_pos rfl)
  · rw [held?_store, if_pos rfl]

/-! ## Whole dictionaries -/

theorem passEntry_of_clean {entries : List (WireKey × WireValue)} (clean : ∀ entry ∈ entries, entry.1.Clean) :
    entries.map passEntry = entries := by
  refine (List.map_congr_left ?_).trans (List.map_id entries)
  exact fun entry mem => Prod.ext (WireKey.passed_eq_iff.2 (clean entry mem)) rfl

/-- different keys without zero characters are given out as different values -/
theorem nodup_toValue {kind : KeyKind} {keys : List WireKey} (nodup : keys.Nodup) (same : ∀ key ∈ keys, key.kind = kind)
    (clean : ∀ key ∈ keys, key.Clean) : (keys.map WireKey.toValue).Nodup := by
  refine nodup.map_on fun a memA b memB equal => ?_
  have back : some a.passed = some b.passed := by
    rw [← WireKey.ofValue?_toValue, ← WireKey.ofValue?_toValue, same a memA, same b memB, equal]
  rw [← WireKey.passed_eq_iff.2 (clean a memA), ← WireKey.passed_eq_iff.2 (clean b memB)]
  exact Option.some.inj back

/-- **A dictionary survives the way through foreign code exactly if none of its keys has a zero character.** Whatever dictionary
has been built: taken apart and put together again, each of its entries is given out and accepted, until the drain is empty and
the copy is a dictionary of the same kind. The copy has the entries of the original exactly if all keys are free of zero
characters; then the keys that are given out are different as well. And they all are, unless native code has given one that
is not: neither the host nor foreign code can. -/
theorem copied_exactly_iff_clean {given : WireKey → Prop} {kind : KeyKind} {entries : List (WireKey × WireValue)}
    (built : Built given kind entries) (r : Route) (s : Session)
    (held : s.held? (some r.original) = some (.value (.dict kind entries))) :
    (s.copyDict r kind.code entries.length).2 = entries.map accepted ∧
    (s.copyDict r kind.code entries.length).1.held? (some r.drain) = some (.drain kind []) ∧
    (∃ copied, (s.copyDict r kind.code entries.length).1.held? (some r.copy) = some (.value (.dict kind copied)) ∧
      (copied.Perm entries ↔ ∀ entry ∈ entries, entry.1.Clean)) ∧
    ((∀ entry ∈ entries, entry.1.Clean) → (entries.map fun entry => entry.1.toValue).Nodup) ∧
    ((∀ key, given key → key.Clean) → ∀ entry ∈ entries, entry.1.Clean) := by
  obtain ⟨nodup, allowed⟩ := sound_of_built built
  have same : ∀ entry ∈ entries, entry.1.kind = kind := fun entry mem => (allowed entry mem).1
  obtain ⟨⟨drained, copied⟩, rounds⟩ := copyRounds_eq (copying_opened held) same
  refine ⟨rounds, drained, ⟨_, copied, ?_⟩, ?_, ?_⟩
  · constructor
    · -- no key of the copy has a zero character
      intro perm entry mem
      refine forall_keys_putAll (List.forall_mem_nil _) ?_ entry (perm.mem_iff.2 mem)
      simp only [List.forall_mem_map]
      exact fun entry _ => WireKey.clean_passed entry.1
    · intro clean
      rw [passEntry_of_clean clean, Entries.putAll_eq (by simpa using nodup)]
      exact .refl entries
  · intro clean
    have keys := nodup_toValue nodup (List.forall_mem_map.2 same) (List.forall_mem_map.2 clean)
    rwa [List.map_map] at keys
  · exact fun free entry mem => (allowed entry mem).2.elim (free entry.1) id

/-- a dictionary with the greatest key of 64 bits without sign, which is given out as -1 and comes back -/
theorem copied_exactly_iff_clean_greatest_key :
    let greatest : BoundedInt .u64 := ⟨0xFFFFFFFFFFFFFFFF, by decide⟩
    let entries : List (WireKey × WireValue) := [(.int .u64 greatest, .bool true), (.int .u64 ⟨0, by decide⟩, .list [])]
    let r : Route := ⟨"dict", "drain", "copy", "key", "value", by decide⟩
    let s := (start.make (some "dict") (.dict (.int .u64) entries)).1
    ∃ copied, (s.copyDict r 8 2).1.held? (some "copy") = some (.value (.dict (.int .u64) copied)) ∧ copied.Perm entries := by
  intro greatest entries r s
  have made : (NativeType.encodeEntries (.int .u64) (NativeType.toWire .wire) []
      [(greatest, .bool true), (⟨0, by decide⟩, .list [])]).result = .ok entries := rfl
  have built : Built WireKey.Clean (.int .u64) entries := .fromEntries (fun _ _ => trivial) made
  obtain ⟨-, -, ⟨copied, there, exactly⟩, -, clean⟩ := copied_exactly_iff_clean built r s rfl
  exact ⟨copied, there, exactly.2 (clean fun _ free => free)⟩

/-- two texts with zero characters, given by native code: both are given out as the empty text, both are accepted, and one entry
is left -/
theorem copied_keys_merge :
    let one : WireValue := .int ⟨1, by decide⟩
    let two : WireValue := .int ⟨2, by decide⟩
    let entries : List (WireKey × WireValue) := [(.text "\x00a", one), (.text "\x00b", two)]
    let r : Route := ⟨"dict", "drain", "copy", "key", "value", by decide⟩
    let s := (start.make (some "dict") (.dict .text entries)).1
    Built (fun _ => True) .text entries ∧
    (s.copyDict r KeyKind.text.code 2).2.map Round.reply = [.code Status.ok.code, .code Status.ok.code] ∧
    ¬ ((s.copyDict r KeyKind.text.code 2).2.map Round.key).Nodup ∧
    (s.copyDict r KeyKind.text.code 2).1.held? (some "copy") = some (.value (.dict .text [(.text "", two)])) := by
  intro one two entries r s
  have made : (NativeType.encodeEntries .text (NativeType.toWire (.int .i64)) []
      [("\x00a", (⟨1, by decide⟩ : HostInt)), ("\x00b", ⟨2, by decide⟩)]).result = .ok entries := rfl
  have held : s.held? (some r.original) = some (.value (.dict .text entries)) := rfl
  obtain ⟨⟨-, copied⟩, rounds⟩ :=
    copyRounds_eq (copying_opened held) (List.forall_mem_cons.2 ⟨rfl, List.forall_mem_singleton.2 rfl⟩)
  have zeroOne : '\x00' ∈ "\x00a".toList := by decide
  have zeroTwo : '\x00' ∈ "\x00b".toList := by decide
  refine ⟨.fromEntries (fun _ _ => trivial) made, congrArg (List.map Round.reply) rounds, ?_, ?_⟩
  · have keys : (s.copyDict r KeyKind.text.code 2).2.map Round.key =
        [some (WireKey.toValue (.text "\x00a")), some (WireKey.toValue (.text "\x00b"))] :=
      congrArg (List.map Round.key) rounds
    rw [keys, WireKey.toValue, WireKey.toValue, WireText.ofString?_eq_none_iff.2 zeroOne,
      WireText.ofString?_eq_none_iff.2 zeroTwo]
    simp
  · have passed : entries.map passEntry = [(.text "", one), (.text "", two)] := by
      simp only [entries, List.map_cons, List.map_nil, passEntry, WireKey.passed, if_pos zeroOne, if_pos zeroTwo]
    rw [passed] at copied
    exact copied

end Session

end Foreign

end NativeBridge
