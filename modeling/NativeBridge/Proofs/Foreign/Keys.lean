/-
Keys on the two ways out of a dictionary: to the host as host keys, to foreign code as wire values. Either way leads back. The
one key that only foreign code can see is an integer without sign that no host integer holds; a text with a zero character
comes back as the empty text.

- `clean_of_toWire`: the codec of keys, which host keys and those of foreign code go through, takes no zero character.
- `toHost_error_iff`: the keys that the host cannot have.
- `passed`: the key that comes back for a key that is given out; `ofValue?_toValue`: it always does.
- `toValue_of_ofValue?`: what is taken for a key is what the key is given out as.
- `codecs_agree`: the two ways take the same keys to each other.
-/
import Mathlib.Tactic
import NativeBridge.Key.Codec
import NativeBridge.Proofs.IntWidth
import NativeBridge.Proofs.Key
import NativeBridge.Proofs.Text

namespace NativeBridge

/-- the wire value that carries a host key: the integer, the truth value, or the text with the bytes of the string -/
inductive HostKey.CarriedBy : HostKey → WireValue → Prop
  | int (v : HostInt) : CarriedBy (.int v) (.int v)
  | bool (b : Bool) : CarriedBy (.bool b) (.bool b)
  | text {s : String} {t : WireText} (bytes : t.bytes = s.toByteArray) : CarriedBy (.text s) (.text t)

theorem HostKey.CarriedBy.unique {key : HostKey} {value other : WireValue} (h : key.CarriedBy value)
    (h' : key.CarriedBy other) : value = other := by
  cases h with
  | int v => cases h'; rfl
  | bool b => cases h'; rfl
  | text bytes =>
    cases h' with
    | text bytes' => exact congrArg WireValue.text (WireText.ext (bytes.trans bytes'.symm))

namespace WireKey

/-! ## Keys of the host -/

/-- the key codec takes no text with a zero character -/
theorem clean_of_toWire {kind : KeyKind} {key : HostKey} {wire : WireKey} (h : key.toWire kind = .ok wire) :
    wire.Clean := by
  unfold HostKey.toWire at h
  split at h
  · split at h
    · cases h
      trivial
    · cases h
  · cases h
    trivial
  · next s =>
    split at h
    · cases h
    · next free =>
      cases h
      show '\x00' ∉ s.toList
      simpa using free
  · cases h

/-- The keys that the host cannot have are the integers without sign that no host integer holds. -/
theorem toHost_error_iff {key : WireKey} {fault : Fault} :
    key.toHost key.kind = .error fault ↔
      ∃ v : BoundedInt .u64, key = .int .u64 v ∧ IntWidth.i64.greatest < v.val ∧ fault = .keyOutOfRange (.int .u64) v.val := by
  cases key with
  | int w v =>
    by_cases small : IntWidth.i64.Holds v.val
    · have held : (int w v).toHost (.int w) = .ok (.int ⟨v.val, small⟩) :=
        toHost_int_ok_iff.2 ⟨⟨v.val, small⟩, rfl, rfl⟩
      constructor
      · intro fails
        cases held.symm.trans fails
      · rintro ⟨v', same, large, -⟩
        cases same
        exact absurd small.2 (not_le.2 large)
    · have none : BoundedInt.ofInt? .i64 v.val = none := dif_neg small
      have refused : (int w v).toHost (.int w) = .error (.keyOutOfRange (.int w) v.val) := by
        simp only [toHost, kind, ↓reduceIte, none]
      obtain rfl : w = .u64 := by
        by_contra narrow
        exact small (IntWidth.holds_i64 narrow v.holds)
      have large : IntWidth.i64.greatest < v.val := by
        by_contra within
        exact small ⟨le_trans (by decide) v.holds.1, not_lt.1 within⟩
      constructor
      · intro fails
        exact ⟨v, rfl, large, (Except.error.inj (refused.symm.trans fails)).symm⟩
      · rintro ⟨v', same, -, rfl⟩
        cases same
        exact refused
  | bool b =>
    constructor
    · intro fails
      cases fails
    · rintro ⟨v, same, -⟩
      cases same
  | text s =>
    constructor
    · intro fails
      simp [toHost] at fails
    · rintro ⟨v, same, -⟩
      cases same

/-! ## Keys outside dictionaries -/

/-- the key that comes back if this one is given out and put in again -/
def passed : WireKey → WireKey
  | .text s => .text (if '\x00' ∈ s.toList then "" else s)
  | key => key

theorem clean_passed (key : WireKey) : key.passed.Clean := by
  cases key with
  | text s =>
    show '\x00' ∉ (if '\x00' ∈ s.toList then "" else s).toList
    split_ifs with zero
    · simp
    · exact zero
  | _ => trivial

theorem passed_eq_iff {key : WireKey} : key.passed = key ↔ key.Clean := by
  constructor
  · intro same
    exact same ▸ clean_passed key
  · intro clean
    cases key with
    | text s => exact congrArg WireKey.text (if_neg clean)
    | _ => rfl

/-- an integer is kept by its low bits, read with a sign or without -/
theorem wrap_wrap {w : IntWidth} (v : BoundedInt w) (other : IntWidth) (bits : other.bits = w.bits) :
    BoundedInt.wrap w (BoundedInt.wrap other v.val).val = v :=
  BoundedInt.ext (IntWidth.wrap_eq_of_modEq v.holds (bits ▸ (IntWidth.wrap_modEq other v.val).symm))

/-- The wire value that stands for a key is taken for a key of the same kind. -/
theorem ofValue?_toValue (key : WireKey) : ofValue? key.kind key.toValue = some key.passed := by
  cases key with
  | int w v =>
    by_cases narrow : w = .u64
    · subst narrow
      exact congrArg (fun v => some (WireKey.int .u64 v)) (wrap_wrap v .i64 rfl)
    · have same : (BoundedInt.wrap .i64 v.val).val = v.val := IntWidth.wrap_of_holds (IntWidth.holds_i64 narrow v.holds)
      have back : BoundedInt.ofInt? w (BoundedInt.wrap .i64 v.val).val = some v := BoundedInt.ofInt?_eq_some_iff.2 same
      have codec : ofValue? (.int w) (.int (.wrap .i64 v.val)) =
          (HostKey.toWire (.int w) (.int (.wrap .i64 v.val))).toOption := by
        cases w with
        | u64 => exact absurd rfl narrow
        | _ => rfl
      show ofValue? (.int w) (.int (.wrap .i64 v.val)) = some (.int w v)
      rw [codec, HostKey.toWire, back]
      rfl
  | bool b => rfl
  | text s =>
    have codec {t : String} (clean : '\x00' ∉ t.toList) : (HostKey.toWire .text (.text t)).toOption = some (.text t) := by
      simp [HostKey.toWire, clean, Except.toOption]
    show (((WireText.ofString? s).getD .empty).toString?.bind fun t => (HostKey.toWire .text (.text t)).toOption) = _
    rw [WireText.toString?_getD_ofString?]
    exact codec (clean_passed (.text s))

/-- The wire value that stands for the key made of a host key carries the host key. -/
theorem carriedBy_toValue {kind : KeyKind} {key : HostKey} {wire : WireKey} (h : key.toWire kind = .ok wire) :
    key.CarriedBy wire.toValue := by
  have clean := clean_of_toWire h
  have back := toHost_of_toWire h
  obtain rfl := kind_of_toWire h
  cases wire with
  | int w v =>
    obtain ⟨value, same, rfl⟩ := toHost_int_ok_iff.1 back
    have kept : BoundedInt.wrap .i64 v.val = value :=
      BoundedInt.ext ((IntWidth.wrap_of_holds (same ▸ value.holds)).trans same)
    show HostKey.CarriedBy (.int value) (.int (.wrap .i64 v.val))
    rw [kept]
    exact .int value
  | bool b =>
    cases back
    exact .bool b
  | text s =>
    simp only [toHost, kind, ↓reduceIte, Except.ok.injEq] at back
    subst back
    obtain ⟨t, made⟩ := WireText.exists_ofString_iff.2 clean
    rw [WireText.ofString_ok_iff] at made
    show HostKey.CarriedBy (.text s) (.text ((WireText.ofString? s).getD .empty))
    rw [made]
    exact .text (WireText.bytes_of_ofBytes? made)

/-- A wire value is taken for the key that the codec makes of the host key it carries, or for the integer without sign that has
its pattern. -/
theorem ofValue?_cases {kind : KeyKind} {value : WireValue} {wire : WireKey} (h : ofValue? kind value = some wire) :
    (∃ v : HostInt, kind = .int .u64 ∧ value = .int v ∧ wire = .int .u64 (.wrap .u64 v.val)) ∨
      ∃ key : HostKey, key.CarriedBy value ∧ key.toWire kind = .ok wire := by
  have codec {key : HostKey} (h : (key.toWire kind).toOption = some wire) : key.toWire kind = .ok wire := by
    cases made : key.toWire kind with
    | ok other =>
      rw [made] at h
      exact congrArg Except.ok (Option.some.inj h)
    | error fault =>
      rw [made] at h
      cases h
  unfold ofValue? at h
  split at h
  next v =>
    cases h
    exact .inl ⟨v, rfl, rfl, rfl⟩
  next v _ => exact .inr ⟨.int v, .int v, codec h⟩
  next b => exact .inr ⟨.bool b, .bool b, codec h⟩
  next t =>
    obtain ⟨s, read, h⟩ := Option.bind_eq_some_iff.1 h
    exact .inr ⟨.text s, .text (WireText.bytes_of_toString? read).symm, codec h⟩
  next => cases h

theorem kind_and_clean_of_ofValue? {kind : KeyKind} {value : WireValue} {key : WireKey}
    (h : ofValue? kind value = some key) : key.kind = kind ∧ key.Clean := by
  rcases ofValue?_cases h with ⟨v, rfl, -, rfl⟩ | ⟨host, -, made⟩
  · exact ⟨rfl, trivial⟩
  · exact ⟨kind_of_toWire made, clean_of_toWire made⟩

/-- What is taken for a key is what the key is given out as. -/
theorem toValue_of_ofValue? {kind : KeyKind} {value : WireValue} {wire : WireKey} (h : ofValue? kind value = some wire) :
    wire.toValue = value := by
  rcases ofValue?_cases h with ⟨v, rfl, rfl, rfl⟩ | ⟨key, carried, made⟩
  · exact congrArg WireValue.int (wrap_wrap v .u64 rfl)
  · exact (carriedBy_toValue made).unique carried

/-- **The two ways out of a dictionary take the same keys to each other.** A host key that a kind takes becomes a key of that
kind, which leads back to it and is given out as the wire value that carries it. A key of the kind, without a zero character,
leads back from the host and from foreign code; the host refuses it only if it is an integer without sign that is too large. And
foreign code gives in as a key only what it is given out for that key. -/
theorem codecs_agree (kind : KeyKind) :
    (∀ (key : HostKey) (wire : WireKey), key.toWire kind = .ok wire →
      wire.kind = kind ∧ wire.toHost kind = .ok key ∧ key.CarriedBy wire.toValue) ∧
    (∀ wire : WireKey, wire.kind = kind → wire.Clean →
      (∀ key, wire.toHost kind = .ok key → key.toWire kind = .ok wire) ∧
      (∀ fault, wire.toHost kind = .error fault ↔ ∃ v : BoundedInt .u64, wire = .int .u64 v ∧
        IntWidth.i64.greatest < v.val ∧ fault = .keyOutOfRange (.int .u64) v.val) ∧
      ofValue? kind wire.toValue = some wire) ∧
    ∀ (value : WireValue) (wire : WireKey), ofValue? kind value = some wire →
      wire.kind = kind ∧ wire.Clean ∧ wire.toValue = value := by
  refine ⟨?_, ?_, ?_⟩
  · intro key wire made
    exact ⟨kind_of_toWire made, toHost_of_toWire made, carriedBy_toValue made⟩
  · rintro wire rfl clean
    refine ⟨fun key back => toWire_of_toHost clean back, fun fault => toHost_error_iff, ?_⟩
    rw [ofValue?_toValue, passed_eq_iff.2 clean]
  · intro value wire taken
    obtain ⟨same, clean⟩ := kind_and_clean_of_ofValue? taken
    exact ⟨same, clean, toValue_of_ofValue? taken⟩

/-- the greatest integer without sign: no host key, but foreign code sees it as -1 and gives it in again; and a text with a
character of two bytes, which both ways carry -/
theorem codecs_agree_greatest_and_text :
    let greatest : WireKey := .int .u64 ⟨IntWidth.u64.greatest, by decide⟩
    let text : WireKey := .text "né"
    (greatest.toHost (.int .u64) = .error (.keyOutOfRange (.int .u64) IntWidth.u64.greatest) ∧
      greatest.toValue = .int ⟨-1, by decide⟩ ∧ ofValue? (.int .u64) (.int ⟨-1, by decide⟩) = some greatest) ∧
    (HostKey.text "né").toWire .text = .ok text ∧ text.toHost .text = .ok (.text "né") ∧
      (HostKey.text "né").CarriedBy text.toValue ∧ ofValue? .text text.toValue = some text := by
  intro greatest text
  obtain ⟨-, ofKind, -⟩ := codecs_agree (.int .u64)
  obtain ⟨-, refused, back⟩ := ofKind greatest rfl trivial
  have seen : greatest.toValue = .int ⟨-1, by decide⟩ := congrArg WireValue.int (BoundedInt.ext (by decide))
  obtain ⟨ofHost, ofKind', -⟩ := codecs_agree .text
  have made : (HostKey.text "né").toWire .text = .ok text := by decide
  obtain ⟨-, toHost, carried⟩ := ofHost (.text "né") text made
  have clean : text.Clean := by show '\x00' ∉ "né".toList; decide
  exact ⟨⟨(refused _).2 ⟨_, rfl, by decide, rfl⟩, seen, seen ▸ back⟩, made, toHost, carried, (ofKind' text rfl clean).2.2⟩

end WireKey

end NativeBridge
