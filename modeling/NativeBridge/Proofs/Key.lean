/-
Keys. The host orders its keys strictly and totally, and the codec of a key kind is one-to-one between the host keys it takes
and the wire keys it gives back.

- `HostKey.before_irrefl`, `HostKey.before_trans`, `HostKey.eq_of_not_before`: the order of host keys is strict and total.
- `WireKey.toHost_of_toWire`: a wire key made from a host key leads back to it.
- `WireKey.toWire_of_toHost`: a host key made from a wire key leads back to it, provided that a text has no zero character.
-/
import Mathlib.Tactic
import NativeBridge.Key.Codec
import NativeBridge.Proofs.Ordered

namespace NativeBridge

/-! ## The order of host keys -/

namespace HostKey

theorem before_irrefl (a : HostKey) : a.before a = false := by
  cases a with
  | int v => simp [before]
  | bool b => simp [before]
  | text s => exact decide_eq_false (String.lt_irrefl s)

theorem before_trans {a b c : HostKey} (hab : a.before b = true) (hbc : b.before c = true) : a.before c = true := by
  cases a <;> cases b <;> cases c <;> simp only [before, decide_eq_true_eq, Bool.and_eq_true, Bool.not_eq_true',
    Bool.false_eq_true] at hab hbc ⊢
  · omega
  · exact ⟨hab.1, hbc.2⟩
  · exact String.lt_trans hab hbc

/-- of two different keys one comes before the other -/
theorem eq_of_not_before {a b : HostKey} (first : a.before b = false) (second : b.before a = false) : a = b := by
  cases a with
  | int v =>
    cases b with
    | int w =>
      simp only [before, decide_eq_false_iff_not] at first second
      exact congrArg HostKey.int (BoundedInt.ext (by omega))
    | _ => cases first
  | bool x =>
    cases b with
    | bool y => cases x <;> cases y <;> simp_all [before]
    | int w => cases second
    | text t => cases first
  | text s =>
    cases b with
    | text t =>
      simp only [before, decide_eq_false_iff_not] at first second
      exact congrArg HostKey.text (String.le_antisymm (String.not_lt.1 second) (String.not_lt.1 first))
    | _ => cases second

instance : IsStrictTotalOrder HostKey (HostKey.before · · = true) where
  irrefl a := Bool.eq_false_iff.1 (before_irrefl a)
  trans _ _ _ := before_trans
  trichotomous _ _ first second := eq_of_not_before (Bool.eq_false_iff.2 first) (Bool.eq_false_iff.2 second)

/-- entries of the host in the order of their keys, each key once -/
abbrev Ascending {α : Type} (entries : List (HostKey × α)) : Prop := Ordered.Ascending before entries

end HostKey

/-! ## The codec of a key kind -/

namespace WireKey

/-- a text key without a zero character; every other key -/
def Clean : WireKey → Prop
  | .text s => '\x00' ∉ s.toList
  | _ => True

/-- **The host key is not changed by the way to the wire and back.** -/
theorem toHost_of_toWire {kind : KeyKind} {key : HostKey} {wire : WireKey} (h : key.toWire kind = .ok wire) :
    wire.toHost kind = .ok key := by
  have same : wire.kind = kind := kind_of_toWire h
  unfold HostKey.toWire at h
  split at h
  · next w v =>
    split at h
    · next value fits =>
      cases h
      have back : BoundedInt.ofInt? .i64 value.val = some v := by
        rw [BoundedInt.ofInt?_eq_some_iff] at fits ⊢
        exact fits.symm
      simp [toHost, kind, back]
    · cases h
  · cases h
    simp [toHost, kind]
  · split at h
    · cases h
    · cases h
      simp [toHost, kind]
  · cases h

theorem kind_of_toHost {kind : KeyKind} {key : HostKey} {wire : WireKey} (h : wire.toHost kind = .ok key) :
    wire.kind = kind := by
  unfold toHost at h
  split at h
  · assumption
  · cases h

theorem toHost_int_ok_iff {w : IntWidth} {v : BoundedInt w} {key : HostKey} :
    (WireKey.int w v).toHost (.int w) = .ok key ↔ ∃ value : HostInt, v.val = value.val ∧ key = .int value := by
  simp only [toHost, kind, ↓reduceIte]
  constructor
  · intro h
    split at h
    · next value fits =>
      cases h
      exact ⟨value, BoundedInt.ofInt?_eq_some_iff.1 fits, rfl⟩
    · cases h
  · rintro ⟨value, same, rfl⟩
    rw [BoundedInt.ofInt?_eq_some_iff.2 same]

/-- **The wire key is not changed by the way to the host and back**, unless it is a text that the host does not send. -/
theorem toWire_of_toHost {kind : KeyKind} {key : HostKey} {wire : WireKey} (clean : wire.Clean)
    (h : wire.toHost kind = .ok key) : key.toWire kind = .ok wire := by
  have same := kind_of_toHost h
  subst same
  cases wire with
  | int w v =>
    obtain ⟨value, same, rfl⟩ := toHost_int_ok_iff.1 h
    have back : BoundedInt.ofInt? w value.val = some v := BoundedInt.ofInt?_eq_some_iff.2 same.symm
    simp [HostKey.toWire, kind, back]
  | bool b =>
    simp only [toHost, kind, ↓reduceIte] at h
    cases h
    rfl
  | text s =>
    simp only [toHost, kind, ↓reduceIte] at h
    cases h
    have free : '\x00' ∉ s.toList := clean
    simp [HostKey.toWire, kind, free]

theorem toWire_injective {kind : KeyKind} {a b : HostKey} {wire : WireKey} (ha : a.toWire kind = .ok wire)
    (hb : b.toWire kind = .ok wire) : a = b := by
  have h := (toHost_of_toWire ha).symm.trans (toHost_of_toWire hb)
  exact Except.ok.inj h

theorem toHost_injective {kind : KeyKind} {a b : WireKey} {key : HostKey} (ha : a.toHost kind = .ok key)
    (hb : b.toHost kind = .ok key) : a = b := by
  have same := kind_of_toHost ha
  subst same
  have other := kind_of_toHost hb
  cases a with
  | int w v =>
    cases b with
    | int w' v' =>
      obtain rfl : w' = w := by simpa [kind] using other
      obtain ⟨x, hx, rfl⟩ := toHost_int_ok_iff.1 ha
      obtain ⟨y, hy, e⟩ := toHost_int_ok_iff.1 hb
      obtain rfl : x = y := HostKey.int.inj e
      exact congrArg (WireKey.int w') (BoundedInt.ext (hx.trans hy.symm))
    | _ => simp [kind] at other
  | bool x =>
    cases b with
    | bool y =>
      simp only [toHost, kind, ↓reduceIte] at ha hb
      cases ha; cases hb
      rfl
    | _ => simp [kind] at other
  | text s =>
    cases b with
    | text t =>
      simp only [toHost, kind, ↓reduceIte] at ha hb
      cases ha; cases hb
      rfl
    | _ => simp [kind] at other

theorem biUnique_toWire (kind : KeyKind) :
    Relator.BiUnique fun (key : HostKey) (wire : WireKey) => key.toWire kind = .ok wire :=
  ⟨fun _ _ _ ha hb => toWire_injective ha hb, fun _ _ _ ha hb => Except.ok.inj (ha.symm.trans hb)⟩

theorem biUnique_toHost (kind : KeyKind) :
    Relator.BiUnique fun (wire : WireKey) (key : HostKey) => wire.toHost kind = .ok key :=
  ⟨fun _ _ _ ha hb => toHost_injective ha hb, fun _ _ _ ha hb => Except.ok.inj (ha.symm.trans hb)⟩

end WireKey

end NativeBridge
