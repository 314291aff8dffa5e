/-
Keys between the host and the wire. A host key becomes a wire key of a given kind if the kind can hold it; a wire key of that
kind becomes a host key again unless it is too large for a host integer. Foreign code sees a key as a wire value.

- `WireKey.kind_of_toWire`: a key made for a kind is of that kind.
-/
import NativeBridge.Fault
import NativeBridge.Wire.Value

namespace NativeBridge

namespace HostKey

/-- the key as a wire key of the given kind -/
def toWire (kind : KeyKind) (key : HostKey) : Except Fault WireKey :=
  match kind, key with
  | .int w, .int v =>
    match BoundedInt.ofInt? w v.val with
    | some value => .ok (.int w value)
    | none => .error (.keyOutOfRange (.int w) v.val)
  | .bool, .bool b => .ok (.bool b)
  | .text, .text s =>
    if s.toList.contains '\x00' then .error (.invalidText ("nul byte in dictionary key " ++ Text.quoted s))
    else .ok (.text s)
  | kind, key => .error (.mismatch kind.name key.typeName)

end HostKey

namespace WireKey

/-- the key, taken for one of the given kind, as a host key -/
def toHost (kind : KeyKind) (key : WireKey) : Except Fault HostKey :=
  if key.kind = kind then
    match key with
    | .int w v =>
      match BoundedInt.ofInt? .i64 v.val with
      | some value => .ok (.int value)
      | none => .error (.keyOutOfRange (.int w) v.val)
    | .bool b => .ok (.bool b)
    | .text s => .ok (.text s)
  else .error (.mismatch kind.name key.kind.name)

/-- the wire key of the given kind that a wire value stands for; a key of 64 unsigned bits stands in an integer by its
pattern -/
def ofValue? (kind : KeyKind) (value : WireValue) : Option WireKey :=
  match kind, value with
  | .int .u64, .int v => some (.int .u64 (.wrap .u64 v.val))
  | kind, .int v => (HostKey.toWire kind (.int v)).toOption
  | kind, .bool b => (HostKey.toWire kind (.bool b)).toOption
  | kind, .text t => t.toString?.bind fun s => (HostKey.toWire kind (.text s)).toOption
  | _, _ => none

/-- the wire value that stands for a key; a text that cannot be sent becomes the empty one -/
def toValue : WireKey → WireValue
  | .int _ v => .int (.wrap .i64 v.val)
  | .bool b => .bool b
  | .text s => .text ((WireText.ofString? s).getD .empty)

theorem kind_of_toWire {kind : KeyKind} {key : HostKey} {wire : WireKey} (h : key.toWire kind = .ok wire) :
    wire.kind = kind := by
  unfold HostKey.toWire at h
  split at h
  · split at h
    · cases h; rfl
    · cases h
  · cases h; rfl
  · split at h
    · cases h
    · cases h; rfl
  · cases h

end WireKey

end NativeBridge
