/-
From wire values to host values. Decoding takes the wire value over: whatever it gives, every object of the value has been
released in the end, the parts of a container one after the other and, after a fault, all that are left at once. Tuples are
read by ascending index, lists from their last element, dictionaries entry by entry.

A tuple fits only if its indices are exactly those of the elements, a dictionary only if its key kind is the declared one.
-/
import NativeBridge.Codec.Encode
import NativeBridge.Wire.Chain

namespace NativeBridge

namespace Signature

/-- takes over a value that cannot be used -/
def refuse {α : Type} (value : WireValue) (fault : Fault) : Metered α := do
  Metered.release value.size
  .fail fault

/-- the fault of a wire value that is not of this type -/
def unfitWire (s : Signature) (value : WireValue) : Fault := .mismatch s.written value.kind.name

/-- the host value for a wire value of a primitive type -/
def decodePrimitive (s : Signature) (kind : Primitive) (value : WireValue) : Except Fault HostValue :=
  match kind, value with
  | .int w, .int v => (w.check v).map .int
  | .float32, .float32 x => .ok (.float x.widen)
  | .float64, .float64 x => .ok (.float x)
  | .bool, .bool b => .ok (.bool b)
  | .text, .text t =>
    match t.toString? with
    | some string => .ok (.text string)
    | none => .error (.invalidText "C string contained non-utf8 bytes")
  | _, value => .error (s.unfitWire value)

/-- the elements of a list, the first of which has the index `i`, from the last one -/
def decodeItems {α : Type} (decodeItem : WireValue → Metered α) (i : Nat) : List WireValue → Metered (List α)
  | [] => pure []
  | item :: rest => do
    let others ← (decodeItems decodeItem (i + 1) rest).releasingOnFault item.size
    let first ← (decodeItem item).within (.index i)
    pure (first :: others)

/-- the entries of a dictionary put into the entries decoded so far -/
def decodeEntries (kind : KeyKind) (decodeItem : WireValue → Metered HostValue)
    (decoded : List (HostKey × HostValue)) : List (WireKey × WireValue) → Metered (List (HostKey × HostValue))
  | [] => pure decoded
  | (key, item) :: rest => do
    let left := WireValue.sizeOfEntries rest
    let hostKey ← ((Metered.ofExcept (key.toHost kind)).within .key).releasingOnFault (item.size + left)
    let value ← ((decodeItem item).within .value).releasingOnFault left
    decodeEntries kind decodeItem (hostKey.put value decoded) rest

/-- the fault of a dictionary of another key kind -/
def otherKeyKind (expected found : KeyKind) : Fault :=
  .mismatch ("Dict<" ++ expected.name ++ ", _>") ("Dict<" ++ found.name ++ ", _>")

mutual

/-- the host value for a wire value of this shape; `whole` is the signature that the shape belongs to -/
def decodeShape (whole : Signature) : Shape → WireValue → Metered HostValue
  | .primitive kind, value => do
    Metered.release value.size
    Metered.ofExcept (whole.decodePrimitive kind value)
  | .tuple elems, .tuple chain =>
    if chain.length = elems.length then do
      Metered.release 1
      let items ← decodeElems 0 elems (Chain.drain chain)
      pure (.tuple items)
    else refuse (.tuple chain) (.mismatch whole.written ("tuple of " ++ toString chain.length))
  | .list elem, .list items => do
    Metered.release 1
    let decoded ← decodeItems (decodeValue elem) 0 items
    pure (.list decoded)
  | .dict kind value, .dict found entries =>
    if kind = found then do
      Metered.release 1
      let decoded ← decodeEntries kind (decodeValue value) [] entries
      pure (.dict decoded)
    else refuse (.dict found entries) (otherKeyKind kind found)
  | .hole _, value => refuse value (.missingHint "" [])
  | .void, value => refuse value (.unsupportedType "()")
  | _, value => refuse value (whole.unfitWire value)

/-- the host value for a wire value of this type -/
def decodeValue : Signature → WireValue → Metered HostValue
  | ⟨access, shape⟩, value => decodeShape ⟨access, shape⟩ shape value

/-- the elements of a tuple from a drained chain, the first of which has to have the index `i` -/
def decodeElems (i : Nat) : List Signature → List (Nat × WireValue) → Metered (List HostValue)
  | elem :: elems, (index, item) :: rest =>
    let left := WireValue.sizeOfChain rest
    if index = i then do
      let first ← ((decodeValue elem item).within (.index i)).releasingOnFault left
      let others ← decodeElems (i + 1) elems rest
      pure (first :: others)
    else do
      Metered.release (item.size + left)
      .fail (Fault.within (.index i) (.mismatch ("element " ++ toString i) ("element " ++ toString index)))
  | _, _ => pure []

end

/-- the host value for a wire value of this type, unless a part of the type is unknown -/
def decode (s : Signature) (value : WireValue) : Metered HostValue :=
  match s.firstHole? with
  | some p => refuse value (.missingHint "" p)
  | none => s.decodeValue value

end Signature

end NativeBridge
