/-
From host values to wire values. A signature says what the wire value has to be; a signature with a hole cannot say it, which
is noticed before anything is created. Tuples are built from their last element, lists from their first, dictionaries in
the order of their keys, and a fault releases whatever was built before it.

The codec of a container is made from the codecs of its parts: `Signature.encode` recurses on the signature alone.
-/
import NativeBridge.HostValue
import NativeBridge.Key.Codec
import NativeBridge.Metered
import NativeBridge.Signature.Printer
import NativeBridge.Wire.Entries

namespace NativeBridge

namespace IntWidth

/-- the integer, if the width holds it -/
def check (w : IntWidth) (v : HostInt) : Except Fault HostInt :=
  if w.Holds v.val then .ok v else .error (.intOutOfRange w v.val [])

end IntWidth

/-- the string as a text on the wire; a zero character cannot be sent -/
def WireText.ofString (s : String) : Except Fault WireText :=
  match WireText.ofString? s with
  | some text => .ok text
  | none =>
    .error (.invalidText ("nul byte found in provided data at position: " ++ toString ((firstZero? s).getD 0)))

namespace Signature

/-- the fault of a host value that is not of this type -/
def unfit (s : Signature) (value : HostValue) : Fault := .mismatch s.written value.typeName

/-- the wire value for a host value of a primitive type -/
def encodePrimitive (s : Signature) (kind : Primitive) (value : HostValue) : Except Fault WireValue :=
  match kind, value with
  | .int w, .int v => (w.check v).map .int
  | .float32, .float x => .ok (.float32 x.narrow)
  | .float32, .int v => .ok (.float32 (.ofHostInt v))
  | .float64, .float x => .ok (.float64 x)
  | .float64, .int v => .ok (.float64 (.ofHostInt v))
  | .bool, .bool b => .ok (.bool b)
  | .text, .text t => (WireText.ofString t).map .text
  | _, value => .error (s.unfit value)

/-- the elements of a list, the first of which has the index `i`, each by the codec of the element type -/
def encodeItems {α : Type} (encodeItem : α → Metered WireValue) (i : Nat) : List α → Metered (List WireValue)
  | [] => pure []
  | item :: rest => do
    let first ← (encodeItem item).within (.index i)
    let others ← (encodeItems encodeItem (i + 1) rest).releasingOnFault first.size
    pure (first :: others)

/-- the entries of a dictionary put into the entries built so far -/
def encodeEntries (kind : KeyKind) (encodeValue : HostValue → Metered WireValue)
    (built : List (WireKey × WireValue)) : List (HostKey × HostValue) → Metered (List (WireKey × WireValue))
  | [] => pure built
  | (key, item) :: rest => do
    let size := WireValue.sizeOfEntries built
    let wireKey ← ((Metered.ofExcept (key.toWire kind)).within .key).releasingOnFault size
    let value ← ((encodeValue item).within .value).releasingOnFault size
    Metered.release (WireValue.sizeOfOption (Entries.get? wireKey built))
    encodeEntries kind encodeValue (Entries.put wireKey value built) rest

mutual

/-- the wire value for a host value of this shape; `whole` is the signature that the shape belongs to -/
def encodeShape (whole : Signature) : Shape → HostValue → Metered WireValue
  | .primitive kind, value =>
    match whole.encodePrimitive kind value with
    | .ok wire => .create wire
    | .error fault => .fail fault
  | .tuple elems, .tuple items =>
    if elems.length = items.length then do
      let chain ← encodeElems 0 elems items
      .create (.tuple chain)
    else .fail (.mismatch whole.written ("tuple of " ++ toString items.length))
  | .list elem, .list items => do
    let encoded ← encodeItems (encodeValue elem) 0 items
    .create (.list encoded)
  | .dict kind value, .dict entries => do
    let encoded ← encodeEntries kind (encodeValue value) [] entries
    .create (.dict kind encoded)
  | .void, _ => .fail (.unsupportedType "()")
  | .hole _, _ => .fail (.missingHint "" [])
  | _, value => .fail (whole.unfit value)

/-- the wire value for a host value of this type -/
def encodeValue : Signature → HostValue → Metered WireValue
  | ⟨access, shape⟩, value => encodeShape ⟨access, shape⟩ shape value

/-- the chain for the elements of a tuple, the first of which has the index `i`, built from the last one -/
def encodeElems (i : Nat) : List Signature → List HostValue → Metered (List (Nat × WireValue))
  | elem :: elems, item :: items => do
    let others ← encodeElems (i + 1) elems items
    let first ← ((encodeValue elem item).within (.index i)).releasingOnFault (WireValue.sizeOfChain others)
    pure ((i, first) :: others)
  | _, _ => pure []

end

/-- the wire value for a host value of this type, unless a part of the type is unknown -/
def encode (s : Signature) (value : HostValue) : Metered WireValue :=
  match s.firstHole? with
  | some p => .fail (.missingHint "" p)
  | none => s.encodeValue value

end Signature

end NativeBridge
