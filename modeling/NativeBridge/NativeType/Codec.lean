/-
Native values as wire values and back. Where a host value would be checked against a signature, a native value is checked
against its type: integers against their width, strings for characters that cannot be sent, tuples for their length and
indices, maps for their key kind. As with host values, what is taken over is released whether or not it can be used, and
what was built is released if the rest cannot be.
-/
import NativeBridge.NativeType
import NativeBridge.Codec.Decode

namespace NativeBridge.NativeType

open Signature (encodeItems decodeItems refuse otherKeyKind)

/-- a wire value that holds an integer; only a large one of 64 unsigned bits does not fit -/
def wireInt {w : IntWidth} (v : BoundedInt w) : Except Fault WireValue :=
  match BoundedInt.ofInt? .i64 v.val with
  | some value => .ok (.int value)
  | none => .error (.intOutOfRange w v.val [])

/-- one object for a value that was made without a fault -/
def createFrom (value : Except Fault WireValue) : Metered WireValue :=
  match value with
  | .ok made => .create made
  | .error fault => .fail fault

/-- entries put, in the order given, into those built so far -/
def encodeEntries {α : Type} (kind : KeyKind) (encodeValue : α → Metered WireValue)
    (built : List (WireKey × WireValue)) : List (kind.Value × α) → Metered (List (WireKey × WireValue))
  | [] => pure built
  | (key, item) :: rest => do
    let value ← ((encodeValue item).within .value).releasingOnFault (WireValue.sizeOfEntries built)
    Metered.release (WireValue.sizeOfOption (Entries.get? (kind.toKey key) built))
    encodeEntries kind encodeValue (Entries.put (kind.toKey key) value built) rest

mutual

/-- the wire value for a native value -/
def toWire : (t : NativeType) → t.Value → Metered WireValue
  | int _, v => createFrom (wireInt v)
  | float32, x => .create (.float32 x)
  | float64, x => .create (.float64 x)
  | bool, b => .create (.bool b)
  | text, s => createFrom ((WireText.ofString s).map .text)
  | wire, value => pure value
  | list elem, items => do
    let encoded ← encodeItems (toWire elem) 0 items
    .create (.list encoded)
  | tuple elems, values => do
    let chain ← toChain 0 elems values
    .create (.tuple chain)
  | map key value, entries => do
    let encoded ← encodeEntries key (toWire value) [] entries
    .create (.dict key encoded)

/-- the chain for the elements of a tuple, the first of which has the index `i`, from the first one on -/
def toChain (i : Nat) : (ts : List NativeType) → Values ts → Metered (List (Nat × WireValue))
  | [], _ => pure []
  | t :: ts, (value, values) => do
    let first ← (toWire t value).within (.index i)
    let others ← (toChain (i + 1) ts values).releasingOnFault first.size
    pure ((i, first) :: others)

end

/-- the fault of a wire value that is not of this type -/
def unfit (t : NativeType) (value : WireValue) : Fault := .mismatch t.name value.kind.name

/-- takes a value over that is not looked into any further -/
def consume {α : Type} (value : WireValue) (outcome : Except Fault α) : Metered α := do
  Metered.release value.size
  Metered.ofExcept outcome

/-- the integer, checked against a width -/
def nativeInt (w : IntWidth) (v : HostInt) : Except Fault (BoundedInt w) :=
  match BoundedInt.ofInt? w v.val with
  | some value => .ok value
  | none => .error (.intOutOfRange w v.val [])

/-- the string, if the bytes are valid -/
def nativeText (t : WireText) : Except Fault String :=
  match t.toString? with
  | some string => .ok string
  | none => .error (.invalidText "C string contained non-utf8 bytes")

/-- entries put, in the order given, into those decoded so far; the value is looked at before the key -/
def decodeEntries {α : Type} (kind : KeyKind) (decodeItem : WireValue → Metered α) (decoded : List (kind.Value × α)) :
    List (WireKey × WireValue) → Metered (List (kind.Value × α))
  | [] => pure decoded
  | (key, item) :: rest => do
    let left := WireValue.sizeOfEntries rest
    let value ← ((decodeItem item).within .value).releasingOnFault left
    match kind.ofKey? key with
    | some native => decodeEntries kind decodeItem (putEntry native value decoded) rest
    | none => do
      Metered.release left
      .fail (Fault.within .key (.mismatch kind.name key.kind.name))

mutual

/-- the native value in a wire value -/
def ofWire : (t : NativeType) → WireValue → Metered t.Value
  | int w, .int v => consume (.int v) (nativeInt w v)
  | float32, .float32 x => consume (.float32 x) (.ok x)
  | float64, .float64 x => consume (.float64 x) (.ok x)
  | bool, .bool b => consume (.bool b) (.ok b)
  | text, .text s => consume (.text s) (nativeText s)
  | wire, value => pure value
  | list elem, .list items => do
    Metered.release 1
    decodeItems (ofWire elem) 0 items
  | tuple elems, .tuple chain =>
    if chain.length = elems.length then do
      Metered.release 1
      ofChain 0 elems chain
    else
      refuse (.tuple chain)
        (.mismatch ("tuple of " ++ toString elems.length) ("tuple of " ++ toString chain.length))
  | map key value, .dict found entries =>
    if key = found then do
      Metered.release 1
      decodeEntries key (ofWire value) [] entries
    else refuse (.dict found entries) (otherKeyKind key found)
  | t, value => refuse value (unfit t value)

/-- the elements of a tuple, the first of which has the index `i`, each taken out of the chain by its index -/
def ofChain (i : Nat) : (ts : List NativeType) → List (Nat × WireValue) → Metered (Values ts)
  | [], chain => do
    Metered.release (WireValue.sizeOfChain chain)
    pure ()
  | t :: ts, chain =>
    match Chain.take? i chain with
    | none => do
      Metered.release (WireValue.sizeOfChain chain)
      .fail (Fault.within (.index i) (.mismatch ("element " ++ toString i) "missing element"))
    | some (item, rest) => do
      let first ← ((ofWire t item).within (.index i)).releasingOnFault (WireValue.sizeOfChain rest)
      let others ← ofChain (i + 1) ts rest
      pure (first, others)

end

/-- takes the element with an index out of a chain as a native value; it is gone even if it is not of the type -/
def takeElem (t : NativeType) (i : Nat) (chain : List (Nat × WireValue)) :
    Metered t.Value × List (Nat × WireValue) :=
  match Chain.take? i chain with
  | none => (.fail (Fault.within (.index i) (.mismatch ("element " ++ toString i) "missing element")), chain)
  | some (item, rest) => ((ofWire t item).within (.index i), rest)

end NativeBridge.NativeType
