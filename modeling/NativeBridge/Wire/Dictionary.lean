/-
Dictionaries on the wire. A dictionary takes only keys of its own kind; a key of another kind is refused and changes nothing. It
gives its entries only to one who names the kind of the keys.
-/
import NativeBridge.Codec.Decode
import NativeBridge.Wire.Entries
import NativeBridge.Wire.Value

namespace NativeBridge.WireValue

/-- the entries of a dictionary of this kind with a value under a key -/
def insert (kind : KeyKind) (key : WireKey) (value : WireValue) (entries : List (WireKey × WireValue)) :
    Except Fault (List (WireKey × WireValue)) :=
  if key.kind = kind then .ok (Entries.put key value entries)
  else .error (Fault.within .key (.mismatch kind.name key.kind.name))

end NativeBridge.WireValue

namespace NativeBridge

/-- a dictionary that native code holds -/
structure WireDict where
  kind : KeyKind
  entries : List (WireKey × WireValue)

namespace WireDict

/-- a dictionary without entries -/
def new (kind : KeyKind) : WireDict := ⟨kind, []⟩

/-- puts a value under a key; a key that is refused leaves the dictionary as it was -/
def insert (key : WireKey) (value : WireValue) (d : WireDict) : Except Fault Unit × WireDict :=
  match WireValue.insert d.kind key value d.entries with
  | .ok made => (.ok (), { d with entries := made })
  | .error fault => (.error fault, d)

/-- the kind and the entries, if the kind is the one that was asked for -/
def drain (asked : KeyKind) (d : WireDict) : Except Fault (KeyKind × List (WireKey × WireValue)) :=
  if asked = d.kind then .ok (asked, d.entries) else .error (Signature.otherKeyKind asked d.kind)

end WireDict

end NativeBridge
