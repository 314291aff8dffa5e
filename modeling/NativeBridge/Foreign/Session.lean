/-
A session of foreign code with wire values. The foreign side holds its addresses in named slots: each slot holds a wire value
or an open drain of a dictionary. A request names the slots it takes its addresses from; a slot that is empty or that holds
the other sort of thing gives null. An address that a request takes over leaves its slot before any other address is
looked up, and an address that it gives is put into the slot named for it, releasing what was there, or is released at
once if no slot is named.

`Session.tally` counts the objects created and released since the session began; `Session.size` counts those that the
slots hold.
-/
import NativeBridge.Foreign.Operations
import NativeBridge.Metered
import NativeBridge.Version

namespace NativeBridge.Foreign

/-- what a slot holds -/
inductive Held where
  | value (value : WireValue)
  /-- the entries of a dictionary that have not been given out yet -/
  | drain (kind : KeyKind) (left : List (WireKey × WireValue))

/-- the objects behind a slot -/
def Held.size : Held → Nat
  | .value v => v.size
  | .drain _ left => WireValue.sizeOfEntries left

/-- the name of a slot; none stands for null -/
abbrev SlotName := Option String

/-- a request of foreign code; `on` names the first address, `out` the slot for the result -/
inductive Request where
  | version
  | kind (on : SlotName)
  | free (on : SlotName)
  | newText (bytes : Option ByteArray) (out : SlotName)
  | getText (on : SlotName)
  | newBool (value : UInt8) (out : SlotName)
  | getBool (on : SlotName)
  | newInt (value : HostInt) (out : SlotName)
  | getInt (on : SlotName)
  | newFloat32 (value : Binary32) (out : SlotName)
  | getFloat32 (on : SlotName)
  | newFloat64 (value : Binary64) (out : SlotName)
  | getFloat64 (on : SlotName)
  | newTuple (out : SlotName)
  | pushTuple (on : SlotName) (index : Nat) (elem : SlotName)
  | takeTuple (on : SlotName) (index : Nat) (out : SlotName)
  | newList (out : SlotName)
  | pushList (on elem : SlotName)
  | popList (on out : SlotName)
  | newDict (code : Nat) (out : SlotName)
  | insertDict (on key elem : SlotName)
  | length (kind : WireKind) (on : SlotName)
  | openDrain (on out : SlotName)
  /-- the next entry of a drain; without a place for the key, the key is released -/
  | nextEntry (on out : SlotName) (wantsKey : Bool) (keyOut : SlotName)
  | closeDrain (on : SlotName)

/-- what a request answers -/
inductive Reply where
  | done
  | version (text : String)
  | code (code : Nat)
  | length (count : Nat)
  | text (bytes : Option WireText)
  | bool (value : Bool)
  | int (value : HostInt)
  | float32 (value : Binary32)
  | float64 (value : Binary64)
  /-- the kind of the value at the address, or null -/
  | address (kind : Option WireKind)
  /-- the key kind of the drain and how many entries it has, or null -/
  | drain (opened : Option (KeyKind × Nat))
  | entry (value key : Option WireKind)

/-- the state of a session -/
structure Session where
  slots : List (String × Held)
  tally : Tally

namespace Session

/-- the session before any request -/
def start : Session := ⟨[], 0⟩

/-- the objects behind all slots -/
def size (s : Session) : Nat := s.slots.foldr (fun slot rest => slot.2.size + rest) 0

/-- what a slot holds -/
def held? (s : Session) : SlotName → Option Held
  | none => none
  | some name => s.slots.lookup name

/-- the wire value that a slot holds -/
def value? (s : Session) (name : SlotName) : Option WireValue :=
  match s.held? name with
  | some (.value v) => some v
  | _ => none

/-- the session with an empty slot -/
def clear (s : Session) (name : String) : Session := { s with slots := s.slots.filter fun slot => slot.1 != name }

/-- the session with something else in a slot; nothing is released -/
def set (s : Session) (name : String) (held : Held) : Session :=
  let cleared := s.clear name
  { cleared with slots := (name, held) :: cleared.slots }

/-- objects were created -/
def create (s : Session) (count : Nat) : Session := { s with tally := s.tally + ⟨count, 0⟩ }

/-- objects were released -/
def release (s : Session) (count : Nat) : Session := { s with tally := s.tally + ⟨0, count⟩ }

/-- takes a wire value out of its slot -/
def take (s : Session) (name : SlotName) : Option WireValue × Session :=
  match name, s.value? name with
  | some slot, some v => (some v, s.clear slot)
  | _, _ => (none, s)

/-- replaces the wire value in a slot by the same value in a new state -/
def update (s : Session) (name : SlotName) (value : Option WireValue) : Session :=
  match name, value with
  | some slot, some v => s.set slot (.value v)
  | _, _ => s

/-- puts an address into a slot and releases what was there; without a slot the address itself is released -/
def store (s : Session) (out : SlotName) (held : Held) : Session :=
  match out with
  | none => s.release held.size
  | some slot =>
    match s.held? out with
    | some old => (s.release old.size).set slot held
    | none => s.set slot held

/-- gives an address, or null, to the slot named for it -/
def give (s : Session) (out : SlotName) : Option WireValue → Session
  | none => s
  | some v => s.store out (.value v)

/-- gives the address of a value just made -/
def make (s : Session) (out : SlotName) (value : WireValue) : Session × Reply :=
  ((s.create value.size).store out (.value value), .address (some value.kind))

/-- carries out what an operation did to the container in a slot -/
def carryOut (s : Session) (on : SlotName) (done : Update) : Session × Reply :=
  ((s.update on done.target).release done.released, .code done.status.code)

/-- takes a dictionary apart into a drain; any other value is released -/
def openDrain (s : Session) (on out : SlotName) : Session × Reply :=
  match s.take on with
  | (some (.dict kind entries), s) => ((s.release 1).store out (.drain kind entries), .drain (some (kind, entries.length)))
  | (some other, s) => (s.release other.size, .drain none)
  | (none, s) => (s, .drain none)

/-- gives the next entry of a drain; the key becomes a value of its own -/
def nextEntry (s : Session) (on out : SlotName) (wantsKey : Bool) (keyOut : SlotName) : Session × Reply :=
  match on, s.held? on with
  | some slot, some (.drain kind ((key, value) :: left)) =>
    let keyValue := key.toValue
    let s := ((s.set slot (.drain kind left)).create keyValue.size).store out (.value value)
    if wantsKey then
      (s.store keyOut (.value keyValue), .entry (some value.kind) (some keyValue.kind))
    else (s.release keyValue.size, .entry (some value.kind) none)
  | _, _ => (s, .entry none none)

/-- closes a drain and releases what it has not given out -/
def closeDrain (s : Session) (on : SlotName) : Session × Reply :=
  match on, s.held? on with
  | some slot, some (.drain _ left) => ((s.clear slot).release (WireValue.sizeOfEntries left), .done)
  | _, _ => (s, .done)

/-- one request -/
def step (s : Session) (request : Request) : Session × Reply :=
  match request with
  | .version => (s, .version NativeBridge.version)
  | .kind on => (s, .code (kindCode (s.value? on)))
  | .free on =>
    let (value, s) := s.take on
    (s.release (WireValue.sizeOfOption value), .done)
  | .newText none _ => (s, .address none)
  | .newText (some bytes) out => s.make out (.text (WireText.untilZero bytes))
  | .getText on => (s, .text (textOf? (s.value? on)))
  | .newBool value out => s.make out (.bool (value != 0))
  | .getBool on => (s, .bool (boolOf (s.value? on)))
  | .newInt value out => s.make out (.int value)
  | .getInt on => (s, .int (intOf (s.value? on)))
  | .newFloat32 value out => s.make out (.float32 value)
  | .getFloat32 on => (s, .float32 (float32Of (s.value? on)))
  | .newFloat64 value out => s.make out (.float64 value)
  | .getFloat64 on => (s, .float64 (float64Of (s.value? on)))
  | .newTuple out => s.make out (.tuple [])
  | .pushTuple on index elem =>
    let (value, s) := s.take elem
    s.carryOut on (Foreign.pushTuple (s.value? on) index value)
  | .takeTuple on index out =>
    let (elem, target) := Foreign.takeTuple (s.value? on) index
    ((s.update on target).give out elem, .address (elem.map WireValue.kind))
  | .newList out => s.make out (.list [])
  | .pushList on elem =>
    let (value, s) := s.take elem
    s.carryOut on (Foreign.pushList (s.value? on) value)
  | .popList on out =>
    let (elem, target) := Foreign.popList (s.value? on)
    ((s.update on target).give out elem, .address (elem.map WireValue.kind))
  | .newDict code out =>
    match KeyKind.ofCode? code with
    | some kind => s.make out (.dict kind [])
    | none => (s, .address none)
  | .insertDict on key elem =>
    let (keyValue, s) := s.take key
    let (value, s) := s.take elem
    s.carryOut on (Foreign.insertDict (s.value? on) keyValue value)
  | .length kind on => (s, .length (lengthOf kind (s.value? on)))
  | .openDrain on out => s.openDrain on out
  | .nextEntry on out wantsKey keyOut => s.nextEntry on out wantsKey keyOut
  | .closeDrain on => s.closeDrain on

/-- all requests, one after the other -/
def run (s : Session) (requests : List Request) : Session := requests.foldl (fun s request => (s.step request).1) s

/-- releases everything that the slots hold -/
def finish (s : Session) : Session := { s.release s.size with slots := [] }

end Session

end NativeBridge.Foreign
