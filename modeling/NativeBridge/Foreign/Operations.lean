/-
What foreign code does to wire values. An operation that puts one value into another takes the new value over in any case:
if it cannot be put there, it is released, and the container stays as it was.

- `size_pushTuple`, `size_pushList`, `size_insertDict`: objects are neither lost nor doubled by putting a value into a
  container.
-/
import NativeBridge.Key.Codec
import NativeBridge.Wire.Chain
import NativeBridge.Wire.Entries

namespace NativeBridge.Foreign

/-- how an operation that puts a value into a container ended -/
inductive Status where
  | ok
  | null
  | wrongKind
  | badKey
deriving DecidableEq, Repr

/-- the code by which foreign code sees a status -/
def Status.code : Status → Nat
  | .ok => 0
  | .null => 1
  | .wrongKind => 2
  | .badKey => 3

/-- the end of an operation on a container: its status, the container afterwards, and how many objects were released -/
structure Update where
  status : Status
  target : Option WireValue
  released : Nat

/-- links an element into a tuple -/
def pushTuple (target : Option WireValue) (index : Nat) (elem : Option WireValue) : Update :=
  match elem with
  | none => ⟨.null, target, 0⟩
  | some elem =>
    match target with
    | some (.tuple chain) => ⟨.ok, some (.tuple (Chain.pushFront index elem chain)), 0⟩
    | some other => ⟨.wrongKind, some other, elem.size⟩
    | none => ⟨.null, none, elem.size⟩

/-- appends an element to a list -/
def pushList (target elem : Option WireValue) : Update :=
  match elem with
  | none => ⟨.null, target, 0⟩
  | some elem =>
    match target with
    | some (.list items) => ⟨.ok, some (.list (items ++ [elem])), 0⟩
    | some other => ⟨.wrongKind, some other, elem.size⟩
    | none => ⟨.null, none, elem.size⟩

/-- puts a value under a key into a dictionary; what was there before is released, and so is the key -/
def insertDict (target key value : Option WireValue) : Update :=
  match key, value with
  | some key, some value =>
    match target with
    | some (.dict kind entries) =>
      match WireKey.ofValue? kind key with
      | some wireKey =>
        ⟨.ok, some (.dict kind (Entries.put wireKey value entries)),
          key.size + WireValue.sizeOfOption (Entries.get? wireKey entries)⟩
      | none => ⟨.badKey, some (.dict kind entries), key.size + value.size⟩
    | some other => ⟨.wrongKind, some other, key.size + value.size⟩
    | none => ⟨.null, none, key.size + value.size⟩
  | key, value => ⟨.null, target, WireValue.sizeOfOption key + WireValue.sizeOfOption value⟩

/-- takes the element with an index out of a tuple -/
def takeTuple (target : Option WireValue) (index : Nat) : Option WireValue × Option WireValue :=
  match target with
  | some (.tuple chain) =>
    match Chain.take? index chain with
    | some (elem, rest) => (some elem, some (.tuple rest))
    | none => (none, target)
  | _ => (none, target)

/-- takes the last element out of a list -/
def popList (target : Option WireValue) : Option WireValue × Option WireValue :=
  match target with
  | some (.list items) =>
    match items.getLast? with
    | some elem => (some elem, some (.list items.dropLast))
    | none => (none, target)
  | _ => (none, target)

/-- how many elements or entries there are, if the value is a container of this kind -/
def lengthOf (kind : WireKind) (target : Option WireValue) : Nat :=
  match kind, target with
  | .tuple, some (.tuple chain) => chain.length
  | .list, some (.list items) => items.length
  | .dict, some (.dict _ entries) => entries.length
  | _, _ => 0

/-- the kind code of a value, zero for null -/
def kindCode : Option WireValue → Nat
  | some v => v.kind.code
  | none => 0

/-- the bytes of a text -/
def textOf? : Option WireValue → Option WireText
  | some (.text t) => some t
  | _ => none

/-- a truth value, false for anything else -/
def boolOf : Option WireValue → Bool
  | some (.bool b) => b
  | _ => false

/-- an integer, zero for anything else -/
def intOf : Option WireValue → HostInt
  | some (.int v) => v
  | _ => .wrap .i64 0

/-- a float of 32 bits, zero for anything else -/
def float32Of : Option WireValue → Binary32
  | some (.float32 x) => x
  | _ => ⟨0⟩

/-- a float of 64 bits, zero for anything else -/
def float64Of : Option WireValue → Binary64
  | some (.float64 x) => x
  | _ => ⟨0⟩

theorem sizeOfItems_append (items : List WireValue) (elem : WireValue) :
    WireValue.sizeOfItems (items ++ [elem]) = WireValue.sizeOfItems items + elem.size := by
  induction items with
  | nil => simp [WireValue.sizeOfItems]
  | cons first rest ih => simp only [List.cons_append, WireValue.sizeOfItems, ih]; omega

theorem sizeOfEntries_put (key : WireKey) (value : WireValue) (entries : List (WireKey × WireValue)) :
    WireValue.sizeOfEntries (Entries.put key value entries) + WireValue.sizeOfOption (Entries.get? key entries) =
      WireValue.sizeOfEntries entries + value.size := by
  induction entries with
  | nil => simp [Entries.put, Entries.get?, WireValue.sizeOfEntries, WireValue.sizeOfOption]
  | cons entry rest ih =>
    by_cases h : entry.1 = key
    · simp only [Entries.put, Entries.get?, h, ↓reduceIte, WireValue.sizeOfEntries, WireValue.sizeOfOption]; omega
    · simp only [Entries.put, Entries.get?, h, ↓reduceIte, WireValue.sizeOfEntries]; omega

theorem size_pushTuple (target : Option WireValue) (index : Nat) (elem : Option WireValue) :
    WireValue.sizeOfOption (pushTuple target index elem).target + (pushTuple target index elem).released =
      WireValue.sizeOfOption target + WireValue.sizeOfOption elem := by
  unfold pushTuple
  split
  · rfl
  · split <;>
      simp [WireValue.sizeOfOption, Chain.pushFront, WireValue.size, WireValue.sizeOfChain, Nat.add_comm,
        Nat.add_left_comm]

theorem size_pushList (target elem : Option WireValue) :
    WireValue.sizeOfOption (pushList target elem).target + (pushList target elem).released =
      WireValue.sizeOfOption target + WireValue.sizeOfOption elem := by
  unfold pushList
  split
  · rfl
  · split <;> simp [WireValue.sizeOfOption, WireValue.size, sizeOfItems_append, Nat.add_assoc]

theorem size_insertDict (target key value : Option WireValue) :
    WireValue.sizeOfOption (insertDict target key value).target + (insertDict target key value).released =
      WireValue.sizeOfOption target + WireValue.sizeOfOption key + WireValue.sizeOfOption value := by
  unfold insertDict
  split
  · split
    · split
      · next kind entries _ wireKey _ =>
        have := sizeOfEntries_put wireKey (by assumption) entries
        simp only [WireValue.sizeOfOption, WireValue.size] at this ⊢
        omega
      · simp [WireValue.sizeOfOption, Nat.add_assoc]
    · simp [WireValue.sizeOfOption, Nat.add_assoc]
    · simp [WireValue.sizeOfOption]
  · simp [Nat.add_assoc]

end NativeBridge.Foreign
