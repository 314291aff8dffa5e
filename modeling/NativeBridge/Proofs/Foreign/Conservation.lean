/-
No object is lost in a session and none is released twice: whatever foreign code requests, the objects created are those
released and those still behind a slot.

- `Balanced`: the invariant, with the objects that are on their way between two slots.
- `balanced_step`, `balanced_run`: every request and every run of requests keeps it.
- `step_refused`: an operation that puts values into a container and fails releases these values and changes nothing else.
- `objects_conserved`: what follows for a session from its start, up to the release of everything it holds.
-/
import Mathlib.Tactic
import NativeBridge.Proofs.Foreign.Slots
import NativeBridge.Proofs.Objects

namespace NativeBridge.Foreign

open WireValue (sizeOfOption)

/-! ## Operations on containers -/

theorem size_takeTuple (target : Option WireValue) (index : Nat) :
    sizeOfOption (takeTuple target index).1 + sizeOfOption (takeTuple target index).2 = sizeOfOption target := by
  unfold takeTuple
  split
  · split
    · next elem rest taken =>
      have := WireValue.sizeOfChain_take? taken
      simp only [sizeOfOption, WireValue.size]
      omega
    · simp [sizeOfOption]
  · simp [sizeOfOption]

theorem size_popList (target : Option WireValue) :
    sizeOfOption (popList target).1 + sizeOfOption (popList target).2 = sizeOfOption target := by
  unfold popList
  split
  · next items =>
    split
    · next elem last =>
      have whole : items.dropLast ++ [elem] = items := List.dropLast_append_getLast? elem last
      have sizes := sizeOfItems_append items.dropLast elem
      rw [whole] at sizes
      simp only [sizeOfOption, WireValue.size]
      omega
    · simp [sizeOfOption]
  · simp [sizeOfOption]

section Targets

variable (target elem key : Option WireValue) (index : Nat)

theorem isSome_pushTuple : (pushTuple target index elem).target.isSome = target.isSome := by
  unfold pushTuple
  split
  · rfl
  · split <;> rfl

theorem isSome_pushList : (pushList target elem).target.isSome = target.isSome := by
  unfold pushList
  split
  · rfl
  · split <;> rfl

theorem isSome_insertDict : (insertDict target key elem).target.isSome = target.isSome := by
  unfold insertDict
  split
  · split
    · split <;> rfl
    · rfl
    · rfl
  · rfl

theorem isSome_takeTuple : (takeTuple target index).2.isSome = target.isSome := by
  unfold takeTuple
  split
  · split <;> rfl
  · rfl

theorem isSome_popList : (popList target).2.isSome = target.isSome := by
  unfold popList
  split
  · split <;> rfl
  · rfl

end Targets

/-! ## Failures -/

theorem Status.code_injective {a b : Status} (h : a.code = b.code) : a = b := by
  cases a <;> cases b <;> first | rfl | cases h

/-- an operation that failed: the container is as it was, and the values it was given are released -/
def Update.Refused (done : Update) (target : Option WireValue) (given : Nat) : Prop :=
  done.target = target ∧ done.released = given

theorem pushTuple_refused {target elem : Option WireValue} {index : Nat}
    (h : (pushTuple target index elem).status ≠ .ok) : (pushTuple target index elem).Refused target (sizeOfOption elem) := by
  unfold pushTuple at h ⊢
  split at h
  · exact ⟨rfl, rfl⟩
  · split at h
    · exact absurd rfl h
    · exact ⟨rfl, rfl⟩
    · exact ⟨rfl, rfl⟩

theorem pushList_refused {target elem : Option WireValue} (h : (pushList target elem).status ≠ .ok) :
    (pushList target elem).Refused target (sizeOfOption elem) := by
  unfold pushList at h ⊢
  split at h
  · exact ⟨rfl, rfl⟩
  · split at h
    · exact absurd rfl h
    · exact ⟨rfl, rfl⟩
    · exact ⟨rfl, rfl⟩

theorem insertDict_refused {target key elem : Option WireValue} (h : (insertDict target key elem).status ≠ .ok) :
    (insertDict target key elem).Refused target (sizeOfOption key + sizeOfOption elem) := by
  unfold insertDict at h ⊢
  split at h
  · split at h
    · split at h
      · exact absurd rfl h
      · exact ⟨rfl, rfl⟩
    · exact ⟨rfl, rfl⟩
    · exact ⟨rfl, rfl⟩
  · exact ⟨rfl, rfl⟩

namespace Session

/-! ## Requests that move values between slots and containers -/

section Requests

variable (s : Session) (on key elem out : SlotName) (index : Nat)

theorem step_pushTuple : s.step (.pushTuple on index elem) =
    (s.take elem).2.carryOut on (pushTuple ((s.take elem).2.value? on) index (s.take elem).1) := rfl

theorem step_pushList : s.step (.pushList on elem) =
    (s.take elem).2.carryOut on (pushList ((s.take elem).2.value? on) (s.take elem).1) := rfl

theorem step_insertDict : s.step (.insertDict on key elem) =
    ((s.take key).2.take elem).2.carryOut on
      (insertDict (((s.take key).2.take elem).2.value? on) (s.take key).1 ((s.take key).2.take elem).1) := rfl

theorem step_takeTuple : (s.step (.takeTuple on index out)).1 =
    (s.update on (takeTuple (s.value? on) index).2).give out (takeTuple (s.value? on) index).1 := rfl

theorem step_popList : (s.step (.popList on out)).1 =
    (s.update on (popList (s.value? on)).2).give out (popList (s.value? on)).1 := rfl

end Requests

/-! ## The invariant -/

/-- the objects created are those released, those behind the slots, and as many `loose` ones, which are on their way from one
slot to another -/
structure Balanced (loose : Nat) (s : Session) : Prop where
  names : s.NamesDiffer
  counted : s.tally.created = s.tally.released + s.size + loose

namespace Balanced

variable {loose : Nat} {s : Session}

theorem create (h : Balanced loose s) (count : Nat) : Balanced (loose + count) (s.create count) := by
  refine ⟨h.names, ?_⟩
  have := h.counted
  show s.tally.created + count = s.tally.released + 0 + s.size + (loose + count)
  omega

theorem release {count : Nat} (h : Balanced (loose + count) s) : Balanced loose (s.release count) := by
  refine ⟨h.names, ?_⟩
  have := h.counted
  show s.tally.created + 0 = s.tally.released + count + s.size + loose
  omega

theorem clear (h : Balanced loose s) (name : String) :
    Balanced (loose + Held.sizeOfOption (s.held? (some name))) (s.clear name) := by
  refine ⟨h.names.clear name, ?_⟩
  have := h.counted
  have := size_clear h.names name
  show s.tally.created = s.tally.released + (s.clear name).size + _
  omega

theorem set {held : Held} (h : Balanced (loose + held.size) s) (name : String) :
    Balanced (loose + Held.sizeOfOption (s.held? (some name))) (s.set name held) := by
  refine ⟨h.names.set name held, ?_⟩
  have := h.counted
  have := size_set h.names name held
  show s.tally.created = s.tally.released + (s.set name held).size + _
  omega

theorem store (held : Held) (h : Balanced (loose + held.size) s) (out : SlotName) :
    Balanced loose (s.store out held) := by
  unfold Session.store
  cases out with
  | none => exact h.release
  | some name =>
    cases found : s.held? (some name) with
    | none =>
      have stored := h.set name
      rwa [found] at stored
    | some old =>
      -- the old value is released before the new one takes its place
      have stored := h.set name
      rw [found] at stored
      exact stored.release

theorem give {value : Option WireValue} (h : Balanced (loose + sizeOfOption value) s) (out : SlotName) :
    Balanced loose (s.give out value) := by
  cases value with
  | none => exact h
  | some v => exact store (.value v) h out

theorem make (h : Balanced loose s) (out : SlotName) (value : WireValue) : Balanced loose (s.make out value).1 :=
  store (.value value) (h.create value.size) out

theorem take (h : Balanced loose s) (name : SlotName) :
    Balanced (loose + sizeOfOption (s.take name).1) (s.take name).2 := by
  rcases s.take_cases name with ⟨-, taken⟩ | ⟨slot, v, rfl, held, taken⟩
  · rw [taken]
    exact h
  · rw [taken]
    have cleared := h.clear slot
    rwa [held] at cleared

/-- a value replaced by what an operation left of it, together with what the operation added or took out -/
theorem update {loose' : Nat} {on : SlotName} {target : Option WireValue} (h : Balanced loose s)
    (same : target.isSome = (s.value? on).isSome)
    (sizes : loose' + sizeOfOption target = loose + sizeOfOption (s.value? on)) :
    Balanced loose' (s.update on target) := by
  cases found : s.value? on with
  | none =>
    rw [found] at same sizes
    obtain rfl : target = none := by simpa using same
    have unchanged : s.update on none = s := by cases on <;> rfl
    obtain rfl : loose' = loose := sizes
    rwa [unchanged]
  | some old =>
    rw [found] at same sizes
    obtain ⟨new, rfl⟩ := Option.isSome_iff_exists.1 same
    have held := value?_eq_some_iff.1 found
    cases on with
    | none => cases held
    | some name =>
      refine ⟨h.names.set name _, ?_⟩
      have before := h.counted
      have after := size_set h.names name (.value new)
      rw [held] at after
      simp only [sizeOfOption, Held.sizeOfOption, Held.size] at sizes after
      show s.tally.created = s.tally.released + (s.set name (.value new)).size + loose'
      omega

theorem carryOut {given : Nat} {on : SlotName} {done : Update} (h : Balanced (loose + given) s)
    (same : done.target.isSome = (s.value? on).isSome)
    (sizes : sizeOfOption done.target + done.released = sizeOfOption (s.value? on) + given) :
    Balanced loose (s.carryOut on done).1 :=
  release (h.update same (by omega))

theorem openDrain (h : Balanced loose s) (on out : SlotName) : Balanced loose (s.openDrain on out).1 := by
  have taken := h.take on
  unfold Session.openDrain
  split
  · next kind entries s' found =>
    rw [found] at taken
    -- the dictionary itself is released, its entries stay
    refine store (.drain kind entries) (release ?_) out
    have : loose + sizeOfOption (some (.dict kind entries)) = loose + (Held.drain kind entries).size + 1 := by
      simp only [sizeOfOption, WireValue.size, Held.size]
      omega
    rwa [← this]
  · next other s' _ found =>
    rw [found] at taken
    exact taken.release
  · next s' found =>
    rw [found] at taken
    exact taken

theorem nextEntry (h : Balanced loose s) (on out : SlotName) (wantsKey : Bool) (keyOut : SlotName) :
    Balanced loose (s.nextEntry on out wantsKey keyOut).1 := by
  unfold Session.nextEntry
  split
  · next slot kind key value left held =>
    -- the entry has left the drain: its value is loose, and soon its key
    have rest : Balanced (loose + value.size) (s.set slot (.drain kind left)) := by
      refine ⟨h.names.set slot _, ?_⟩
      have before := h.counted
      have after := size_set h.names slot (.drain kind left)
      rw [held] at after
      simp only [Held.sizeOfOption, Held.size, WireValue.sizeOfEntries] at after
      show s.tally.created = s.tally.released + (s.set slot (.drain kind left)).size + (loose + value.size)
      omega
    have made := rest.create key.toValue.size
    rw [Nat.add_right_comm] at made
    have given := store (.value value) made out
    cases wantsKey with
    | true => exact store (.value key.toValue) given keyOut
    | false => exact given.release
  · exact h

theorem closeDrain (h : Balanced loose s) (on : SlotName) : Balanced loose (s.closeDrain on).1 := by
  unfold Session.closeDrain
  split
  · next slot kind left held =>
    have cleared := h.clear slot
    rw [held] at cleared
    exact cleared.release
  · exact h

end Balanced

/-- one request keeps the invariant -/
theorem balanced_step {s : Session} (h : Balanced 0 s) (request : Request) : Balanced 0 (s.step request).1 := by
  cases request with
  | free on =>
    exact (h.take on).release
  | newText bytes out =>
    cases bytes with
    | none => exact h
    | some bytes => exact h.make out _
  | newBool value out => exact h.make out _
  | newInt value out => exact h.make out _
  | newFloat32 value out => exact h.make out _
  | newFloat64 value out => exact h.make out _
  | newTuple out => exact h.make out _
  | newList out => exact h.make out _
  | newDict code out =>
    rw [step]
    cases KeyKind.ofCode? code with
    | none => exact h
    | some kind => exact h.make out _
  | pushTuple on index elem =>
    rw [step_pushTuple]
    exact (h.take elem).carryOut (isSome_pushTuple _ _ _) (size_pushTuple _ _ _)
  | pushList on elem =>
    rw [step_pushList]
    exact (h.take elem).carryOut (isSome_pushList _ _) (size_pushList _ _)
  | insertDict on key elem =>
    have taken := (h.take key).take elem
    rw [Nat.add_assoc] at taken
    rw [step_insertDict]
    exact taken.carryOut (isSome_insertDict _ _ _) (by rw [size_insertDict, Nat.add_assoc])
  | takeTuple on index out =>
    rw [step_takeTuple]
    refine (h.update (isSome_takeTuple _ _) ?_).give out
    have := size_takeTuple (s.value? on) index
    omega
  | popList on out =>
    rw [step_popList]
    refine (h.update (isSome_popList _) ?_).give out
    have := size_popList (s.value? on)
    omega
  | openDrain on out => exact h.openDrain on out
  | nextEntry on out wantsKey keyOut => exact h.nextEntry on out wantsKey keyOut
  | closeDrain on => exact h.closeDrain on
  | _ => exact h

theorem balanced_run {s : Session} (h : Balanced 0 s) (requests : List Request) : Balanced 0 (s.run requests) := by
  induction requests generalizing s with
  | nil => exact h
  | cons request rest ih => exact ih (balanced_step h request)

theorem balanced_start : Balanced 0 start := ⟨List.nodup_nil, rfl⟩

/-! ## Failed requests -/

/-- a request that hands the values in the `given` slots over to a container -/
inductive HandsOver : Request → List SlotName → Prop
  | pushTuple (on : SlotName) (index : Nat) (elem : SlotName) : HandsOver (.pushTuple on index elem) [elem]
  | pushList (on elem : SlotName) : HandsOver (.pushList on elem) [elem]
  | insertDict (on key elem : SlotName) : HandsOver (.insertDict on key elem) [key, elem]

/-- the objects of the values in these slots, a slot named twice counted once -/
def sizeOfGiven (s : Session) (given : List SlotName) : Nat :=
  (given.dedup.map fun name => sizeOfOption (s.value? name)).sum

/-- the values in the `given` slots have been released, and nothing else has happened -/
structure Released (given : List SlotName) (s after : Session) : Prop where
  tally : after.tally = s.tally + ⟨0, s.sizeOfGiven given⟩
  gone : ∀ name ∈ given, after.value? name = none
  others : ∀ name, name ∉ given → after.held? name = s.held? name

/-- a container put back as it was -/
theorem held?_update_value? (s : Session) (on name : SlotName) : (s.update on (s.value? on)).held? name = s.held? name := by
  cases found : s.value? on with
  | none => cases on <;> rfl
  | some v =>
    have held := value?_eq_some_iff.1 found
    cases on with
    | none => rfl
    | some slot =>
      show (s.set slot (.value v)).held? name = s.held? name
      rw [held?_set]
      split_ifs with same
      · rw [same, held]
      · rfl

theorem tally_update (s : Session) (on : SlotName) (target : Option WireValue) : (s.update on target).tally = s.tally := by
  cases on with
  | none => rfl
  | some slot => cases target <;> rfl

theorem held?_carryOut_of_refused {s : Session} {on : SlotName} {done : Update} {given : Nat}
    (refused : done.Refused (s.value? on) given) (name : SlotName) : (s.carryOut on done).1.held? name = s.held? name := by
  have same : (s.carryOut on done).1.held? name = (s.update on done.target).held? name := by cases name <;> rfl
  rw [same, refused.1, held?_update_value?]

theorem tally_carryOut_of_refused {s : Session} {on : SlotName} {done : Update} {given : Nat}
    (refused : done.Refused (s.value? on) given) : (s.carryOut on done).1.tally = s.tally + ⟨0, given⟩ := by
  show (s.update on done.target).tally + ⟨0, done.released⟩ = _
  rw [tally_update, refused.2]

/-- one value was handed over -/
theorem released_one {s : Session} {on elem : SlotName} {done : Update}
    (refused : done.Refused ((s.take elem).2.value? on) (sizeOfOption (s.take elem).1)) :
    Released [elem] s ((s.take elem).2.carryOut on done).1 := by
  refine ⟨?_, ?_, ?_⟩
  · rw [tally_carryOut_of_refused refused, tally_take, take_fst]
    simp [sizeOfGiven]
  · intro name mem
    rw [List.mem_singleton.1 mem, value?_congr (held?_carryOut_of_refused refused elem), value?_take_self]
  · intro name other
    rw [held?_carryOut_of_refused refused, s.held?_take_of_ne fun same => other (List.mem_singleton.2 same)]

/-- a key and a value were handed over, perhaps from the same slot -/
theorem released_two {s : Session} {on key elem : SlotName} {done : Update}
    (refused : done.Refused (((s.take key).2.take elem).2.value? on)
      (sizeOfOption (s.take key).1 + sizeOfOption ((s.take key).2.take elem).1)) :
    Released [key, elem] s (((s.take key).2.take elem).2.carryOut on done).1 := by
  refine ⟨?_, ?_, ?_⟩
  · rw [tally_carryOut_of_refused refused, tally_take, tally_take, take_fst, take_fst, value?_take]
    by_cases same : elem = key
    · simp [sizeOfGiven, same, sizeOfOption]
    · have fresh : key ∉ [elem] := fun mem => same (List.mem_singleton.1 mem).symm
      simp [sizeOfGiven, same, List.dedup_cons_of_notMem fresh]
  · intro name mem
    rw [value?_congr (held?_carryOut_of_refused refused name), value?_take, value?_take]
    rcases List.mem_pair.1 mem with rfl | rfl
    · simp
    · simp
  · intro name other
    rw [List.mem_pair, not_or] at other
    rw [held?_carryOut_of_refused refused, held?_take_of_ne _ other.2, held?_take_of_ne _ other.1]

/-- a request that hands values over and fails has released them and done nothing else -/
theorem step_refused {s : Session} {request : Request} {given : List SlotName} {status : Status}
    (hands : HandsOver request given) (failed : status ≠ .ok) (reply : (s.step request).2 = .code status.code) :
    Released given s (s.step request).1 := by
  cases hands with
  | pushTuple on index elem =>
    rw [step_pushTuple] at reply ⊢
    obtain rfl := Status.code_injective (Reply.code.inj reply)
    exact released_one (pushTuple_refused failed)
  | pushList on elem =>
    rw [step_pushList] at reply ⊢
    obtain rfl := Status.code_injective (Reply.code.inj reply)
    exact released_one (pushList_refused failed)
  | insertDict on key elem =>
    rw [step_insertDict] at reply ⊢
    obtain rfl := Status.code_injective (Reply.code.inj reply)
    exact released_two (insertDict_refused failed)

/-! ## The end of a session -/

/-- the request that releases what a slot holds -/
def releaseOf (slot : String × Held) : Request :=
  match slot.2 with
  | .value _ => .free (some slot.1)
  | .drain _ _ => .closeDrain (some slot.1)

/-- the requests that release everything the slots hold -/
def releaseAll (s : Session) : List Request := s.slots.map releaseOf

/-- the request empties the slot -/
theorem slots_step_releaseOf {s : Session} {slot : String × Held} {rest : List (String × Held)}
    (names : s.NamesDiffer) (h : s.slots = slot :: rest) : (s.step (releaseOf slot)).1.slots = rest := by
  obtain ⟨name, held⟩ := slot
  rw [NamesDiffer, h] at names
  obtain ⟨fresh, -⟩ := List.nodup_cons.1 names
  have found : s.held? (some name) = some held := by
    show s.slots.lookup name = some held
    rw [h, List.lookup_cons_self]
  have emptied : (s.clear name).slots = rest := by
    show s.slots.filter (fun slot => slot.1 != name) = rest
    rw [h, List.filter_cons_of_neg (by simp), List.filter_eq_self]
    intro other mem
    have : other.1 ≠ name := fun same => fresh (List.mem_map.2 ⟨other, mem, same⟩)
    simpa using this
  cases held with
  | value v =>
    have taken : s.take (some name) = (some v, s.clear name) := by
      simp only [take, value?_eq_some_iff.2 found]
    simp only [releaseOf, step, taken]
    exact emptied
  | drain kind left =>
    simp only [releaseOf, step, closeDrain, found]
    exact emptied

theorem slots_run_releaseAll {s : Session} (h : Balanced 0 s) : (s.run s.releaseAll).slots = [] := by
  generalize slots : s.slots = left
  induction left generalizing s with
  | nil =>
    rw [releaseAll, slots]
    exact slots
  | cons slot rest ih =>
    have left := slots_step_releaseOf h.names slots
    have next := ih (balanced_step h (releaseOf slot)) left
    rw [releaseAll, left] at next
    rw [releaseAll, slots]
    exact next

theorem created_eq_released {s : Session} (h : Balanced 0 s) (empty : s.slots = []) : s.tally.created = s.tally.released := by
  have nothing : s.size = 0 := by rw [size, empty, List.foldr_nil]
  rw [h.counted, nothing, Nat.add_zero]

/-- **Nothing is lost and nothing is released twice.** After any requests, the objects created are those released and those
behind the slots; a request that fails to put values into a container releases these values and nothing else changes; and
when all slots are empty, as they are once each has been released, every object created has been released. -/
theorem objects_conserved (requests : List Request) :
    let s := start.run requests
    s.tally.created = s.tally.released + s.size ∧
    (∀ request given status, HandsOver request given → status ≠ Status.ok → (s.step request).2 = .code status.code →
      Released given s (s.step request).1) ∧
    (s.slots = [] → s.tally.created = s.tally.released) ∧
    (s.run s.releaseAll).slots = [] ∧
    (s.run s.releaseAll).tally.created = (s.run s.releaseAll).tally.released := by
  intro s
  have balanced : Balanced 0 s := balanced_run balanced_start requests
  have emptied := slots_run_releaseAll balanced
  refine ⟨balanced.counted, ?_, created_eq_released balanced, emptied, ?_⟩
  · exact fun request given status hands failed reply => step_refused hands failed reply
  · exact created_eq_released (balanced_run balanced s.releaseAll) emptied

/-- an element pushed to a list as if to a tuple: it is released, and the list stays -/
theorem objects_conserved_wrong_kind :
    let s := start.run [.newList (some "list"), .newBool 1 (some "elem")]
    let request := Request.pushTuple (some "list") 0 (some "elem")
    (s.step request).2 = .code Status.wrongKind.code ∧ Released [some "elem"] s (s.step request).1 := by
  intro s request
  have refused := (objects_conserved [.newList (some "list"), .newBool 1 (some "elem")]).2.1
  have reply : (s.step request).2 = .code Status.wrongKind.code := rfl
  exact ⟨reply, refused request [some "elem"] .wrongKind (.pushTuple _ _ _) (by decide) reply⟩

end Session

end NativeBridge.Foreign
