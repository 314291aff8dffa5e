/-
The rules of ownership for native functions. While a native function runs, it owns some wire values and has others lent to
it. It may create values, take them apart, release them and change them in place, those that were lent included; what it
takes out of a value is its own from then on, and what it puts into one is not any more. In the end it still owns what it
returns, and nothing else.

- `Custody.Step`, `Custody.Run`: what it may do, one step at a time, and what is counted on the way.
- `Custody.Run.conserves`: no object is lost by the rules, and none is released twice.
- `BoundFunction.KeepsRules`: the native function goes by the rules whenever the host runs it, from the arguments it is given to
  what the host gets back.
-/
import Mathlib.Tactic
import NativeBridge.Call.Run
import NativeBridge.Proofs.Objects

namespace NativeBridge

open WireValue (sizeOfItems sizeOfItems_append sizeOfItems_filterMap sizeOfItems_perm sizeOfOption)

/-! ## Changes in place -/

/-- a value is changed where it is, at any depth: some values are put into it and some are taken out, and other contents
change freely -/
inductive WireValue.Edited (put taken : List WireValue) : WireValue → WireValue → Prop
  | here {before after : WireValue} (parts : (before.parts ++ put).Perm (after.parts ++ taken)) : Edited put taken before after
  | inside {before after part changed : WireValue} {others : List WireValue} (old : before.parts.Perm (part :: others))
      (new : after.parts.Perm (changed :: others)) (edited : Edited put taken part changed) : Edited put taken before after

theorem WireValue.Edited.conserves {put taken : List WireValue} {before after : WireValue}
    (edited : Edited put taken before after) : before.size + sizeOfItems put = after.size + sizeOfItems taken := by
  induction edited with
  | @here before after parts =>
    have counted := sizeOfItems_perm parts
    rw [sizeOfItems_append, sizeOfItems_append] at counted
    rw [before.size_eq, after.size_eq]
    omega
  | @inside before after part changed others old new _ ih =>
    have first := sizeOfItems_perm old
    have second := sizeOfItems_perm new
    rw [sizeOfItems] at first second
    rw [before.size_eq, after.size_eq]
    omega

/-! ## Runs -/

/-- the wire values a native function has: its own, and those lent to it, in the order of the arguments -/
structure Custody where
  owned : List WireValue
  lent : List WireValue

namespace Custody

/-- the objects of all these values -/
def size (c : Custody) : Nat := sizeOfItems c.owned + sizeOfItems c.lent

/-- what a native function may do with the values it has -/
inductive Step : Custody → Tally → Custody → Prop
  /-- a new value is made, and the values it contains are no longer held by themselves -/
  | create (value : WireValue) (others lent : List WireValue) :
      Step ⟨value.parts ++ others, lent⟩ ⟨1, 0⟩ ⟨value :: others, lent⟩
  /-- the value itself is released, but not what it contains -/
  | takeApart (value : WireValue) (others lent : List WireValue) :
      Step ⟨value :: others, lent⟩ ⟨0, 1⟩ ⟨value.parts ++ others, lent⟩
  /-- the value is released with everything in it -/
  | release (value : WireValue) (others lent : List WireValue) :
      Step ⟨value :: others, lent⟩ ⟨0, value.size⟩ ⟨others, lent⟩
  | editOwned {put taken : List WireValue} {before after : WireValue} (edited : before.Edited put taken after)
      (others lent : List WireValue) : Step ⟨before :: (put ++ others), lent⟩ 0 ⟨after :: (taken ++ others), lent⟩
  /-- a lent value stays where it is in the list, as it stays where it is in memory -/
  | editLent {put taken : List WireValue} {before after : WireValue} (edited : before.Edited put taken after)
      (others left right : List WireValue) :
      Step ⟨put ++ others, left ++ before :: right⟩ 0 ⟨taken ++ others, left ++ after :: right⟩
  /-- the values of its own are in no order -/
  | reorder {owned owned' : List WireValue} (same : owned.Perm owned') (lent : List WireValue) :
      Step ⟨owned, lent⟩ 0 ⟨owned', lent⟩

/-- any number of such steps -/
inductive Run : Custody → Tally → Custody → Prop
  | done (c : Custody) : Run c 0 c
  | step {a b c : Custody} {t u : Tally} (first : Step a t b) (rest : Run b u c) : Run a (t + u) c

theorem Step.conserves {a b : Custody} {t : Tally} (step : Step a t b) : a.size + t.created = t.released + b.size := by
  cases step with
  | create value others lent =>
    simp only [size, sizeOfItems_append, sizeOfItems, value.size_eq]
    omega
  | takeApart value others lent =>
    simp only [size, sizeOfItems_append, sizeOfItems, value.size_eq]
    omega
  | release value others lent =>
    simp only [size, sizeOfItems]
    omega
  | editOwned edited others lent =>
    have counted := edited.conserves
    simp only [size, sizeOfItems_append, sizeOfItems, Tally.created_zero, Tally.released_zero]
    omega
  | editLent edited others left right =>
    have counted := edited.conserves
    simp only [size, sizeOfItems_append, sizeOfItems, Tally.created_zero, Tally.released_zero]
    omega
  | reorder same lent =>
    have counted := sizeOfItems_perm same
    simp only [size, Tally.created_zero, Tally.released_zero]
    omega

/-- **The rules conserve objects.** What a native function had or created, it has released or still has. -/
theorem Run.conserves {a b : Custody} {t : Tally} (run : Run a t b) : a.size + t.created = t.released + b.size := by
  induction run with
  | done c => exact Nat.add_comm _ _
  | step first _ ih =>
    have counted := first.conserves
    simp only [Tally.created_add, Tally.released_add]
    omega

end Custody

/-! ## What goes in and what comes out -/

/-- the wire value that is moved to the native function -/
def Argument.moved? : Argument → Option WireValue
  | .moved value => some value
  | .number _ | .word _ | .cell _ | .borrowed _ => none

/-- the wire value that is lent to the native function -/
def Argument.lent? : Argument → Option WireValue
  | .borrowed value => some value
  | .number _ | .word _ | .cell _ | .moved _ => none

/-- the wire value that the host still has after the call -/
def Kept.lent? : Kept → Option WireValue
  | .borrowed value => some value
  | .byValue | .moved | .cell _ => none

/-- what a native function has when it starts -/
def Custody.ofArguments (arguments : List Argument) : Custody :=
  ⟨arguments.filterMap Argument.moved?, arguments.filterMap Argument.lent?⟩

/-- what a native function gives away by returning: the wire value, if the result is one and not null -/
def Slot.handedOver (slot : Slot) (returned : Returned) : List WireValue :=
  match slot.type with
  | .wire _ => returned.adopted.toList
  | _ => []

/-- the native function goes by the rules whenever the host runs it with arguments it has checked and prepared: from the values
moved and lent to it, it comes to the value it returns and the lent values as they are written down then -/
def BoundFunction.KeepsRules (f : BoundFunction) : Prop :=
  ∀ values arguments, f.checkArguments values = .ok () →
    (f.prepareFrom 0 f.interface.params values).result = .ok arguments →
      let outcome := f.target.native arguments
      Custody.Run (.ofArguments arguments) outcome.tally
        ⟨f.target.result.handedOver outcome.returned, (Kept.ofArguments arguments outcome.written).filterMap Kept.lent?⟩

/-! ## Objects -/

theorem Argument.size_eq (argument : Argument) :
    argument.size = sizeOfOption argument.moved? + sizeOfOption argument.lent? := by
  cases argument with
  | borrowed value => exact (Nat.zero_add _).symm
  | _ => rfl

theorem Kept.size_eq (kept : Kept) : kept.size = sizeOfOption kept.lent? := by
  cases kept with
  | _ => rfl

theorem Custody.size_ofArguments (arguments : List Argument) :
    (ofArguments arguments).size = (arguments.map Argument.size).sum := by
  calc (ofArguments arguments).size
      = (arguments.map fun argument => sizeOfOption argument.moved?).sum +
          (arguments.map fun argument => sizeOfOption argument.lent?).sum := by
        rw [size, ofArguments, sizeOfItems_filterMap, sizeOfItems_filterMap]
    _ = (arguments.map fun argument => sizeOfOption argument.moved? + sizeOfOption argument.lent?).sum :=
        List.sum_map_add.symm
    _ = (arguments.map Argument.size).sum := by simp only [← Argument.size_eq]

theorem Kept.sizeOfList_eq (kept : List Kept) : sizeOfList kept = sizeOfItems (kept.filterMap lent?) := by
  rw [sizeOfItems_filterMap]
  induction kept with
  | nil => rfl
  | cons first rest ih => rw [sizeOfList, List.map_cons, List.sum_cons, ih, first.size_eq]

theorem Kept.length_ofArguments (arguments : List Argument) (written : List Written) :
    (ofArguments arguments written).length = arguments.length := by
  induction arguments generalizing written with
  | nil => rfl
  | cons argument rest ih =>
    cases written with
    | nil => rw [ofArguments, List.length_cons, List.length_cons, ih]
    | cons w ws => rw [ofArguments, List.length_cons, List.length_cons, ih]

/-- the host takes over what is handed over, unless the slot is indirect -/
theorem Slot.size_receive {slot : Slot} (direct : slot.indirect = false) (returned : Returned) :
    (returned.receive slot).size = sizeOfItems (slot.handedOver returned) := by
  unfold Returned.receive handedOver
  rw [direct]
  cases slot.type with
  | wire kind =>
    cases returned with
    | value address v => exact (Nat.add_zero _).symm
    | _ => rfl
  | _ => rfl

end NativeBridge
