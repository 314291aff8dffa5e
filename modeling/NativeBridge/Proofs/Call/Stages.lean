/-
Which arguments a call runs the native function with. This is seen from outside, by what becomes of the call when another
native function is bound: with `NotRun` the native function has no part in the call, and a call runs it with certain
arguments if nothing else matters but what it does with these.

- `InStages`: a call made of a check, the preparation of the arguments, the run of the native function and what comes `after`.
- `inStages_call`, `inStages_callWithReferences`, `inStages_callRaw`: all three ways to call a function are made like this.
- `runsWith_iff`: such a call runs the native function exactly if the check and the preparation succeed, and then with the
  arguments that were prepared.
-/
import Mathlib.Tactic
import NativeBridge.Proofs.Call.Refusal

namespace NativeBridge

open Metered

namespace BoundFunction

/-! ## The native function in a call -/

section Runs

variable {α : Type}

/-- the native function has a part in the call, and this part is what it does with the arguments -/
structure RunsWith (call : BoundFunction → List HostValue → Metered α) (f : BoundFunction) (values : List HostValue)
    (arguments : List Argument) : Prop where
  takesPart : ¬ NotRun call f values
  only : ∀ native other : Native, native arguments = other arguments →
    call (f.withNative native) values = call (f.withNative other) values

/-- what the host holds after the native function has been run with these arguments -/
def received (f : BoundFunction) (arguments : List Argument) (outcome : Outcome) : RawCall :=
  ⟨outcome.returned.receive f.target.result, Kept.ofArguments arguments outcome.written⟩

/-- the call consists of a check, the preparation of the arguments, the run of the native function and what comes after it;
the native function is asked for nothing but its run -/
structure InStages (check : BoundFunction → List HostValue → Except Fault Unit)
    (after : BoundFunction → RawCall → Metered α) (call : BoundFunction → List HostValue → Metered α) : Prop where
  call_eq : ∀ f values, call f values =
    staged (check f values) (f.prepareFrom 0 f.interface.params values) fun arguments => f.invoke arguments >>= after f
  check_withNative : ∀ f native values, check (f.withNative native) values = check f values
  after_withNative : ∀ f native, after (f.withNative native) = after f

namespace InStages

variable {check : BoundFunction → List HostValue → Except Fault Unit} {after : BoundFunction → RawCall → Metered α}
  {call : BoundFunction → List HostValue → Metered α} {f : BoundFunction} {values : List HostValue}
  {arguments : List Argument}

/-- what a call comes to whose check and preparation succeed, whatever the native function is -/
theorem call_withNative (h : InStages check after call) (checked : check f values = .ok ())
    (prepared : (f.prepareFrom 0 f.interface.params values).result = .ok arguments) (native : Native) :
    call (f.withNative native) values =
      ⟨(after f (f.received arguments (native arguments))).result,
        (f.prepareFrom 0 f.interface.params values).tally +
          ((native arguments).tally + (after f (f.received arguments (native arguments))).tally)⟩ := by
  have same : (f.withNative native).prepareFrom 0 (f.withNative native).interface.params values =
      f.prepareFrom 0 f.interface.params values := f.prepareFrom_withNative native 0 f.interface.params values
  rw [h.call_eq, h.check_withNative, staged_of_checked checked, same, bind_of_ok prepared, h.after_withNative]
  rw [bind_of_ok (a := f.received arguments (native arguments)) rfl]
  rfl

/-- before the native function takes part in a call, the check and the preparation have succeeded -/
theorem ready_of_takesPart (h : InStages check after call) (takesPart : ¬ NotRun call f values) :
    check f values = .ok () ∧ ∃ arguments, (f.prepareFrom 0 f.interface.params values).result = .ok arguments := by
  cases checked : check f values with
  | error fault =>
    refine absurd (fun native => ?_) takesPart
    rw [h.call_eq, h.call_eq, h.check_withNative, staged_of_refused checked, staged_of_refused checked]
  | ok u =>
    refine ⟨rfl, ?_⟩
    cases prepared : (f.prepareFrom 0 f.interface.params values).result with
    | ok arguments => exact ⟨arguments, rfl⟩
    | error fault =>
      refine absurd (fun native => ?_) takesPart
      have same := f.prepareFrom_withNative native 0 f.interface.params values
      rw [h.call_eq, h.call_eq, h.check_withNative, staged_of_unprepared checked prepared,
        staged_of_unprepared checked (same ▸ prepared)]
      exact congrArg (Metered.mk _) (congrArg Metered.tally same)

/-- one more object that the native function creates shows in the tally of the call -/
theorem call_ne_of_created (h : InStages check after call) (checked : check f values = .ok ())
    (prepared : (f.prepareFrom 0 f.interface.params values).result = .ok arguments) {native other : Native}
    (more : other arguments = { native arguments with tally := (native arguments).tally + ⟨1, 0⟩ }) :
    call (f.withNative native) values ≠ call (f.withNative other) values := by
  intro same
  rw [h.call_withNative checked prepared, h.call_withNative checked prepared, more] at same
  have counted := congrArg (·.tally.created) same
  simp only [received, Tally.created_add] at counted
  omega

theorem runsWith_of_ready (h : InStages check after call) (checked : check f values = .ok ())
    (prepared : (f.prepareFrom 0 f.interface.params values).result = .ok arguments) : RunsWith call f values arguments := by
  constructor
  · intro notRun
    -- a native function that creates one object more
    let other : Native := fun arguments =>
      { f.target.native arguments with tally := (f.target.native arguments).tally + ⟨1, 0⟩ }
    have more : other arguments =
        { f.target.native arguments with tally := (f.target.native arguments).tally + ⟨1, 0⟩ } := rfl
    exact h.call_ne_of_created checked prepared more (notRun other).symm
  · intro native other same
    rw [h.call_withNative checked prepared, h.call_withNative checked prepared, same]

/-- a call runs the native function exactly if the check and the preparation succeed, and then with what was prepared -/
theorem runsWith_iff (h : InStages check after call) :
    RunsWith call f values arguments ↔
      check f values = .ok () ∧ (f.prepareFrom 0 f.interface.params values).result = .ok arguments := by
  refine ⟨?_, fun ready => h.runsWith_of_ready ready.1 ready.2⟩
  intro runs
  obtain ⟨checked, made, prepared⟩ := h.ready_of_takesPart runs.takesPart
  refine ⟨checked, ?_⟩
  by_contra different
  have ne : arguments ≠ made := fun same => different (same ▸ prepared)
  -- two native functions that differ in what they do with the prepared arguments, and in nothing else
  classical
  let other : Native := fun given =>
    if given = made then { f.target.native given with tally := (f.target.native given).tally + ⟨1, 0⟩ }
    else f.target.native given
  have elsewhere : f.target.native arguments = other arguments := (if_neg ne).symm
  have here : other made = { f.target.native made with tally := (f.target.native made).tally + ⟨1, 0⟩ } := if_pos rfl
  exact h.call_ne_of_created checked prepared here (runs.only _ _ elsewhere)

theorem existsUnique_runsWith (h : InStages check after call) (takesPart : ¬ NotRun call f values) :
    ∃! arguments, RunsWith call f values arguments := by
  obtain ⟨checked, arguments, prepared⟩ := h.ready_of_takesPart takesPart
  refine ⟨arguments, h.runsWith_of_ready checked prepared, ?_⟩
  intro other runs
  have same := (h.runsWith_iff.1 runs).2
  rw [prepared] at same
  exact (Except.ok.inj same).symm

end InStages

end Runs

/-! ## The three ways to call a function -/

/-- all that `call` does after the run of the native function -/
def afterCall (f : BoundFunction) (raw : RawCall) : Metered HostValue := do
  let lent := Kept.sizeOfList raw.arguments
  let result ← (f.decodeResult raw.result).releasingOnFault lent
  Metered.release lent
  pure result

/-- all that `callWithReferences` does after the run of the native function -/
def afterCallWithReferences (f : BoundFunction) (raw : RawCall) : Metered CallResult := do
  let result ← (f.decodeResult raw.result).releasingOnFault (Kept.sizeOfList raw.arguments)
  let results ← f.readBackFrom 0 f.interface.params raw.arguments
  pure ⟨result, results⟩

theorem readBackFrom_withNative (f : BoundFunction) (native : Native) (i : Nat) (params : List Signature)
    (kept : List Kept) : (f.withNative native).readBackFrom i params kept = f.readBackFrom i params kept := by
  induction params generalizing i kept with
  | nil => rfl
  | cons s rest ih =>
    cases kept with
    | nil => rfl
    | cons first others =>
      rw [readBackFrom, readBackFrom, ih]
      rfl

theorem inStages_call : InStages check afterCall call :=
  ⟨call_eq, check_withNative, fun _ _ => rfl⟩

theorem inStages_callWithReferences : InStages check afterCallWithReferences callWithReferences := by
  refine ⟨callWithReferences_eq, check_withNative, ?_⟩
  intro f native
  funext raw
  simp only [afterCallWithReferences, readBackFrom_withNative]
  rfl

theorem inStages_callRaw : InStages checkArguments (fun _ raw => pure raw) callRaw :=
  ⟨callRaw_eq, checkArguments_withNative, fun _ _ => rfl⟩

end BoundFunction

end NativeBridge
