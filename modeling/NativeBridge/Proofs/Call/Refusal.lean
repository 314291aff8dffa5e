/-
Calls that fail before the native function runs.

- `FailsEarly`: what is promised of a way to call a function that checks the types first. A call that is refused has created
  nothing; a call with an argument that cannot be prepared has released what it had created, and reports the first such
  argument; in both cases the native function has not run. Once the check has succeeded, the call is not refused any more.
- `call_fails_early`: all three ways to call a function keep that promise, whatever hints it was given.

Two descriptions of a known type have to agree for this: `firstHole?` and `isWord`, which the check asks, and the shapes that
the codecs go through afterwards. They agree on the arguments by `faultsIn_prepare` and `faultsIn_readBack`, and on the result by
`faultsIn_decodeResult`.
-/
import Mathlib.Tactic
import NativeBridge.Proofs.Call.Arguments
import NativeBridge.Proofs.Call.Hints

namespace NativeBridge

open Metered

/-! ## The result -/

namespace Signature

/-- what comes back of a type without holes can be null, but it lacks no hint -/
theorem faultsIn_decodeResult {s : Signature} (resolved : s.firstHole? = none) (raw : RawResult) :
    FaultsIn (¬ ·.Refuses) (s.decodeResult raw) := by
  unfold decodeResult
  split
  · exact .pure _
  · next w v _ =>
    refine .ofExcept fun fault h => ?_
    unfold IntWidth.ofSlot at h
    split at h <;> cases h
    exact id
  · exact .pure _
  · exact .pure _
  · exact .fail id
  · exact (faultsIn_decode resolved _).not_refuses
  · exact .fail id

end Signature

namespace BoundFunction

/-- the result is decoded by a known type, or it is a bare word and arrives as one -/
theorem faultsIn_decodeResult {f : BoundFunction} (consistent : f.Consistent) (checked : f.checkResult = .ok ())
    (returned : Returned) : FaultsIn (¬ ·.Refuses) (f.decodeResult (returned.receive f.target.result)) := by
  unfold checkResult at checked
  split at checked
  · cases checked
  · next known =>
    split_ifs at known with word
    · have shape := Signature.isWord_iff.1 word
      have received : ∃ w, returned.receive f.target.result = .pointer w := by
        rw [consistent.target_result, Slot.ofSignature, shape]
        unfold Returned.receive
        cases f.interface.result.access != .owned with
        | false => exact ⟨_, rfl⟩
        | true => exact ⟨_, rfl⟩
      obtain ⟨w, received⟩ := received
      rw [received]
      unfold decodeResult
      rw [shape]
      exact .pure _
    · unfold decodeResult
      split
      · exact .pure _
      · refine (Signature.faultsIn_decodeResult known _).mapFault fun fault h => ?_
        rwa [resultFault, Fault.refuses_forSymbol, Fault.refuses_within]

/-! ## The stages of a call -/

section Stages

variable {α : Type}

/-- a call in three stages: the check of the types, the preparation of the arguments, and all that the native function is
needed for -/
def staged (checked : Except Fault Unit) (prepared : Metered (List Argument)) (rest : List Argument → Metered α) :
    Metered α :=
  Metered.ofExcept checked >>= fun _ => prepared >>= rest

theorem staged_of_refused {checked : Except Fault Unit} {fault : Fault} (h : checked = .error fault)
    (prepared : Metered (List Argument)) (rest : List Argument → Metered α) :
    staged checked prepared rest = ⟨.error fault, 0⟩ := by
  subst h
  exact bind_of_fault rfl

theorem staged_of_checked {checked : Except Fault Unit} (h : checked = .ok ()) (prepared : Metered (List Argument))
    (rest : List Argument → Metered α) : staged checked prepared rest = prepared >>= rest := by
  subst h
  rw [staged, bind_of_ok (a := ()) rfl]
  show Metered.mk _ (0 + _) = _
  rw [Tally.zero_add]

theorem staged_of_unprepared {checked : Except Fault Unit} {prepared : Metered (List Argument)} {fault : Fault}
    (h : checked = .ok ()) (failed : prepared.result = .error fault) (rest : List Argument → Metered α) :
    staged checked prepared rest = ⟨.error fault, prepared.tally⟩ := by
  rw [staged_of_checked h, bind_of_fault failed]

end Stages

/-- the native function is run with these arguments -/
def invoke (f : BoundFunction) (arguments : List Argument) : Metered RawCall :=
  let outcome := f.target.native arguments
  ⟨.ok ⟨outcome.returned.receive f.target.result, Kept.ofArguments arguments outcome.written⟩, outcome.tally⟩

theorem invoke_of_ok {f : BoundFunction} {arguments : List Argument} {raw : RawCall}
    (h : (f.invoke arguments).result = .ok raw) :
    raw = ⟨(f.target.native arguments).returned.receive f.target.result,
      Kept.ofArguments arguments (f.target.native arguments).written⟩ :=
  (Except.ok.inj h).symm

theorem faultsIn_invoke (f : BoundFunction) (arguments : List Argument) (p : Fault → Prop) :
    FaultsIn p (f.invoke arguments) := by
  intro fault h
  cases h

theorem run_eq (f : BoundFunction) (values : List HostValue) :
    f.run values = f.prepareFrom 0 f.interface.params values >>= f.invoke := rfl

/-- all that `call` does with the arguments once they are prepared -/
def callPrepared (f : BoundFunction) (arguments : List Argument) : Metered HostValue := do
  let raw ← f.invoke arguments
  let lent := Kept.sizeOfList raw.arguments
  let result ← (f.decodeResult raw.result).releasingOnFault lent
  Metered.release lent
  pure result

/-- all that `callWithReferences` does with the arguments once they are prepared -/
def callPreparedWithReferences (f : BoundFunction) (arguments : List Argument) : Metered CallResult := do
  let raw ← f.invoke arguments
  let result ← (f.decodeResult raw.result).releasingOnFault (Kept.sizeOfList raw.arguments)
  let results ← f.readBackFrom 0 f.interface.params raw.arguments
  pure ⟨result, results⟩

theorem call_eq (f : BoundFunction) (values : List HostValue) :
    f.call values = staged (f.check values) (f.prepareFrom 0 f.interface.params values) f.callPrepared := by
  unfold call staged callPrepared
  simp only [run_eq, bind_bind]

theorem callWithReferences_eq (f : BoundFunction) (values : List HostValue) :
    f.callWithReferences values =
      staged (f.check values) (f.prepareFrom 0 f.interface.params values) f.callPreparedWithReferences := by
  unfold callWithReferences staged callPreparedWithReferences
  simp only [run_eq, bind_bind]

theorem callRaw_eq (f : BoundFunction) (values : List HostValue) :
    f.callRaw values = staged (f.checkArguments values) (f.prepareFrom 0 f.interface.params values) f.invoke := rfl

/-! ## Faults after the check -/

theorem faultsIn_callPrepared {f : BoundFunction} (consistent : f.Consistent) (checked : f.checkResult = .ok ())
    (arguments : List Argument) : FaultsIn (¬ ·.Refuses) (f.callPrepared arguments) := by
  refine (faultsIn_invoke f arguments _).bind fun raw invoked => ?_
  obtain rfl := invoke_of_ok invoked
  refine (faultsIn_decodeResult consistent checked _).releasingOnFault.bind fun result _ => ?_
  exact (FaultsIn.release _).bind fun _ _ => .pure _

theorem faultsIn_callPreparedWithReferences {f : BoundFunction} {values : List HostValue} {arguments : List Argument}
    (consistent : f.Consistent) (checked : f.checkResult = .ok ())
    (prepared : (f.prepareFrom 0 f.interface.params values).result = .ok arguments) :
    FaultsIn (¬ ·.Refuses) (f.callPreparedWithReferences arguments) := by
  refine (faultsIn_invoke f arguments _).bind fun raw invoked => ?_
  obtain rfl := invoke_of_ok invoked
  refine (faultsIn_decodeResult consistent checked _).releasingOnFault.bind fun result _ => ?_
  exact (f.faultsIn_readBackFrom prepared _).bind fun results _ => .pure _

theorem check_ok_iff {f : BoundFunction} {values : List HostValue} :
    f.check values = .ok () ↔ f.checkArguments values = .ok () ∧ f.checkResult = .ok () := by
  unfold check
  cases f.checkArguments values with
  | ok u => simp [Bind.bind, Except.bind]
  | error fault => simp [Bind.bind, Except.bind]

theorem passes_of_checkArguments {f : BoundFunction} {values : List HostValue} (checked : f.checkArguments values = .ok ())
    {k : Nat} {s : Signature} {value : HostValue} (hs : f.interface.params[k]? = some s) (hv : values[k]? = some value) :
    s.Passes value := by
  unfold checkArguments at checked
  split at checked
  · exact f.passes_of_checkArgumentsFrom checked hs hv
  · cases checked

/-- once the arguments have been checked, the first that cannot be prepared is reported with its place and not changed
otherwise -/
theorem prepareFrom_of_checked {f : BoundFunction} {values : List HostValue} {i : Nat} {fault : Fault}
    (checked : f.checkArguments values = .ok ())
    (first : ∀ j < i, ∀ earlier, ¬ Unprepared f.interface.params values j earlier)
    (fails : Unprepared f.interface.params values i fault) :
    (f.prepareFrom 0 f.interface.params values).result = .error (fault.within (.argument i)) := by
  have reported := f.prepareFrom_of_unprepared (i := 0) first fails
  obtain ⟨s, value, hs, hv, failed⟩ := fails
  have ofValue : fault.OfValue := Signature.faultsIn_prepare (passes_of_checkArguments checked hs hv) fault failed
  rwa [Nat.zero_add, f.argumentFault_of_ofValue ofValue] at reported

/-! ## The promise -/

/-- the same function over other native code -/
def withNative (f : BoundFunction) (native : Native) : BoundFunction :=
  { f with target := { f.target with native } }

theorem checkArgumentsFrom_withNative (f : BoundFunction) (native : Native) (i : Nat) (params : List Signature)
    (values : List HostValue) :
    (f.withNative native).checkArgumentsFrom i params values = f.checkArgumentsFrom i params values := by
  induction params generalizing i values with
  | nil => rfl
  | cons s rest ih =>
    cases values with
    | nil => rfl
    | cons value values =>
      rw [checkArgumentsFrom, checkArgumentsFrom, ih]
      rfl

theorem checkArguments_withNative (f : BoundFunction) (native : Native) (values : List HostValue) :
    (f.withNative native).checkArguments values = f.checkArguments values := by
  unfold checkArguments
  rw [checkArgumentsFrom_withNative]
  rfl

theorem check_withNative (f : BoundFunction) (native : Native) (values : List HostValue) :
    (f.withNative native).check values = f.check values := by
  unfold check
  rw [checkArguments_withNative]
  rfl

theorem prepareFrom_withNative (f : BoundFunction) (native : Native) (i : Nat) (params : List Signature)
    (values : List HostValue) : (f.withNative native).prepareFrom i params values = f.prepareFrom i params values := by
  induction params generalizing i values with
  | nil => rfl
  | cons s rest ih =>
    cases values with
    | nil => rfl
    | cons value values =>
      rw [prepareFrom, prepareFrom, ih]
      rfl

section Promise

variable {α : Type}

/-- the native function has no part in the call: with any other one, the call comes to the same -/
def NotRun (call : BoundFunction → List HostValue → Metered α) (f : BoundFunction) (values : List HostValue) : Prop :=
  ∀ native, call (f.withNative native) values = call f values

/-- what is promised of a `call` whose types are checked by `check` -/
structure FailsEarly (check : BoundFunction → List HostValue → Except Fault Unit)
    (call : BoundFunction → List HostValue → Metered α) (f : BoundFunction) (values : List HostValue) : Prop where
  /-- a refused call has done nothing -/
  refused : ∀ fault, (call f values).result = .error fault → fault.Refuses →
    (call f values).tally = 0 ∧ NotRun call f values
  /-- the first argument that cannot be prepared is reported, and nothing is left of those before it -/
  unprepared : check f values = .ok () → ∀ k inner, Unprepared f.interface.params values k inner →
    ∃ i ≤ k, ∃ fault, Unprepared f.interface.params values i fault ∧
      (∀ j < i, ∀ earlier, ¬ Unprepared f.interface.params values j earlier) ∧
      (call f values).result = .error (fault.within (.argument i)) ∧
      (call f values).tally.created = (call f values).tally.released ∧ NotRun call f values
  /-- a call that has been checked is not refused, neither before the native function runs nor after it -/
  checked : check f values = .ok () → FaultsIn (¬ ·.Refuses) (call f values)
  /-- a call in which the native function has a part is not refused -/
  ran : ¬ NotRun call f values → FaultsIn (¬ ·.Refuses) (call f values)

/-- a call in three stages keeps the promise if its check includes that of the arguments, and if its last stage does not refuse
what has been checked -/
theorem failsEarly_of_staged {check : BoundFunction → List HostValue → Except Fault Unit}
    {call : BoundFunction → List HostValue → Metered α} {rest : BoundFunction → List Argument → Metered α}
    {f : BoundFunction} {values : List HostValue}
    (stages : ∀ g : BoundFunction,
      call g values = staged (check g values) (g.prepareFrom 0 g.interface.params values) (rest g))
    (local_check : ∀ native, check (f.withNative native) values = check f values)
    (arguments_checked : check f values = .ok () → f.checkArguments values = .ok ())
    (late : check f values = .ok () → ∀ arguments, (f.prepareFrom 0 f.interface.params values).result = .ok arguments →
      FaultsIn (¬ ·.Refuses) (rest f arguments)) : FailsEarly check call f values := by
  have checked : check f values = .ok () → FaultsIn (¬ ·.Refuses) (call f values) := by
    intro ok
    have prepares := f.faultsIn_prepareFrom (i := 0) (passes_of_checkArguments (arguments_checked ok))
    rw [stages, staged_of_checked ok]
    exact prepares.not_refuses.bind fun arguments prepared => late ok arguments prepared
  have refused : ∀ fault, (call f values).result = .error fault → fault.Refuses →
      (call f values).tally = 0 ∧ NotRun call f values := by
    intro fault failed refuses
    -- only the check refuses, and the check does not ask the native function
    cases outcome : check f values with
    | ok u => exact absurd refuses (checked outcome fault failed)
    | error other =>
      constructor
      · rw [stages, staged_of_refused outcome]
      · intro native
        rw [stages, stages, staged_of_refused outcome, staged_of_refused ((local_check native).trans outcome)]
  refine ⟨refused, ?_, checked, ?_⟩
  · intro ok k inner fails
    obtain ⟨i, le, fault, fails, first⟩ := exists_first_unprepared fails
    have reported := prepareFrom_of_checked (arguments_checked ok) first fails
    have settled := (f.accounts_prepareFrom 0 f.interface.params values).fault reported
    refine ⟨i, le, fault, fails, first, ?_, ?_, ?_⟩
    · rw [stages, staged_of_unprepared ok reported]
    · rw [stages, staged_of_unprepared ok reported]
      rwa [Nat.zero_add] at settled
    · intro native
      have same := f.prepareFrom_withNative native 0 f.interface.params values
      rw [stages, stages, staged_of_unprepared ok reported,
        staged_of_unprepared ((local_check native).trans ok) (same ▸ reported)]
      exact congrArg (Metered.mk _) (congrArg Metered.tally same)
  · intro part fault failed refuses
    exact part (refused fault failed refuses).2

end Promise

/-- **A call that fails before the native function runs has no effect.** Whatever hints a function was given, a call that is
refused has created nothing; a call with an argument that cannot be prepared reports the first such argument and has
released whatever it created; the native function has not run in either case. And a call whose types have been checked is
not refused later on. -/
theorem call_fails_early (f : BoundFunction) (reachable : f.Reachable) (values : List HostValue) :
    FailsEarly check call f values ∧ FailsEarly check callWithReferences f values ∧
      FailsEarly checkArguments callRaw f values := by
  have consistent := reachable.consistent
  refine ⟨?_, ?_, ?_⟩
  · refine failsEarly_of_staged (fun g => g.call_eq values) (fun native => f.check_withNative native values)
      (fun ok => (check_ok_iff.1 ok).1) ?_
    exact fun ok arguments _ => faultsIn_callPrepared consistent (check_ok_iff.1 ok).2 arguments
  · refine failsEarly_of_staged (fun g => g.callWithReferences_eq values) (fun native => f.check_withNative native values)
      (fun ok => (check_ok_iff.1 ok).1) ?_
    exact fun ok arguments prepared => faultsIn_callPreparedWithReferences consistent (check_ok_iff.1 ok).2 prepared
  · refine failsEarly_of_staged (fun g => g.callRaw_eq values) (fun native => f.checkArguments_withNative native values)
      (fun ok => ok) ?_
    exact fun _ arguments _ => faultsIn_invoke f arguments _

/-- a list that a hint has made known is encoded before the second argument turns out too large: its two objects are released,
and the native function has no part in the call -/
theorem call_fails_early_second_argument :
    let native : Native := fun _ => ⟨.word 0, [], 0⟩
    let declared := BoundFunction.declared "join" "join_impl" "lib"
      (.of [⟨.borrowed, .hole (some .list)⟩, .owned (.primitive (.int .i8))] (.owned .void)) native
    let values : List HostValue := [.list [.bool true], .int ⟨300, by decide⟩]
    ∃ f, declared.hintParam 0 (.owned (.list (.owned (.primitive .bool)))) = .ok f ∧
      (f.call values).result = .error (.intOutOfRange .i8 300 [.argument 1]) ∧ (f.call values).tally = ⟨2, 2⟩ ∧
      NotRun call f values := by
  intro native declared values
  refine ⟨_, rfl, rfl, rfl, ?_⟩
  have reachable := Reachable.hinted (f := declared) (.declared _ _ _ _ _ _)
    (.param 0 (.owned (.list (.owned (.primitive .bool)))) rfl)
  have unprepared := (call_fails_early _ reachable values).1.unprepared rfl 1 _ ⟨_, _, rfl, rfl, rfl⟩
  obtain ⟨i, _, fault, _, _, _, _, notRun⟩ := unprepared
  exact notRun

end BoundFunction

end NativeBridge
