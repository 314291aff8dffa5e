/-
Arguments of a call: what can go wrong while they are prepared and read back, and what becomes of their objects.

- `prepareFrom_of_unprepared`: the arguments are prepared in order, and the first that cannot be prepared is reported.
- `accounts_prepareFrom`: when one cannot be prepared, the objects of those before it have been released.
- `faultsIn_prepareFrom`, `faultsIn_readBackFrom`: once the types of the arguments have been checked, no hint is missing when
  they are prepared, nor when they are read back.
-/
import Mathlib.Tactic
import NativeBridge.Call.Run
import NativeBridge.Proofs.Codec.Faults
import NativeBridge.Proofs.Codec.Ownership

namespace NativeBridge

open Metered

/-! ## Faults that refuse a call -/

/-- the call is refused: there are too few or too many arguments, or a type is not known -/
def Fault.Refuses : Fault → Prop
  | .arityMismatch _ _ _ | .missingHint _ _ => True
  | _ => False

theorem Fault.OfValue.not_refuses {fault : Fault} (h : fault.OfValue) : ¬ fault.Refuses := by
  cases fault with
  | arityMismatch symbol expected given => exact absurd h id
  | missingHint symbol p => exact absurd h id
  | _ => exact id

theorem Fault.refuses_within {fault : Fault} {step : Step} : (fault.within step).Refuses ↔ fault.Refuses := by
  cases fault with
  | _ => exact Iff.rfl

theorem Fault.refuses_forSymbol {fault : Fault} {name : String} : (fault.forSymbol name).Refuses ↔ fault.Refuses := by
  cases fault with
  | _ => exact Iff.rfl

theorem Metered.FaultsIn.not_refuses {α : Type} {x : Metered α} (h : FaultsIn Fault.OfValue x) :
    FaultsIn (¬ ·.Refuses) x :=
  fun fault failed => (h fault failed).not_refuses

/-! ## One argument -/

theorem Number.faultOfValue_of_ofValue {s : Signature} {value : HostValue} {fault : Fault}
    (h : Number.ofValue s value = .error fault) : fault.OfValue := by
  unfold Number.ofValue at h
  split at h
  · unfold Number.ofInt at h
    split at h <;> cases h
    trivial
  · cases h
  · cases h
  · cases h
  · cases h
  · cases h
    trivial

theorem Number.faultOfValue_of_read {n : Number} {fault : Fault} (h : n.read = .error fault) : fault.OfValue := by
  unfold Number.read at h
  split at h
  · split at h <;> cases h
    trivial
  · cases h
  · cases h

namespace Signature

theorem isWord_iff {s : Signature} : s.isWord = true ↔ s.shape = .hole none := by
  unfold isWord
  split
  · next h => simp [h]
  · next h => simpa using h

theorem firstHole?_of_isWord {s : Signature} (word : s.isWord = true) : s.firstHole? = some [] := by
  obtain ⟨access, shape⟩ := s
  obtain rfl : shape = .hole none := isWord_iff.1 word
  exact firstHole?_hole access none

/-- the type tells how to pass the value: it has no hole, or it is a bare word and the value is not a container -/
def Passes (s : Signature) (value : HostValue) : Prop :=
  s.isWord = true ∧ value.isContainer = false ∨ s.firstHole? = none

theorem faultsIn_prepare {s : Signature} {value : HostValue} (passes : s.Passes value) :
    FaultsIn Fault.OfValue (s.prepare value) := by
  unfold prepare
  split
  · next word =>
    rcases passes with ⟨-, plain⟩ | resolved
    · split
      · exact .pure _
      · rw [plain]
        exact .fail trivial
    · rw [firstHole?_of_isWord word] at resolved
      cases resolved
  · next word =>
    split
    · have stored : FaultsIn Fault.OfValue (Metered.ofExcept (Number.ofValue s value)) :=
        .ofExcept fun fault h => Number.faultOfValue_of_ofValue h
      exact stored.bind fun n _ => .pure _
    · have resolved : s.firstHole? = none := passes.resolve_left fun h => word h.1
      exact (faultsIn_encode resolved value).bind fun wire _ => .pure _

/-- exactly the objects of a prepared argument are left, and none if it cannot be prepared -/
theorem accounts_prepare (s : Signature) (value : HostValue) : Accounts 0 Argument.size (s.prepare value) := by
  unfold prepare
  split
  · split
    · exact .pure rfl
    · split
      · exact .fail
      · exact .fail
  · split
    · have stored : Accounts 0 (fun _ => 0) (Metered.ofExcept (Number.ofValue s value)) := .ofExcept fun _ _ => rfl
      refine stored.bind fun n _ => .pure ?_
      split
      · rfl
      · rfl
    · refine (accounts_encode s value).bind fun wire _ => .pure ?_
      split
      · rfl
      · rfl

/-- what has been prepared is read back by a type without holes, whatever was written to it -/
theorem faultsIn_readBack {s : Signature} {value : HostValue} {argument : Argument}
    (prepared : (s.prepare value).result = .ok argument) (w : Written) :
    FaultsIn Fault.OfValue ((Kept.ofArgument argument w).readBack s) := by
  have cell : ∀ n : Number, FaultsIn Fault.OfValue ((Kept.cell n).readBack s) := fun n =>
    FaultsIn.bind (.ofExcept fun fault h => Number.faultOfValue_of_read h) fun _ _ => .pure _
  unfold prepare at prepared
  split at prepared
  · split at prepared
    · cases prepared
      exact .pure _
    · split at prepared <;> cases prepared
  · split at prepared
    · obtain ⟨n, -, stored⟩ := bind_ok_iff.1 prepared
      cases stored
      split
      · exact .pure _
      · cases w with
        | number pattern => exact cell _
        | _ => exact cell n
    · obtain ⟨wire, encoded, made⟩ := bind_ok_iff.1 prepared
      have resolved : s.firstHole? = none := (encode_ok_iff.1 encoded).1
      have borrowed : ∀ v, FaultsIn Fault.OfValue ((Kept.borrowed v).readBack s) := fun v =>
        (faultsIn_decode resolved v).bind fun _ _ => .pure _
      cases made
      split
      · cases w with
        | value v => exact borrowed v
        | _ => exact borrowed wire
      · exact .pure _

end Signature

namespace BoundFunction

open Signature (Passes)

variable (f : BoundFunction)

/-! ## All arguments -/

/-- argument `i` cannot be prepared, and this fault says why -/
def Unprepared (params : List Signature) (values : List HostValue) (i : Nat) (fault : Fault) : Prop :=
  ∃ s value, params[i]? = some s ∧ values[i]? = some value ∧ (s.prepare value).result = .error fault

theorem argumentFault_of_ofValue {fault : Fault} (h : fault.OfValue) (i : Nat) :
    f.argumentFault i fault = fault.within (.argument i) :=
  (h.within (.argument i)).forSymbol f.name

theorem passes_of_checkArgumentsFrom {i : Nat} {params : List Signature} {values : List HostValue}
    (checked : f.checkArgumentsFrom i params values = .ok ()) :
    ∀ {k : Nat} {s : Signature} {value : HostValue}, params[k]? = some s → values[k]? = some value → s.Passes value := by
  induction params generalizing i values with
  | nil =>
    intro k s value hs
    cases hs
  | cons s rest ih =>
    cases values with
    | nil =>
      intro k t other hs hv
      cases hv
    | cons value values =>
      rw [checkArgumentsFrom] at checked
      split at checked
      · cases checked
      · next known =>
        intro k t other hs hv
        cases k with
        | zero =>
          cases hs
          cases hv
          split_ifs at known with plain
          · exact .inl (by simpa using plain)
          · exact .inr known
        | succ k => exact ih checked hs hv

theorem faultsIn_prepareFrom {i : Nat} {params : List Signature} {values : List HostValue}
    (passes : ∀ {k : Nat} {s : Signature} {value : HostValue},
      params[k]? = some s → values[k]? = some value → s.Passes value) :
    FaultsIn Fault.OfValue (f.prepareFrom i params values) := by
  induction params generalizing i values with
  | nil =>
    rw [prepareFrom]
    · exact .pure _
    · nofun
  | cons s rest ih =>
    cases values with
    | nil =>
      rw [prepareFrom]
      · exact .pure _
      · nofun
    | cons value values =>
      have first : s.Passes value := passes (k := 0) rfl rfl
      have others : FaultsIn Fault.OfValue (f.prepareFrom (i + 1) rest values) :=
        ih fun {k _ _} hs hv => passes (k := k + 1) hs hv
      rw [prepareFrom]
      refine FaultsIn.bind ?_ fun a _ => others.releasingOnFault.bind fun as _ => .pure _
      refine (Signature.faultsIn_prepare first).mapFault fun fault h => ?_
      rw [f.argumentFault_of_ofValue h]
      exact h.within _

theorem accounts_prepareFrom (i : Nat) (params : List Signature) (values : List HostValue) :
    Accounts 0 (fun arguments => (arguments.map Argument.size).sum) (f.prepareFrom i params values) := by
  induction params generalizing i values with
  | nil =>
    rw [prepareFrom]
    · exact .pure rfl
    · nofun
  | cons s rest ih =>
    cases values with
    | nil =>
      rw [prepareFrom]
      · exact .pure rfl
      · nofun
    | cons value values =>
      rw [prepareFrom]
      refine (s.accounts_prepare value).mapFault.bind fun first _ => ?_
      refine ((ih (i + 1) values).carrying first.size).bind fun others _ => .pure ?_
      rw [List.map_cons, List.sum_cons, Nat.add_comm]

/-- the arguments are prepared in order, and the first that cannot be prepared is reported -/
theorem prepareFrom_of_unprepared {i k : Nat} {params : List Signature} {values : List HostValue} {fault : Fault}
    (first : ∀ j < k, ∀ other, ¬ Unprepared params values j other) (failed : Unprepared params values k fault) :
    (f.prepareFrom i params values).result = .error (f.argumentFault (i + k) fault) := by
  induction k generalizing i params values with
  | zero =>
    obtain ⟨s, value, hs, hv, failed⟩ := failed
    obtain ⟨rest, rfl⟩ : ∃ rest, params = s :: rest := by
      cases params with
      | nil => cases hs
      | cons t rest => cases hs; exact ⟨rest, rfl⟩
    obtain ⟨rest', rfl⟩ : ∃ rest', values = value :: rest' := by
      cases values with
      | nil => cases hv
      | cons v rest' => cases hv; exact ⟨rest', rfl⟩
    rw [prepareFrom]
    exact bind_fault_iff.2 (.inl (mapFault_fault_iff.2 ⟨fault, failed, rfl⟩))
  | succ k ih =>
    obtain ⟨s, value, hs, hv, failed⟩ := failed
    cases params with
    | nil => cases hs
    | cons t rest =>
      cases values with
      | nil => cases hv
      | cons v rest' =>
        rw [prepareFrom]
        cases prepared : (t.prepare v).result with
        | error other => exact absurd ⟨t, v, rfl, rfl, prepared⟩ (first 0 (Nat.succ_pos k) other)
        | ok a =>
          have later := @ih (i + 1) rest rest' (fun j lt other h => first (j + 1) (Nat.succ_lt_succ lt) other h)
            ⟨s, value, hs, hv, failed⟩
          rw [Nat.add_right_comm] at later
          refine bind_fault_iff.2 (.inr ⟨a, mapFault_ok_iff.2 prepared, bind_fault_iff.2 (.inl ?_)⟩)
          rw [result_releasingOnFault]
          exact later

/-- if some argument cannot be prepared, there is a first one -/
theorem exists_first_unprepared {params : List Signature} {values : List HostValue} {k : Nat} {fault : Fault}
    (failed : Unprepared params values k fault) :
    ∃ i ≤ k, ∃ other, Unprepared params values i other ∧ ∀ j < i, ∀ earlier, ¬ Unprepared params values j earlier := by
  classical
  have some_fails : ∃ i, ∃ other, Unprepared params values i other := ⟨k, fault, failed⟩
  obtain ⟨other, fails⟩ := Nat.find_spec some_fails
  exact ⟨Nat.find some_fails, Nat.find_le ⟨fault, failed⟩, other, fails,
    fun j lt earlier h => Nat.find_min some_fails lt ⟨earlier, h⟩⟩

/-- the arguments that were prepared can be read back, whatever was written to them -/
theorem faultsIn_readBackFrom {i j : Nat} {params : List Signature} {values : List HostValue} {arguments : List Argument}
    (prepared : (f.prepareFrom i params values).result = .ok arguments) (written : List Written) :
    FaultsIn (¬ ·.Refuses) (f.readBackFrom j params (Kept.ofArguments arguments written)) := by
  induction params generalizing i j values arguments written with
  | nil =>
    unfold readBackFrom
    exact .pure _
  | cons s rest ih =>
    cases values with
    | nil =>
      rw [prepareFrom] at prepared
      · cases prepared
        exact FaultsIn.pure []
      · nofun
    | cons value values =>
      rw [prepareFrom] at prepared
      obtain ⟨first, hf, prepared⟩ := bind_ok_iff.1 prepared
      obtain ⟨others, ho, prepared⟩ := bind_ok_iff.1 prepared
      rw [result_releasingOnFault] at ho
      cases prepared
      obtain ⟨w, ws, split⟩ : ∃ w ws, Kept.ofArguments (first :: others) written =
          Kept.ofArgument first w :: Kept.ofArguments others ws := by
        cases written with
        | nil => exact ⟨.nothing, [], rfl⟩
        | cons w ws => exact ⟨w, ws, rfl⟩
      rw [split, readBackFrom]
      have here := (Signature.faultsIn_readBack (mapFault_ok_iff.1 hf) w).not_refuses
      refine FaultsIn.bind (FaultsIn.releasingOnFault (here.mapFault fun fault h => ?_)) fun r _ =>
        (ih ho ws).bind fun rs _ => .pure _
      rwa [argumentFault, Fault.refuses_forSymbol, Fault.refuses_within]

end BoundFunction

end NativeBridge
