/-
Bound functions that hints have narrowed. A function is reached by hints from its declaration; hints that are not accepted
change nothing and do not count.

- `Hinted.redeclares`: all that a hint does to a function.
- `Consistent`: the slots follow the types, and the call is set up for these slots.
- `Reachable.consistent`: that is so for a declared function, and every hint keeps it.
- `access_result_of_hinted`: no number of hints changes how the result is reached.
-/
import Mathlib.Tactic
import NativeBridge.Call.BoundFunction
import NativeBridge.Proofs.Refinement

namespace NativeBridge

namespace Interface

theorem withParam_of (params : List Signature) (result : Signature) (i : Nat) (s : Signature) :
    (of params result).withParam i s = of (params.set i s) result := by
  simp only [withParam, of, List.map_set]

theorem withResult_of (params : List Signature) (result s : Signature) :
    (of params result).withResult s = of params s := rfl

end Interface

namespace BoundFunction

/-- a function narrowed by one accepted hint, given as a type or in writing -/
inductive Hinted (f g : BoundFunction) : Prop
  | param (i : Nat) (hint : Signature) (accepted : f.hintParam i hint = .ok g)
  | result (hint : Signature) (accepted : f.hintResult hint = .ok g)
  | paramRead (i : Nat) (hint : String) (accepted : f.hintParamRead i hint = .ok g)
  | resultRead (hint : String) (accepted : f.hintResultRead hint = .ok g)

/-- the function has been declared and then narrowed by any number of hints -/
inductive Reachable : BoundFunction → Prop
  | declared (name symbol library : String) (params : List Signature) (result : Signature) (native : Native) :
      Reachable (.declared name symbol library (.of params result) native)
  | hinted {f g : BoundFunction} (before : Reachable f) (hint : Hinted f g) : Reachable g

/-- the slots follow the types, and the call is set up for these slots -/
structure Consistent (f : BoundFunction) : Prop where
  interface : f.interface = .of f.interface.params f.interface.result
  target : f.target = .of f.target.native f.interface

theorem hintParam_cases {f g : BoundFunction} {i : Nat} {hint : Signature} (accepted : f.hintParam i hint = .ok g) :
    ∃ declared refined, f.interface.params[i]? = some declared ∧ declared.refine hint = .ok refined ∧
      g = f.redeclare (f.interface.withParam i refined) := by
  unfold hintParam at accepted
  split at accepted
  · cases accepted
  · next declared found =>
    split at accepted
    · next refined narrowed => exact ⟨declared, refined, found, narrowed, (Except.ok.inj accepted).symm⟩
    · cases accepted

theorem hintResult_cases {f g : BoundFunction} {hint : Signature} (accepted : f.hintResult hint = .ok g) :
    ∃ refined, f.interface.result.refine hint = .ok refined ∧ g = f.redeclare (f.interface.withResult refined) := by
  unfold hintResult at accepted
  split at accepted
  · next refined narrowed => exact ⟨refined, narrowed, (Except.ok.inj accepted).symm⟩
  · cases accepted

/-- all that an accepted hint does: it narrows one type and sets up the call anew; a written hint is first read -/
theorem Hinted.redeclares {f g : BoundFunction} (hint : Hinted f g) :
    (∃ i declared hint refined, f.interface.params[i]? = some declared ∧ declared.refine hint = .ok refined ∧
      g = f.redeclare (f.interface.withParam i refined)) ∨
    ∃ hint refined, f.interface.result.refine hint = .ok refined ∧ g = f.redeclare (f.interface.withResult refined) := by
  cases hint with
  | param i hint accepted =>
    obtain ⟨declared, refined, narrowed⟩ := hintParam_cases accepted
    exact .inl ⟨i, declared, hint, refined, narrowed⟩
  | result hint accepted => exact .inr ⟨hint, hintResult_cases accepted⟩
  | paramRead i text accepted =>
    unfold hintParamRead at accepted
    cases read : Signature.read text with
    | ok hint =>
      rw [read] at accepted
      obtain ⟨declared, refined, narrowed⟩ := hintParam_cases accepted
      exact .inl ⟨i, declared, hint, refined, narrowed⟩
    | error fault =>
      rw [read] at accepted
      cases accepted
  | resultRead text accepted =>
    unfold hintResultRead at accepted
    cases read : Signature.read text with
    | ok hint =>
      rw [read] at accepted
      exact .inr ⟨hint, hintResult_cases accepted⟩
    | error fault =>
      rw [read] at accepted
      cases accepted

/-- a hint keeps a function consistent -/
theorem Hinted.consistent {f g : BoundFunction} (hint : Hinted f g) (before : f.Consistent) : g.Consistent := by
  rcases hint.redeclares with ⟨i, -, -, refined, -, -, rfl⟩ | ⟨-, refined, -, rfl⟩
  · rw [before.interface, Interface.withParam_of]
    exact ⟨rfl, rfl⟩
  · rw [before.interface, Interface.withResult_of]
    exact ⟨rfl, rfl⟩

theorem Reachable.consistent {f : BoundFunction} (reachable : f.Reachable) : f.Consistent := by
  induction reachable with
  | declared name symbol library params result native => exact ⟨rfl, rfl⟩
  | hinted _ hint ih => exact hint.consistent ih

theorem Consistent.target_result {f : BoundFunction} (h : f.Consistent) :
    f.target.result = Slot.ofSignature f.interface.result := by
  rw [h.target, Target.of, h.interface]
  rfl

/-! ## What hints do not change -/

theorem access_refine {declared hint refined : Signature} (accepted : declared.refine hint = .ok refined) :
    refined.access = declared.access :=
  Signature.access_refine? (Signature.refine_ok_iff.1 accepted)

theorem Hinted.access_result {f g : BoundFunction} (hint : Hinted f g) :
    g.interface.result.access = f.interface.result.access := by
  rcases hint.redeclares with ⟨i, -, -, refined, -, -, rfl⟩ | ⟨_, refined, narrowed, rfl⟩
  · rfl
  · exact access_refine narrowed

theorem access_result_of_hinted {f g : BoundFunction} (hints : Relation.ReflTransGen Hinted f g) :
    g.interface.result.access = f.interface.result.access := by
  induction hints with
  | refl => rfl
  | tail _ hint ih => exact hint.access_result.trans ih

theorem Reachable.of_hinted {f g : BoundFunction} (before : f.Reachable) (hints : Relation.ReflTransGen Hinted f g) :
    g.Reachable := by
  induction hints with
  | refl => exact before
  | tail _ hint ih => exact ih.hinted hint

end BoundFunction

end NativeBridge
