/-
Two computations side by side. They agree if both give values that correspond, or both end with faults that correspond; what
they create and release does not matter here.

- `Agree.bind`, `Agree.within`, `Agree.releasingOnFault`: agreement of the steps is agreement of the whole.
- `agree_eq_iff`: if the faults do not matter, to agree on the same values is to give the same values.
-/
import NativeBridge.Proofs.Accounting

namespace NativeBridge

/-- the outcomes correspond: values by the first relation, faults by the second -/
inductive Agree {α β : Type} (R : α → β → Prop) (Q : Fault → Fault → Prop) : Except Fault α → Except Fault β → Prop
  | value {a : α} {b : β} (h : R a b) : Agree R Q (.ok a) (.ok b)
  | fault {f g : Fault} (h : Q f g) : Agree R Q (.error f) (.error g)

namespace Agree

open Metered

variable {α β γ δ : Type} {R R' : α → β → Prop} {S : γ → δ → Prop} {Q Q' : Fault → Fault → Prop}

section Outcomes

variable {x : Except Fault α} {y : Except Fault β}

theorem imp (h : Agree R Q x y) (values : ∀ a b, R a b → R' a b) (faults : ∀ f g, Q f g → Q' f g) : Agree R' Q' x y := by
  cases h with
  | value h => exact .value (values _ _ h)
  | fault h => exact .fault (faults _ _ h)

theorem exists_ok_iff (h : Agree R Q x y) : (∃ a, x = .ok a) ↔ ∃ b, y = .ok b := by
  cases h with
  | value => simp
  | fault => simp

theorem of_ok {a : α} (h : Agree R Q x y) (given : x = .ok a) : ∃ b, y = .ok b ∧ R a b := by
  subst given
  cases h with
  | value h => exact ⟨_, rfl, h⟩

theorem of_error {f : Fault} (h : Agree R Q x y) (failed : x = .error f) : ∃ g, y = .error g ∧ Q f g := by
  subst failed
  cases h with
  | fault h => exact ⟨_, rfl, h⟩

/-- two computations that give no value agree if any two faults correspond -/
theorem of_not_ok (noValue : ∀ a, x ≠ .ok a) (noValue' : ∀ b, y ≠ .ok b) (faults : ∀ f g, Q f g) : Agree R Q x y := by
  cases x with
  | ok a => exact absurd rfl (noValue a)
  | error f =>
    cases y with
    | ok b => exact absurd rfl (noValue' b)
    | error g => exact .fault (faults f g)

/-- what agrees with a computation agrees with every other one that gives the same values, if the faults do not matter -/
theorem of_same_values {z : Except Fault β} (h : Agree R (fun _ _ => True) x y) (same : ∀ b, y = .ok b ↔ z = .ok b) :
    Agree R (fun _ _ => True) x z := by
  cases h with
  | value h =>
    rw [(same _).1 rfl]
    exact .value h
  | fault =>
    cases z with
    | ok b => exact absurd ((same b).2 rfl) nofun
    | error g => exact .fault trivial

end Outcomes

section Steps

variable {x : Metered α} {y : Metered β}

theorem bind {f : α → Metered γ} {g : β → Metered δ} (h : Agree R Q x.result y.result)
    (next : ∀ a b, R a b → Agree S Q (f a).result (g b).result) : Agree S Q (x >>= f).result (y >>= g).result := by
  rw [result_bind, result_bind]
  generalize x.result = first at h
  generalize y.result = second at h
  cases h with
  | value h => exact next _ _ h
  | fault h => exact .fault h

/-- the computation on the right goes on when the one on the left is done -/
theorem bind_right {g : β → Metered δ} {S : α → δ → Prop} {outcome : Except Fault α} (h : Agree R Q outcome y.result)
    (next : ∀ a b, R a b → Agree S Q (.ok a) (g b).result) : Agree S Q outcome (y >>= g).result := by
  rw [result_bind]
  generalize y.result = second at h
  cases h with
  | value h => exact next _ _ h
  | fault h => exact .fault h

/-- a step on the right that has nothing on the left to agree with, and gives a value -/
theorem skip {outcome : Except Fault α} {y : Metered δ} {b : δ} {g : δ → Metered β} (given : y.result = .ok b)
    (h : Agree R Q outcome (g b).result) : Agree R Q outcome (y >>= g).result := by
  rw [result_bind, given]
  exact h

theorem within (step : Step) (deeper : ∀ f g, Q f g → Q' (f.within step) (g.within step))
    (h : Agree R Q x.result y.result) : Agree R Q' (x.within step).result (y.within step).result := by
  rw [result_within, result_within]
  generalize x.result = first at h
  generalize y.result = second at h
  cases h with
  | value h => exact .value h
  | fault h => exact .fault (deeper _ _ h)

theorem releasingOnFault (count count' : Nat) (h : Agree R Q x.result y.result) :
    Agree R Q (x.releasingOnFault count).result (y.releasingOnFault count').result := by
  rwa [result_releasingOnFault, result_releasingOnFault]

end Steps

end Agree

theorem agree_eq_iff {α : Type} {x y : Except Fault α} :
    Agree (· = ·) (fun _ _ => True) x y ↔ ∀ a, x = .ok a ↔ y = .ok a := by
  constructor
  · intro h a
    cases h with
    | value same => rw [same]
    | fault => simp
  · intro h
    cases x with
    | ok a => rw [(h a).1 rfl]; exact .value rfl
    | error f =>
      cases y with
      | ok b => exact absurd ((h b).2 rfl) nofun
      | error g => exact .fault trivial

end NativeBridge
