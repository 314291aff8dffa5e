/-
Computations that create and release wire objects. A `Metered` computation has an outcome, a value or a fault, and a tally of
the objects that it created and released on the way; in sequence, tallies add up, and nothing runs after a fault.

- `Metered.result_bind`, `Metered.tally_bind`: what a sequence gives and what it counts.
-/
import NativeBridge.Fault

namespace NativeBridge

/-- how many wire objects were created and how many were released -/
structure Tally where
  created : Nat
  released : Nat
deriving DecidableEq

namespace Tally

/-- nothing happened -/
def zero : Tally := ⟨0, 0⟩

/-- one after the other -/
def add (a b : Tally) : Tally := ⟨a.created + b.created, a.released + b.released⟩

instance : Zero Tally := ⟨zero⟩

instance : Add Tally := ⟨add⟩

@[simp]
theorem created_add (a b : Tally) : (a + b).created = a.created + b.created := rfl

@[simp]
theorem released_add (a b : Tally) : (a + b).released = a.released + b.released := rfl

@[simp]
theorem created_zero : (0 : Tally).created = 0 := rfl

@[simp]
theorem released_zero : (0 : Tally).released = 0 := rfl

end Tally

/-- a computation with an outcome and a tally -/
structure Metered (α : Type) where
  result : Except Fault α
  tally : Tally

namespace Metered

variable {α β : Type}

/-- one computation after the other, unless the first one fails -/
def andThen (x : Metered α) (f : α → Metered β) : Metered β :=
  match x.result with
  | .ok a => ⟨(f a).result, x.tally + (f a).tally⟩
  | .error fault => ⟨.error fault, x.tally⟩

instance : Monad Metered where
  pure a := ⟨.ok a, 0⟩
  bind := andThen

/-- a fault, before anything is created or released -/
def fail (fault : Fault) : Metered α := ⟨.error fault, 0⟩

/-- an outcome that needs no objects -/
def ofExcept (outcome : Except Fault α) : Metered α := ⟨outcome, 0⟩

/-- a value that has become one more object; what it contains exists already -/
def create (value : α) : Metered α := ⟨.ok value, ⟨1, 0⟩⟩

/-- releases this many objects -/
def release (count : Nat) : Metered Unit := ⟨.ok (), ⟨0, count⟩⟩

/-- the same computation, releasing this many more objects if it fails -/
def releasingOnFault (x : Metered α) (count : Nat) : Metered α :=
  match x.result with
  | .ok _ => x
  | .error _ => ⟨x.result, x.tally + ⟨0, count⟩⟩

/-- the same computation with its faults seen differently -/
def mapFault (f : Fault → Fault) (x : Metered α) : Metered α :=
  match x.result with
  | .ok _ => x
  | .error fault => ⟨.error (f fault), x.tally⟩

/-- the same computation as one step of a larger one -/
def within (step : Step) (x : Metered α) : Metered α := x.mapFault (Fault.within step)

theorem result_bind (x : Metered α) (f : α → Metered β) :
    (x >>= f).result = x.result.bind fun a => (f a).result := by
  show (andThen x f).result = _
  unfold andThen
  cases x.result <;> rfl

theorem tally_bind (x : Metered α) (f : α → Metered β) :
    (x >>= f).tally = match x.result with
      | .ok a => x.tally + (f a).tally
      | .error _ => x.tally := by
  show (andThen x f).tally = _
  unfold andThen
  cases x.result <;> rfl

theorem result_pure (a : α) : (pure a : Metered α).result = .ok a := rfl

theorem tally_pure (a : α) : (pure a : Metered α).tally = 0 := rfl

theorem result_within (step : Step) (x : Metered α) :
    (x.within step).result = x.result.mapError (Fault.within step) := by
  unfold within mapFault
  cases h : x.result with
  | ok a => exact h
  | error fault => rfl

theorem tally_within (step : Step) (x : Metered α) : (x.within step).tally = x.tally := by
  unfold within mapFault
  cases x.result <;> rfl

theorem result_releasingOnFault (x : Metered α) (count : Nat) : (x.releasingOnFault count).result = x.result := by
  unfold releasingOnFault
  split <;> rfl

end Metered

end NativeBridge
