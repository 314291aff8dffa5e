/-
Laws of metered computations. Three questions are asked of a computation: which value it gives, which faults it can end with,
and what has become of the wire objects in the end.

- `bind_ok_iff`, `bind_fault_iff`: a sequence gives a value exactly if both parts do, and a fault exactly if one of them does.
- `FaultsIn`: every fault of the computation is in a given class. `FaultsIn.bind` puts this together.
- `Accounts held owed`: who starts with `held` objects and runs the computation has, in the end, released all of them and all
  that were created on the way, except those of the value it gives. `Accounts.bind` puts this together, and
  `Accounts.releasingOnFault` is its frame rule: objects that are only released on a fault are carried along.
- `Consumes held left`: the same for a computation that creates nothing, and `Keeps`: nothing is released unless it fails. In
  both cases the balance of `Accounts` fixes the whole tally (`Consumes.tally_eq`, `Keeps.tally_eq`).
-/
import Mathlib.Tactic
import NativeBridge.Metered

namespace NativeBridge

namespace Tally

theorem zero_add (a : Tally) : 0 + a = a := by
  show mk (0 + a.created) (0 + a.released) = a
  rw [Nat.zero_add, Nat.zero_add]

theorem add_assoc (a b c : Tally) : a + b + c = a + (b + c) := by
  show mk (a.created + b.created + c.created) (a.released + b.released + c.released) =
    mk (a.created + (b.created + c.created)) (a.released + (b.released + c.released))
  rw [Nat.add_assoc, Nat.add_assoc]

end Tally

namespace Metered

variable {α β γ : Type}

/-! ## Values and faults of a sequence -/

theorem bind_of_ok {x : Metered α} {f : α → Metered β} {a : α} (h : x.result = .ok a) :
    x >>= f = ⟨(f a).result, x.tally + (f a).tally⟩ := by
  show andThen x f = _
  rw [andThen, h]

theorem bind_of_fault {x : Metered α} {f : α → Metered β} {fault : Fault} (h : x.result = .error fault) :
    x >>= f = ⟨.error fault, x.tally⟩ := by
  show andThen x f = _
  rw [andThen, h]

theorem bind_bind (x : Metered α) (f : α → Metered β) (g : β → Metered γ) :
    x >>= f >>= g = x >>= fun a => f a >>= g := by
  cases h : x.result with
  | error fault =>
    rw [bind_of_fault h, bind_of_fault h]
    exact bind_of_fault rfl
  | ok a =>
    rw [bind_of_ok h, bind_of_ok h]
    cases h' : (f a).result with
    | error fault =>
      rw [bind_of_fault h']
      exact bind_of_fault rfl
    | ok b =>
      rw [bind_of_ok h', ← Tally.add_assoc]
      exact bind_of_ok rfl

/-- what comes second matters only for the value that the first gives -/
theorem bind_congr_of_ok {x : Metered α} {f g : α → Metered β} (h : ∀ a, x.result = .ok a → f a = g a) : x >>= f = x >>= g := by
  cases outcome : x.result with
  | ok a => rw [bind_of_ok outcome, bind_of_ok outcome, h a outcome]
  | error fault => rw [bind_of_fault outcome, bind_of_fault outcome]

theorem bind_ok_iff {x : Metered α} {f : α → Metered β} {b : β} :
    (x >>= f).result = .ok b ↔ ∃ a, x.result = .ok a ∧ (f a).result = .ok b := by
  rw [result_bind]
  cases x.result with
  | ok a => simp [Except.bind]
  | error fault => simp [Except.bind]

theorem bind_fault_iff {x : Metered α} {f : α → Metered β} {fault : Fault} :
    (x >>= f).result = .error fault ↔
      x.result = .error fault ∨ ∃ a, x.result = .ok a ∧ (f a).result = .error fault := by
  rw [result_bind]
  cases x.result with
  | ok a => simp [Except.bind]
  | error other => simp [Except.bind]

theorem result_fail (fault : Fault) : (fail fault : Metered α).result = .error fault := rfl

theorem result_ofExcept (outcome : Except Fault α) : (ofExcept outcome).result = outcome := rfl

theorem result_create (a : α) : (create a).result = .ok a := rfl

theorem result_release (count : Nat) : (release count).result = .ok () := rfl

theorem mapFault_ok_iff {f : Fault → Fault} {x : Metered α} {a : α} :
    (x.mapFault f).result = .ok a ↔ x.result = .ok a := by
  unfold mapFault
  cases h : x.result with
  | ok b => simp [h]
  | error fault => simp

theorem mapFault_fault_iff {f : Fault → Fault} {x : Metered α} {fault : Fault} :
    (x.mapFault f).result = .error fault ↔ ∃ inner, x.result = .error inner ∧ f inner = fault := by
  unfold mapFault
  cases h : x.result with
  | ok b => simp [h]
  | error inner => simp

theorem within_ok_iff {step : Step} {x : Metered α} {a : α} : (x.within step).result = .ok a ↔ x.result = .ok a :=
  mapFault_ok_iff

theorem within_fault_iff {step : Step} {x : Metered α} {fault : Fault} :
    (x.within step).result = .error fault ↔ ∃ inner, x.result = .error inner ∧ inner.within step = fault :=
  mapFault_fault_iff

/-! ## Classes of faults -/

/-- every fault that the computation can end with is in the class -/
def FaultsIn (p : Fault → Prop) (x : Metered α) : Prop := ∀ fault, x.result = .error fault → p fault

namespace FaultsIn

variable {p : Fault → Prop} {x : Metered α}

theorem pure (a : α) : FaultsIn p (Pure.pure a : Metered α) := by
  intro fault h
  cases h

theorem create (a : α) : FaultsIn p (Metered.create a) := by
  intro fault h
  cases h

theorem release (count : Nat) : FaultsIn p (Metered.release count) := by
  intro fault h
  cases h

theorem fail {fault : Fault} (h : p fault) : FaultsIn p (Metered.fail fault : Metered α) := by
  intro other h'
  cases h'
  exact h

theorem ofExcept {outcome : Except Fault α} (h : ∀ fault, outcome = .error fault → p fault) :
    FaultsIn p (Metered.ofExcept outcome) := h

theorem bind {f : α → Metered β} (hx : FaultsIn p x) (hf : ∀ a, x.result = .ok a → FaultsIn p (f a)) :
    FaultsIn p (x >>= f) := by
  intro fault h
  rcases bind_fault_iff.1 h with h | ⟨a, ha, h⟩
  · exact hx fault h
  · exact hf a ha fault h

theorem mapFault {q : Fault → Prop} {f : Fault → Fault} (hx : FaultsIn q x) (hf : ∀ fault, q fault → p (f fault)) :
    FaultsIn p (x.mapFault f) := by
  intro fault h
  obtain ⟨inner, hi, rfl⟩ := mapFault_fault_iff.1 h
  exact hf inner (hx inner hi)

theorem within {step : Step} (hx : FaultsIn p x) (hp : ∀ fault, p fault → p (fault.within step)) :
    FaultsIn p (x.within step) :=
  hx.mapFault hp

theorem releasingOnFault {count : Nat} (hx : FaultsIn p x) : FaultsIn p (x.releasingOnFault count) := by
  intro fault h
  rw [result_releasingOnFault] at h
  exact hx fault h

end FaultsIn

/-! ## Accounts of wire objects -/

/-- who starts with `held` objects has released, in the end, all but those of the value given -/
def Accounts (held : Nat) (owed : α → Nat) (x : Metered α) : Prop :=
  held + x.tally.created = x.tally.released + match x.result with
    | .ok a => owed a
    | .error _ => 0

namespace Accounts

variable {held : Nat} {owed : α → Nat} {x : Metered α}

theorem ok {a : α} (h : Accounts held owed x) (hx : x.result = .ok a) :
    held + x.tally.created = x.tally.released + owed a := by
  simpa [Accounts, hx] using h

theorem fault {fault : Fault} (h : Accounts held owed x) (hx : x.result = .error fault) :
    held + x.tally.created = x.tally.released := by
  simpa [Accounts, hx] using h

theorem pure {a : α} (h : held = owed a) : Accounts held owed (Pure.pure a : Metered α) := by
  simp [Accounts, result_pure, tally_pure, h]

theorem create {a : α} (h : held + 1 = owed a) : Accounts held owed (Metered.create a) := by
  simp [Accounts, Metered.create, h]

theorem release {count left : Nat} (h : held = count + left) :
    Accounts held (fun _ => left) (Metered.release count) := by
  simp [Accounts, Metered.release, h]

theorem fail {fault : Fault} : Accounts 0 owed (Metered.fail fault : Metered α) := by
  simp [Accounts, Metered.fail]

theorem ofExcept {outcome : Except Fault α} (h : ∀ a, outcome = .ok a → owed a = 0) :
    Accounts 0 owed (Metered.ofExcept outcome) := by
  cases outcome with
  | ok a => simp [Accounts, Metered.ofExcept, h a rfl]
  | error fault => simp [Accounts, Metered.ofExcept]

/-- what the first part gives is what the second part starts with -/
theorem bind {f : α → Metered β} {given : β → Nat} (hx : Accounts held owed x)
    (hf : ∀ a, x.result = .ok a → Accounts (owed a) given (f a)) : Accounts held given (x >>= f) := by
  unfold Accounts
  rw [result_bind, tally_bind]
  cases h : x.result with
  | ok a =>
    have first := hx.ok h
    have second := hf a h
    simp only [Accounts, Except.bind, Tally.created_add, Tally.released_add] at second ⊢
    omega
  | error fault =>
    have first := hx.fault h
    simp only [Except.bind]
    omega

theorem mapFault {f : Fault → Fault} (hx : Accounts held owed x) : Accounts held owed (x.mapFault f) := by
  unfold Accounts at hx ⊢
  unfold Metered.mapFault
  cases h : x.result with
  | ok a => simpa [h] using hx
  | error fault => simpa [h] using hx

theorem within {step : Step} (hx : Accounts held owed x) : Accounts held owed (x.within step) := hx.mapFault

/-- **Frame rule.** Objects that the computation does not know of are still there when it gives a value, and are released
when it ends with a fault. -/
theorem releasingOnFault (count : Nat) (hx : Accounts held owed x) :
    Accounts (held + count) (fun a => owed a + count) (x.releasingOnFault count) := by
  unfold Accounts at hx ⊢
  unfold Metered.releasingOnFault
  cases h : x.result with
  | ok a =>
    simp only [h] at hx ⊢
    omega
  | error fault =>
    simp only [h, Tally.created_add, Tally.released_add] at hx ⊢
    omega

/-- the frame rule for a computation that starts with nothing of its own -/
theorem carrying (count : Nat) (hx : Accounts 0 owed x) :
    Accounts count (fun a => owed a + count) (x.releasingOnFault count) := by
  have framed := hx.releasingOnFault count
  rwa [Nat.zero_add] at framed

end Accounts

/-! ## Computations that only release -/

/-- who starts with `held` objects and runs the computation creates none, and has released all but `left` of them in the end,
or all of them after a fault -/
structure Consumes (held left : Nat) (x : Metered α) : Prop where
  creates : x.tally.created = 0
  accounts : Accounts held (fun _ => left) x

namespace Consumes

variable {held middle left : Nat} {x : Metered α}

theorem tally_eq (h : Consumes held 0 x) : x.tally = ⟨0, held⟩ := by
  have counted : held + x.tally.created = x.tally.released := by
    cases result : x.result with
    | ok a => exact h.accounts.ok result
    | error fault => exact h.accounts.fault result
  rw [h.creates, Nat.add_zero] at counted
  rw [counted, ← h.creates]

theorem pure (a : α) : Consumes held held (Pure.pure a : Metered α) := ⟨rfl, .pure rfl⟩

theorem release (count : Nat) (left : Nat) : Consumes (count + left) left (Metered.release count) :=
  ⟨rfl, .release rfl⟩

theorem fail (fault : Fault) : Consumes 0 left (Metered.fail fault : Metered α) := ⟨rfl, .fail⟩

theorem ofExcept (outcome : Except Fault α) : Consumes 0 0 (Metered.ofExcept outcome) :=
  ⟨rfl, .ofExcept fun _ _ => rfl⟩

theorem bind {f : α → Metered β} (hx : Consumes held middle x)
    (hf : ∀ a, x.result = .ok a → Consumes middle left (f a)) : Consumes held left (x >>= f) := by
  refine ⟨?_, hx.accounts.bind fun a h => (hf a h).accounts⟩
  rw [tally_bind]
  cases h : x.result with
  | ok a =>
    show x.tally.created + (f a).tally.created = 0
    rw [hx.creates, (hf a h).creates]
  | error fault => exact hx.creates

theorem within {step : Step} (hx : Consumes held left x) : Consumes held left (x.within step) := by
  refine ⟨?_, hx.accounts.within⟩
  rw [tally_within]
  exact hx.creates

/-- the frame rule, as for `Accounts` -/
theorem releasingOnFault (count : Nat) (hx : Consumes held left x) :
    Consumes (held + count) (left + count) (x.releasingOnFault count) := by
  refine ⟨?_, hx.accounts.releasingOnFault count⟩
  unfold Metered.releasingOnFault
  split
  · exact hx.creates
  · exact hx.creates

end Consumes

/-! ## Computations that release nothing unless they fail -/

/-- if the computation gives a value, it has released nothing on the way -/
def Keeps (x : Metered α) : Prop := ∀ a, x.result = .ok a → x.tally.released = 0

namespace Keeps

variable {x : Metered α}

/-- what such a computation creates is what its value consists of -/
theorem tally_eq {owed : α → Nat} {a : α} (h : Keeps x) (accounts : Accounts 0 owed x) (given : x.result = .ok a) :
    x.tally = ⟨owed a, 0⟩ := by
  have counted := accounts.ok given
  rw [Nat.zero_add, h a given, Nat.zero_add] at counted
  rw [← counted, ← h a given]

theorem pure (a : α) : Keeps (Pure.pure a : Metered α) := fun _ _ => rfl

theorem create (a : α) : Keeps (Metered.create a) := fun _ _ => rfl

theorem fail (fault : Fault) : Keeps (Metered.fail fault : Metered α) := nofun

theorem ofExcept (outcome : Except Fault α) : Keeps (Metered.ofExcept outcome) := fun _ _ => rfl

theorem bind {f : α → Metered β} (hx : Keeps x) (hf : ∀ a, x.result = .ok a → Keeps (f a)) : Keeps (x >>= f) := by
  intro b given
  obtain ⟨a, first, second⟩ := bind_ok_iff.1 given
  rw [bind_of_ok first]
  show x.tally.released + (f a).tally.released = 0
  rw [hx a first, hf a first b second]

theorem within {step : Step} (hx : Keeps x) : Keeps (x.within step) := by
  intro a given
  rw [tally_within]
  exact hx a (within_ok_iff.1 given)

theorem releasingOnFault {count : Nat} (hx : Keeps x) : Keeps (x.releasingOnFault count) := by
  intro a given
  rw [result_releasingOnFault] at given
  rw [Metered.releasingOnFault, given]
  exact hx a given

end Keeps

end Metered

end NativeBridge
