/-
How hints act on what the call interface is told of a function. A native function is compiled once, so the machine types of its
parameters and of its result are those it was bound with. A hint may only tell more about the value behind an address.

- `typeOf_refine?`: a hint keeps the type of a slot, unless the slot is for a bare word.
- `paramsNarrowed_of_hinted`, `resultNarrowed_of_hinted`: what any number of hints does to a function, it does to each type by
  itself.
- `machineType_ne_iff`: a value is passed differently after some hints exactly if its type was an owned bare word and has become
  a number.
- `machineTypes_afterHints`: so it is with all parameters and the result, whichever hints the host tries.
- `word_result_read_as_byte`: a function that returns an address, of which one byte is left after a hint.
-/
import Mathlib.Tactic
import NativeBridge.Call.Run
import NativeBridge.Proofs.Call.Hints

namespace NativeBridge

open Relation (ReflTransGen)

/-! ## One type -/

namespace Signature

/-- how the call interface passes a value of this type -/
def machineType (s : Signature) : MachineType := (Slot.ofSignature s).machineType

theorem typeOf_eq_pointer_iff {shape : Shape} : Slot.typeOf shape = .pointer ↔ shape = .hole none := by
  constructor
  · intro pointer
    cases shape with
    | primitive kind => cases kind <;> cases pointer
    | hole head =>
      cases head with
      | none => rfl
      | some head => cases pointer
    | _ => cases pointer
  · rintro rfl
    rfl

theorem typeOf_eq_void_iff {shape : Shape} : Slot.typeOf shape = .void ↔ shape = .void := by
  constructor
  · intro void
    cases shape with
    | primitive kind => cases kind <;> cases void
    | hole head => cases head <;> cases void
    | void => rfl
    | _ => cases void
  · rintro rfl
    rfl

/-- a container has the slot type of its kind, also if only the kind is known -/
theorem typeOf_of_container? {shape : Shape} {head : Container} (h : shape.container? = some head) :
    Slot.typeOf shape = .wire head.wireKind := by
  unfold Shape.container? at h
  split at h <;> cases h <;> rfl

/-- all that narrowing a shape does to its slot -/
theorem typeOf_refine? {declared hint refined : Shape} (h : declared.refine? hint = some refined) :
    Slot.typeOf refined = Slot.typeOf declared ∨ declared = .hole none ∧ refined ≠ .void := by
  unfold Shape.refine? at h
  split at h
  · cases h
    exact .inl rfl
  · cases h
  · cases h
  · next notVoid =>
    cases h
    exact .inr ⟨rfl, notVoid⟩
  · split_ifs at h with kind
    cases h
    exact .inl (typeOf_of_container? kind)
  · cases h
    exact .inl rfl
  · split_ifs at h
    cases h
    exact .inl rfl
  · obtain ⟨elem, -, rfl⟩ := Option.map_eq_some_iff.1 h
    exact .inl rfl
  · obtain ⟨elems, -, rfl⟩ := Option.map_eq_some_iff.1 h
    exact .inl rfl
  · split_ifs at h
    obtain ⟨value, -, rfl⟩ := Option.map_eq_some_iff.1 h
    exact .inl rfl
  · cases h

/-- the type has been narrowed by an accepted hint -/
def Narrowed (declared refined : Signature) : Prop := ∃ hint, declared.refine hint = .ok refined

theorem Narrowed.typeOf {declared refined : Signature} (h : Narrowed declared refined) :
    Slot.typeOf refined.shape = Slot.typeOf declared.shape ∨ declared.shape = .hole none ∧ refined.shape ≠ .void := by
  obtain ⟨hint, accepted⟩ := h
  exact typeOf_refine? (refine?_eq_some_iff.1 (refine_ok_iff.1 accepted)).2

theorem access_of_narrowed {declared refined : Signature} (hints : ReflTransGen Narrowed declared refined) :
    refined.access = declared.access := by
  induction hints with
  | refl => rfl
  | tail _ hint ih =>
    obtain ⟨hint, accepted⟩ := hint
    exact (BoundFunction.access_refine accepted).trans ih

/-- what one hint does to the slot type, any number of hints does: a word stays a word until a hint makes something else of it,
and then it is none any more -/
theorem typeOf_of_narrowed {declared refined : Signature} (hints : ReflTransGen Narrowed declared refined) :
    Slot.typeOf refined.shape = Slot.typeOf declared.shape ∨ declared.shape = .hole none ∧ refined.shape ≠ .void := by
  induction hints with
  | refl => exact .inl rfl
  | @tail before after _ hint ih =>
    rcases hint.typeOf, ih with ⟨same | ⟨word, notVoid⟩, kept | ⟨wasWord, wasNotVoid⟩⟩
    · exact .inl (same.trans kept)
    · refine .inr ⟨wasWord, fun void => wasNotVoid ?_⟩
      exact typeOf_eq_void_iff.1 (same.symm.trans (typeOf_eq_void_iff.2 void))
    · exact .inr ⟨typeOf_eq_pointer_iff.1 (kept.symm.trans (typeOf_eq_pointer_iff.2 word)), notVoid⟩
    · exact .inr ⟨wasWord, notVoid⟩

/-- behind an address, whatever is not void is passed alike -/
theorem machineType_of_not_owned {s : Signature} (access : s.access ≠ .owned) (notVoid : s.shape ≠ .void) :
    s.machineType = .address := by
  have indirect : (s.access != .owned) = true := bne_iff_ne.2 access
  unfold machineType Slot.ofSignature Slot.machineType
  rw [indirect]
  split
  · next void => exact absurd (typeOf_eq_void_iff.1 void) notVoid
  · rfl
  all_goals contradiction

/-- of the types that are not void, exactly the owned numbers are not passed by address -/
theorem machineType_eq_address_iff {s : Signature} (access : s.access = .owned) (notVoid : s.shape ≠ .void) :
    s.machineType = .address ↔ s.isScalar = false := by
  obtain ⟨_, shape⟩ := s
  subst access
  cases shape with
  | primitive kind =>
    cases kind with
    | int w => exact iff_of_false nofun nofun
    | float32 => exact iff_of_false nofun nofun
    | float64 => exact iff_of_false nofun nofun
    | bool => exact iff_of_true rfl rfl
    | text => exact iff_of_true rfl rfl
  | hole head => cases head <;> exact iff_of_true rfl rfl
  | void => exact absurd rfl notVoid
  | _ => exact iff_of_true rfl rfl

/-- **Hints change how a value is passed in one case only**: its type was an owned bare word, and is a number now. -/
theorem machineType_ne_iff {declared refined : Signature} (hints : ReflTransGen Narrowed declared refined) :
    refined.machineType ≠ declared.machineType ↔ declared = .word ∧ refined.isScalar = true := by
  have access := access_of_narrowed hints
  rcases typeOf_of_narrowed hints with same | ⟨word, notVoid⟩
  · have unchanged : refined.machineType = declared.machineType := by
      unfold machineType Slot.ofSignature
      rw [same, access]
    refine iff_of_false (not_not_intro unchanged) ?_
    rintro ⟨rfl, scalar⟩
    have stillWord : refined.shape = .hole none := typeOf_eq_pointer_iff.1 same
    rw [isScalar, stillWord] at scalar
    cases scalar
  · obtain ⟨declaredAccess, _⟩ := declared
    subst word
    by_cases owned : declaredAccess = .owned
    · subst owned
      have address : machineType ⟨.owned, .hole none⟩ = .address := rfl
      rw [address, ne_eq, machineType_eq_address_iff access notVoid]
      simp [word, Signature.owned]
    · have address : machineType ⟨declaredAccess, .hole none⟩ = .address := machineType_of_not_owned owned nofun
      have stillAddress : refined.machineType = .address := machineType_of_not_owned (access ▸ owned) notVoid
      refine iff_of_false (not_not_intro (stillAddress.trans address.symm)) ?_
      rintro ⟨isWord, -⟩
      exact owned (congrArg Signature.access isWord)

end Signature

/-! ## All types of a function -/

open Signature (Narrowed)

/-- one more type of a list is narrowed -/
theorem forall₂_narrowed_set {declared current : List Signature} {i : Nat} {before after : Signature}
    (narrowed : List.Forall₂ (ReflTransGen Narrowed) declared current) (found : current[i]? = some before)
    (hint : Narrowed before after) : List.Forall₂ (ReflTransGen Narrowed) declared (current.set i after) := by
  induction narrowed generalizing i with
  | nil => cases found
  | cons first rest ih =>
    cases i with
    | zero =>
      cases found
      exact .cons (first.tail hint) rest
    | succ i => exact .cons first (ih found)

namespace BoundFunction

variable {f g : BoundFunction}

theorem paramsNarrowed_of_hinted (hints : ReflTransGen Hinted f g) :
    List.Forall₂ (ReflTransGen Narrowed) f.interface.params g.interface.params := by
  induction hints with
  | refl => exact List.forall₂_refl _
  | tail _ hint ih =>
    rcases hint.redeclares with ⟨i, declared, type, refined, found, accepted, rfl⟩ | ⟨type, refined, accepted, rfl⟩
    · exact forall₂_narrowed_set ih found ⟨type, accepted⟩
    · exact ih

theorem resultNarrowed_of_hinted (hints : ReflTransGen Hinted f g) :
    ReflTransGen Narrowed f.interface.result g.interface.result := by
  induction hints with
  | refl => exact .refl
  | tail _ hint ih =>
    rcases hint.redeclares with ⟨i, declared, type, refined, found, accepted, rfl⟩ | ⟨type, refined, accepted, rfl⟩
    · exact ih
    · exact ih.tail ⟨type, accepted⟩

theorem Consistent.target_params (h : f.Consistent) : f.target.params = f.interface.params.map Signature.machineType := by
  rw [h.target, Target.of, h.interface]
  exact List.map_map

/-! ## Hints that the host tries -/

/-- a hint that the host gives, whether it will be accepted or not -/
inductive Hint where
  | param (i : Nat) (type : Signature)
  | result (type : Signature)
  | paramRead (i : Nat) (text : String)
  | resultRead (text : String)

/-- the function as the hint narrows it, or why it does not -/
def tryHint (f : BoundFunction) : Hint → Except Fault BoundFunction
  | .param i type => f.hintParam i type
  | .result type => f.hintResult type
  | .paramRead i text => f.hintParamRead i text
  | .resultRead text => f.hintResultRead text

/-- the function after a hint; a hint that is not accepted leaves it as it was -/
def afterHint (f : BoundFunction) (hint : Hint) : BoundFunction :=
  match f.tryHint hint with
  | .ok g => g
  | .error _ => f

/-- the function after any number of hints -/
def afterHints (f : BoundFunction) (hints : List Hint) : BoundFunction := hints.foldl afterHint f

theorem hinted_of_tryHint {hint : Hint} (accepted : f.tryHint hint = .ok g) : Hinted f g := by
  cases hint with
  | param i type => exact .param i type accepted
  | result type => exact .result type accepted
  | paramRead i text => exact .paramRead i text accepted
  | resultRead text => exact .resultRead text accepted

theorem hinted_afterHint (f : BoundFunction) (hint : Hint) : ReflTransGen Hinted f (f.afterHint hint) := by
  unfold afterHint
  split
  · next accepted => exact .single (hinted_of_tryHint accepted)
  · exact .refl

theorem hinted_afterHints (f : BoundFunction) (hints : List Hint) : ReflTransGen Hinted f (f.afterHints hints) := by
  induction hints generalizing f with
  | nil => exact .refl
  | cons hint rest ih => exact (hinted_afterHint f hint).trans (ih _)

/-- **What hints do to the machine types of a function.** Whichever hints the host tries after a function was bound, the call
interface has been told of as many parameters as before, and of each parameter and the result the same as before, but for
those that were declared as owned bare words and are numbers by now. -/
theorem machineTypes_afterHints (name symbol library : String) (params : List Signature) (result : Signature)
    (native : Native) (hints : List Hint) :
    let f : BoundFunction := declared name symbol library (.of params result) native
    let g : BoundFunction := f.afterHints hints
    g.target.params.length = f.target.params.length ∧
      (∀ i : Nat, g.target.params[i]? ≠ f.target.params[i]? ↔
        params[i]? = some .word ∧ ∃ s, g.interface.params[i]? = some s ∧ s.isScalar = true) ∧
      (g.target.result.machineType ≠ f.target.result.machineType ↔
        result = .word ∧ g.interface.result.isScalar = true) := by
  intro f g
  have bound : f.Reachable := .declared name symbol library params result native
  have hinted : ReflTransGen Hinted f g := hinted_afterHints f hints
  have consistent := (bound.of_hinted hinted).consistent
  have narrowed : List.Forall₂ (ReflTransGen Narrowed) params g.interface.params := paramsNarrowed_of_hinted hinted
  have before : f.target.params = params.map Signature.machineType := bound.consistent.target_params
  have after : g.target.params = g.interface.params.map Signature.machineType := consistent.target_params
  refine ⟨?_, ?_, ?_⟩
  · rw [before, after, List.length_map, List.length_map, narrowed.length_eq]
  · intro i
    rw [before, after, List.getElem?_map, List.getElem?_map]
    by_cases inside : i < params.length
    · have inside' : i < g.interface.params.length := narrowed.length_eq ▸ inside
      rw [List.getElem?_eq_getElem inside, List.getElem?_eq_getElem inside']
      have here := Signature.machineType_ne_iff (narrowed.get inside inside')
      simpa using here
    · have outside : params[i]? = none := List.getElem?_eq_none (Nat.le_of_not_lt inside)
      have outside' : g.interface.params[i]? = none :=
        List.getElem?_eq_none (narrowed.length_eq ▸ Nat.le_of_not_lt inside)
      rw [outside, outside']
      simp
  · rw [consistent.target_result]
    exact Signature.machineType_ne_iff (resultNarrowed_of_hinted hinted)

/-- a function that returns the address it was given: once a hint has said that the result is an integer of 8 bits, the call
interface is told of another type, and all but the low byte of the address is lost -/
theorem word_result_read_as_byte :
    let native : Native := fun
      | [.word address] => ⟨.word address, [], 0⟩
      | _ => ⟨.word 0, [], 0⟩
    let f : BoundFunction := declared "echo" "echo_impl" "lib" (.of [.word] .word) native
    let g : BoundFunction := f.afterHint (.result (.owned (.primitive (.int .i8))))
    let page : HostInt := ⟨4096, by decide⟩
    f.target.result.machineType = .address ∧ g.target.result.machineType = .int .i8 ∧
      (f.call [.int page]).result = .ok (.int page) ∧ (g.call [.int page]).result = .ok (.int ⟨0, by decide⟩) := by
  intro native f g page
  refine ⟨rfl, rfl, ?_, ?_⟩
  · cbv
  · cbv

end BoundFunction

end NativeBridge
