/-
Bound functions through any run of hints, accepted or not. What a hint does depends on the type at its place only, and changes
this type only; from this follow both what all hints together keep and that the order of hints at different places is no matter.

- `Signature.eq_of_narrowed`: hints change nothing in a type without holes.
- `Follows`: a function that hints have narrowed, next to the one that was declared.
- `follows_afterHints`: a run of hints gives such a function, by the step lemmas of `Hinted`.
- `state_afterHints`: the state tells whether any hint of the run was accepted.
- `answerAlike`, `afterHint_comm`: a hint looks at its own place only, and hints at different places commute.
- `refining_hints`: all this for a declared function.
-/
import NativeBridge.Proofs.Call.MachineTypes

namespace NativeBridge

open Relation (ReflTransGen)

/-! ## One type -/

namespace Signature

variable {declared current : Signature}

/-- No number of hints changes a type without holes. -/
theorem eq_of_narrowed (resolved : declared.isResolved = true) (hints : ReflTransGen Narrowed declared current) :
    current = declared := by
  induction hints with
  | refl => rfl
  | @tail before after _ hint ih =>
    subst ih
    obtain ⟨hint, accepted⟩ := hint
    exact eq_of_refine? (isResolved_iff.1 resolved) (refine_ok_iff.1 accepted)

/-- a type that hints may have narrowed, next to the declared one -/
structure Follows (declared current : Signature) : Prop where
  access : current.access = declared.access
  resolved : declared.isResolved = true → current = declared
  slot : Slot.ofSignature current ≠ Slot.ofSignature declared → declared.shape = .hole none

theorem follows_of_narrowed (hints : ReflTransGen Narrowed declared current) : declared.Follows current where
  access := access_of_narrowed hints
  resolved := fun resolved => eq_of_narrowed resolved hints
  slot := by
    intro other
    rcases typeOf_of_narrowed hints with same | ⟨word, -⟩
    · have kept : Slot.ofSignature current = Slot.ofSignature declared := by
        rw [Slot.ofSignature, Slot.ofSignature, same, access_of_narrowed hints]
      exact absurd kept other
    · exact word

end Signature

/-! ## A whole function -/

namespace BoundFunction

variable {f g : BoundFunction} {one other : Hint} {hints : List Hint}

/-- a function that hints may have narrowed, next to the one that was declared -/
structure Follows (f g : BoundFunction) : Prop where
  names : g.name = f.name ∧ g.symbol = f.symbol ∧ g.library = f.library
  arity : g.interface.arity = f.interface.arity
  slots : g.interface.slots = g.interface.params.map Slot.ofSignature
  resultSlot : g.interface.resultSlot = Slot.ofSignature g.interface.result
  target : g.target =
    ⟨f.target.native, g.interface.slots.map Slot.machineType, g.interface.resultSlot, f.interface.arity⟩
  params : List.Forall₂ Signature.Follows f.interface.params g.interface.params
  result : f.interface.result.Follows g.interface.result

theorem Hinted.frame (hint : Hinted f g) :
    g.name = f.name ∧ g.symbol = f.symbol ∧ g.library = f.library ∧ g.target.native = f.target.native := by
  rcases hint.redeclares with ⟨_, _, _, _, _, _, rfl⟩ | ⟨_, _, _, rfl⟩
  · exact ⟨rfl, rfl, rfl, rfl⟩
  · exact ⟨rfl, rfl, rfl, rfl⟩

theorem frame_of_hinted (hints : ReflTransGen Hinted f g) :
    g.name = f.name ∧ g.symbol = f.symbol ∧ g.library = f.library ∧ g.target.native = f.target.native := by
  induction hints with
  | refl => exact ⟨rfl, rfl, rfl, rfl⟩
  | tail _ hint ih =>
    obtain ⟨name, symbol, library, native⟩ := hint.frame
    exact ⟨name.trans ih.1, symbol.trans ih.2.1, library.trans ih.2.2.1, native.trans ih.2.2.2⟩

/-- All that a run of hints keeps, accepted or not. -/
theorem follows_afterHints (bound : f.Reachable) (hints : List Hint) : f.Follows (f.afterHints hints) := by
  have hinted : ReflTransGen Hinted f (f.afterHints hints) := hinted_afterHints f hints
  have consistent := (bound.of_hinted hinted).consistent
  obtain ⟨name, symbol, library, native⟩ := frame_of_hinted hinted
  have params := paramsNarrowed_of_hinted hinted
  have arity : (f.afterHints hints).interface.arity = f.interface.arity := params.length_eq.symm
  refine ⟨⟨name, symbol, library⟩, arity, ?_, ?_, ?_, ?_, ?_⟩
  · rw [consistent.interface]
    rfl
  · rw [consistent.interface]
    rfl
  · rw [consistent.target, Target.of, native, arity]
  · exact params.imp fun _ _ narrowed => Signature.follows_of_narrowed narrowed
  · exact Signature.follows_of_narrowed (resultNarrowed_of_hinted hinted)

/-! ## The state -/

/-- the hint is accepted -/
def Accepts (f : BoundFunction) (hint : Hint) : Prop := ∃ g, f.tryHint hint = .ok g

theorem afterHint_of_error {fault : Fault} {hint : Hint} (refused : f.tryHint hint = .error fault) : f.afterHint hint = f := by
  rw [afterHint, refused]

theorem state_afterHint (f : BoundFunction) (hint : Hint) :
    (f.afterHint hint).state = .refined ↔ f.state = .refined ∨ f.Accepts hint := by
  cases answer : f.tryHint hint with
  | error fault =>
    have refused : ¬ f.Accepts hint := by
      rintro ⟨g, accepted⟩
      rw [answer] at accepted
      cases accepted
    rw [afterHint_of_error answer]
    simp [refused]
  | ok g =>
    have after : f.afterHint hint = g := by rw [afterHint, answer]
    have refined : g.state = .refined := by
      rcases (hinted_of_tryHint answer).redeclares with ⟨_, _, _, _, _, _, rfl⟩ | ⟨_, _, _, rfl⟩
      · rfl
      · rfl
    exact iff_of_true (after ▸ refined) (.inr ⟨g, answer⟩)

/-- The state tells whether any hint of a run was accepted when its turn came. -/
theorem state_afterHints (f : BoundFunction) (hints : List Hint) :
    (f.afterHints hints).state = .refined ↔
      f.state = .refined ∨ ∃ before hint after, hints = before ++ hint :: after ∧ (f.afterHints before).Accepts hint := by
  induction hints generalizing f with
  | nil => simp [afterHints]
  | cons first hints ih =>
    rw [afterHints, List.foldl_cons, ← afterHints, ih, state_afterHint]
    constructor
    · rintro ((refined | accepted) | ⟨before, hint, after, rfl, accepted⟩)
      · exact .inl refined
      · exact .inr ⟨[], first, hints, rfl, accepted⟩
      · exact .inr ⟨first :: before, hint, after, rfl, accepted⟩
    · rintro (refined | ⟨before, hint, after, same, accepted⟩)
      · exact .inl (.inl refined)
      · cases before with
        | nil =>
          cases same
          exact .inl (.inr accepted)
        | cons _ before =>
          cases same
          exact .inr ⟨before, hint, after, rfl, accepted⟩

/-! ## Hints at different places -/

/-- the place of the type that the hint is about: a parameter, or the result -/
def Hint.place : Hint → Option Nat
  | .param i _ | .paramRead i _ => some i
  | .result _ | .resultRead _ => none

/-- the type at a place, if the place is there -/
def typeAt (f : BoundFunction) : Option Nat → Option Signature
  | some i => f.interface.params[i]?
  | none => some f.interface.result

/-- the function with another type at a place -/
def withType (f : BoundFunction) (s : Signature) : Option Nat → BoundFunction
  | some i => f.redeclare (f.interface.withParam i s)
  | none => f.redeclare (f.interface.withResult s)

/-- what the host is told of a hint -/
def answer (f : BoundFunction) (hint : Hint) : Except Fault Unit := (f.tryHint hint).map fun _ => ()

/-- two functions answer a hint alike: they refuse it for the same reason, or they take the same type at its place -/
def AnswerAlike (f g : BoundFunction) (hint : Hint) : Prop :=
  (∃ fault, f.tryHint hint = .error fault ∧ g.tryHint hint = .error fault) ∨
    ∃ s, f.tryHint hint = .ok (f.withType s hint.place) ∧ g.tryHint hint = .ok (g.withType s hint.place)

theorem answerAlike_param {i : Nat} (type : Signature) (here : f.interface.params[i]? = g.interface.params[i]?)
    (arity : f.interface.arity = g.interface.arity) : AnswerAlike f g (.param i type) := by
  unfold AnswerAlike
  simp only [tryHint, hintParam, here, arity]
  cases g.interface.params[i]? with
  | none => exact .inl ⟨_, rfl, rfl⟩
  | some declared =>
    dsimp only
    cases declared.refine type with
    | error fault => exact .inl ⟨_, rfl, rfl⟩
    | ok refined => exact .inr ⟨refined, rfl, rfl⟩

theorem answerAlike_result (type : Signature) (here : f.interface.result = g.interface.result) :
    AnswerAlike f g (.result type) := by
  unfold AnswerAlike
  simp only [tryHint, hintResult, here]
  cases g.interface.result.refine type with
  | error fault => exact .inl ⟨_, rfl, rfl⟩
  | ok refined => exact .inr ⟨refined, rfl, rfl⟩

/-- A hint looks at the type at its place and at the number of parameters. -/
theorem answerAlike (hint : Hint) (here : f.typeAt hint.place = g.typeAt hint.place)
    (arity : f.interface.arity = g.interface.arity) : AnswerAlike f g hint := by
  cases hint with
  | param i type => exact answerAlike_param type here arity
  | result type => exact answerAlike_result type (Option.some.inj here)
  | paramRead i text =>
    have inTurn (f : BoundFunction) : f.tryHint (.paramRead i text) =
        Signature.read text >>= fun type => f.tryHint (.param i type) := rfl
    rw [AnswerAlike, inTurn, inTurn]
    cases Signature.read text with
    | error fault => exact .inl ⟨fault, rfl, rfl⟩
    | ok type => exact answerAlike_param type here arity
  | resultRead text =>
    have inTurn (f : BoundFunction) : f.tryHint (.resultRead text) =
        Signature.read text >>= fun type => f.tryHint (.result type) := rfl
    rw [AnswerAlike, inTurn, inTurn]
    cases Signature.read text with
    | error fault => exact .inl ⟨fault, rfl, rfl⟩
    | ok type => exact answerAlike_result type (Option.some.inj here)

theorem answer_eq (alike : AnswerAlike f g one) : f.answer one = g.answer one := by
  rcases alike with ⟨fault, here, there⟩ | ⟨s, here, there⟩
  · rw [answer, answer, here, there]
  · rw [answer, answer, here, there]
    rfl

theorem typeAt_withType (f : BoundFunction) (s : Signature) {place elsewhere : Option Nat} (apart : place ≠ elsewhere) :
    (f.withType s place).typeAt elsewhere = f.typeAt elsewhere := by
  cases place with
  | none =>
    cases elsewhere with
    | none => exact absurd rfl apart
    | some j => rfl
  | some i =>
    cases elsewhere with
    | none => rfl
    | some j => exact List.getElem?_set_ne fun same => apart (congrArg some same)

theorem arity_withType (f : BoundFunction) (s : Signature) (place : Option Nat) :
    (f.withType s place).interface.arity = f.interface.arity := by
  cases place with
  | none => rfl
  | some i => exact List.length_set

theorem withType_comm (f : BoundFunction) (s t : Signature) {place elsewhere : Option Nat} (apart : place ≠ elsewhere) :
    (f.withType s place).withType t elsewhere = (f.withType t elsewhere).withType s place := by
  cases place with
  | none =>
    cases elsewhere with
    | none => exact absurd rfl apart
    | some j => rfl
  | some i =>
    cases elsewhere with
    | none => rfl
    | some j =>
      have distinct : i ≠ j := fun same => apart (congrArg some same)
      have types := List.set_comm s t distinct (l := f.interface.params)
      have slots := List.set_comm (Slot.ofSignature s) (Slot.ofSignature t) distinct (l := f.interface.slots)
      have same : (f.interface.withParam i s).withParam j t = (f.interface.withParam j t).withParam i s := by
        simp only [Interface.withParam, types, slots]
      exact congrArg (fun interface => (f.redeclare interface).redeclare interface) same

theorem answerAlike_afterHint (apart : one.place ≠ other.place) : AnswerAlike (f.afterHint other) f one := by
  rcases answerAlike (f := f) (g := f) other rfl rfl with ⟨fault, refused, -⟩ | ⟨s, accepted, -⟩
  · rw [afterHint_of_error refused]
    exact answerAlike one rfl rfl
  · rw [afterHint, accepted]
    exact answerAlike one (typeAt_withType f s apart.symm) (arity_withType f s other.place)

/-- **Hints at different places commute.** -/
theorem afterHint_comm (f : BoundFunction) (apart : one.place ≠ other.place) :
    (f.afterHint one).afterHint other = (f.afterHint other).afterHint one := by
  have first := answerAlike_afterHint (f := f) apart
  have second := answerAlike_afterHint (f := f) apart.symm
  rcases first with ⟨fault, after, before⟩ | ⟨s, after, before⟩
  · rw [afterHint_of_error before, afterHint_of_error after]
  · rcases second with ⟨fault, after', before'⟩ | ⟨t, after', before'⟩
    · rw [afterHint_of_error before', afterHint_of_error after']
    · have oneFirst : f.afterHint one = f.withType s one.place := by rw [afterHint, before]
      have otherFirst : f.afterHint other = f.withType t other.place := by rw [afterHint, before']
      rw [oneFirst] at after' ⊢
      rw [otherFirst] at after ⊢
      rw [afterHint, after', afterHint, after]
      exact withType_comm f s t apart

/-! ## Declared functions -/

/-- **Refining a declared function.** Whichever hints the host has tried, the types, the slots and the prepared call still
belong together and follow the declaration, and the state tells whether a hint was accepted. From there, a hint that is refused
changes nothing, and two hints at different places get the same answers and give the same function in either order. -/
theorem refining_hints (name symbol library : String) (params : List Signature) (result : Signature) (native : Native)
    (hints : List Hint) :
    let f : BoundFunction := declared name symbol library (.of params result) native
    let g : BoundFunction := f.afterHints hints
    f.Follows g ∧
      (g.state = .refined ↔
        ∃ before hint after, hints = before ++ hint :: after ∧ (f.afterHints before).Accepts hint) ∧
      (∀ hint : Hint, ¬ g.Accepts hint → g.afterHint hint = g) ∧
      ∀ one other : Hint, one.place ≠ other.place →
        (g.afterHint other).answer one = g.answer one ∧ (g.afterHint one).answer other = g.answer other ∧
          (g.afterHint one).afterHint other = (g.afterHint other).afterHint one := by
  intro f g
  have bound : f.Reachable := .declared name symbol library params result native
  refine ⟨follows_afterHints bound hints, ?_, ?_, ?_⟩
  · rw [state_afterHints]
    exact or_iff_right nofun
  · intro hint refused
    cases answer : g.tryHint hint with
    | error fault => exact afterHint_of_error answer
    | ok h => exact absurd ⟨h, answer⟩ refused
  · intro one other apart
    exact ⟨answer_eq (answerAlike_afterHint apart), answer_eq (answerAlike_afterHint apart.symm), afterHint_comm g apart⟩

/-- a function of a word and a list: the hint that the list is a number is refused, also once the word is known to be one, and
the order in which the host tells of the list and of the result is no matter -/
theorem refining_word_and_list :
    let native : Native := fun _ => ⟨.word 0, [], 0⟩
    let f : BoundFunction := declared "pick" "pick_impl" "lib" (.of [.word, .owned (.hole (some .list))] .word) native
    let number : Signature := .owned (.primitive (.int .i64))
    let g : BoundFunction := f.afterHints [.param 1 number, .param 0 number]
    let numbers : Hint := .param 1 (.owned (.list number))
    let first : Hint := .result number
    g.state = .refined ∧ g.interface.params = [number, .owned (.hole (some .list))] ∧ g.afterHint (.param 1 number) = g ∧
      (g.afterHint first).answer numbers = .ok () ∧
      (g.afterHint numbers).afterHint first = (g.afterHint first).afterHint numbers := by
  intro native f number g numbers first
  obtain ⟨-, state, refused, commute⟩ := refining_hints "pick" "pick_impl" "lib" [.word, .owned (.hole (some .list))] .word
    native [.param 1 number, .param 0 number]
  obtain ⟨sameAnswer, -, sameFunction⟩ := commute numbers first nofun
  refine ⟨state.2 ⟨[.param 1 number], .param 0 number, [], rfl, _, rfl⟩, rfl, refused _ ?_, sameAnswer.trans rfl, sameFunction⟩
  rintro ⟨h, accepted⟩
  cases accepted

end BoundFunction

end NativeBridge
