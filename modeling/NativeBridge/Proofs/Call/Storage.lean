/-
How arguments are stored. The slot of a parameter is set up from its declared type alone, long before a call; the argument is
made from the type and a value when the call is made. Both have to come to the same machine type, or native code would read
an argument that is not there.

- `prepare_ok_cases`: the three ways in which an argument is made ready.
- `Slot.Stores`: the argument is stored as the slot says. It is a number just if the slot is one by value, and then of the very
  type of the slot; otherwise it is an address.
- `stores_of_prepare`: whatever the type and its access are, every argument made ready for it is stored as its slot says.
- `storage_matches_slots`: so it is for each argument of each call that runs the native function.
-/
import Mathlib.Tactic
import NativeBridge.Proofs.Call.Stages

namespace NativeBridge

open Metered

/-! ## Slots and arguments -/

/-- the argument for a value is stored as the slot says -/
structure Slot.Stores (slot : Slot) (value : HostValue) (argument : Argument) : Prop where
  /-- it is passed as the call interface was told -/
  told : argument.machineType = slot.machineType
  int : ∀ w, (∃ v, argument = .number (.int w v)) ↔ slot = ⟨.int w, false⟩
  /-- an integer is not changed on its way into the register -/
  exact : ∀ w v, argument = .number (.int w v) → ∃ n : HostInt, value = .int n ∧ n.val = v.val
  float32 : (∃ x, argument = .number (.float32 x)) ↔ slot = ⟨.float32, false⟩
  float64 : (∃ x, argument = .number (.float64 x)) ↔ slot = ⟨.float64, false⟩
  /-- everything else is an address -/
  address : argument.machineType = .address ↔ slot.isByValue = false

/-- an address in a slot that is not one for a number by value -/
theorem Slot.stores_address {slot : Slot} {value : HostValue} {argument : Argument}
    (address : argument.machineType = .address) (told : slot.machineType = .address) (notNumber : slot.isByValue = false) :
    slot.Stores value argument := by
  have noNumber : ∀ n, argument ≠ .number n := by
    rintro n rfl
    cases n <;> cases address
  have noSlot : ∀ type, Slot.isByValue ⟨type, false⟩ = true → slot ≠ ⟨type, false⟩ := by
    rintro type byValue rfl
    rw [notNumber] at byValue
    cases byValue
  constructor
  · rw [address, told]
  · exact fun w => iff_of_false (fun ⟨v, e⟩ => noNumber _ e) (noSlot _ rfl)
  · exact fun w v e => absurd e (noNumber _)
  · exact iff_of_false (fun ⟨x, e⟩ => noNumber _ e) (noSlot _ rfl)
  · exact iff_of_false (fun ⟨x, e⟩ => noNumber _ e) (noSlot _ rfl)
  · simp only [address, notNumber]

/-- a slot for a word or a wire value is for an address, indirect or not -/
theorem Slot.address_of_type {slot : Slot} (type : slot.type = .pointer ∨ ∃ kind, slot.type = .wire kind) :
    slot.machineType = .address ∧ slot.isByValue = false := by
  obtain ⟨found, indirect⟩ := slot
  rcases type with rfl | ⟨kind, rfl⟩
  · cases indirect <;> exact ⟨rfl, rfl⟩
  · cases indirect <;> exact ⟨rfl, rfl⟩

/-- the slot type for a number of this type -/
def Number.slotType : Number → SlotType
  | int w _ => .int w
  | float32 _ => .float32
  | float64 _ => .float64

/-- a number in the slot by value for numbers of its type -/
theorem Slot.stores_number {n : Number} {value : HostValue}
    (exact : ∀ w v, n = .int w v → ∃ host : HostInt, value = .int host ∧ host.val = v.val) :
    Slot.Stores ⟨n.slotType, false⟩ value (.number n) := by
  cases n with
  | int w v =>
    refine ⟨rfl, ?_, ?_, by simp [Number.slotType], by simp [Number.slotType], ?_⟩
    · intro other
      constructor
      · rintro ⟨v', e⟩
        cases e
        rfl
      · intro e
        cases e
        exact ⟨v, rfl⟩
    · rintro other v' e
      cases e
      exact exact w v rfl
    · simp [Argument.machineType, isByValue, Number.slotType]
  | float32 x =>
    exact ⟨rfl, by simp [Number.slotType], by simp, by simp [Number.slotType], by simp [Number.slotType],
      by simp [Argument.machineType, isByValue, Number.slotType]⟩
  | float64 x =>
    exact ⟨rfl, by simp [Number.slotType], by simp, by simp [Number.slotType], by simp [Number.slotType],
      by simp [Argument.machineType, isByValue, Number.slotType]⟩

namespace Signature

variable {s : Signature} {value : HostValue} {argument : Argument}

/-- the three ways in which an argument is made ready: a bare word, a number, or a wire value -/
theorem prepare_ok_cases (prepared : (s.prepare value).result = .ok argument) :
    (s.shape = .hole none ∧ ∃ v : HostInt, value = .int v ∧ argument = .word v.register) ∨
    (s.isScalar = true ∧ ∃ n, Number.ofValue s value = .ok n ∧
      argument = if s.access = .owned then .number n else .cell n) ∨
    (s.isScalar = false ∧ s.firstHole? = none ∧ ∃ wire, (s.encodeValue value).result = .ok wire ∧
      argument = if s.access.isReference then .borrowed wire else .moved wire) := by
  unfold prepare at prepared
  split at prepared
  · next word =>
    split at prepared
    · cases prepared
      exact .inl ⟨isWord_iff.1 word, _, rfl, rfl⟩
    · split at prepared <;> cases prepared
  · split at prepared
    · next scalar =>
      obtain ⟨n, stored, made⟩ := bind_ok_iff.1 prepared
      exact .inr (.inl ⟨scalar, n, stored, (Except.ok.inj made).symm⟩)
    · next scalar =>
      obtain ⟨wire, encoded, made⟩ := bind_ok_iff.1 prepared
      obtain ⟨resolved, encoded⟩ := encode_ok_iff.1 encoded
      exact .inr (.inr ⟨Bool.eq_false_iff.2 scalar, resolved, wire, encoded, (Except.ok.inj made).symm⟩)

/-- a number is stored at the type that it is declared with -/
theorem typeOf_of_ofValue {n : Number} (stored : Number.ofValue s value = .ok n) : Slot.typeOf s.shape = n.slotType := by
  unfold Number.ofValue at stored
  split at stored
  · next shape =>
    obtain ⟨-, rfl⟩ := Number.ofInt_eq_ok_iff.1 stored
    rw [shape]
    rfl
  · next shape => rw [shape, ← Except.ok.inj stored]; rfl
  · next shape => rw [shape, ← Except.ok.inj stored]; rfl
  · next shape => rw [shape, ← Except.ok.inj stored]; rfl
  · next shape => rw [shape, ← Except.ok.inj stored]; rfl
  · cases stored

/-- an integer keeps its value when it is stored -/
theorem exact_of_ofValue {w : IntWidth} {v : BoundedInt w} (stored : Number.ofValue s value = .ok (.int w v)) :
    ∃ host : HostInt, value = .int host ∧ host.val = v.val := by
  unfold Number.ofValue at stored
  split at stored
  · next host _ =>
    obtain ⟨holds, same⟩ := Number.ofInt_eq_ok_iff.1 stored
    cases same
    exact ⟨host, rfl, rfl⟩
  all_goals cases stored

/-- what is encoded and not a number goes into a slot for a wire value -/
theorem typeOf_of_encodeValue {wire : WireValue} (scalar : s.isScalar = false)
    (encoded : (s.encodeValue value).result = .ok wire) : ∃ kind, Slot.typeOf s.shape = .wire kind := by
  obtain ⟨access, shape⟩ := s
  cases shape with
  | primitive kind =>
    cases kind with
    | bool => exact ⟨_, rfl⟩
    | text => exact ⟨_, rfl⟩
    | _ => cases scalar
  | tuple elems => exact ⟨_, rfl⟩
  | list elem => exact ⟨_, rfl⟩
  | dict kind item => exact ⟨_, rfl⟩
  | hole head => exact absurd encoded encodeValue_hole_not_ok
  | void => exact absurd encoded encodeValue_void_not_ok

/-- **The two classifications of a parameter agree**: an argument made ready for a type is stored as the slot of the type says,
whatever the access is. -/
theorem stores_of_prepare (prepared : (s.prepare value).result = .ok argument) :
    (Slot.ofSignature s).Stores value argument := by
  rcases prepare_ok_cases prepared with ⟨shape, v, rfl, rfl⟩ | ⟨-, n, stored, rfl⟩ | ⟨scalar, -, wire, encoded, rfl⟩
  · -- a bare word
    have type : (Slot.ofSignature s).type = .pointer := congrArg Slot.typeOf shape
    obtain ⟨told, notNumber⟩ := Slot.address_of_type (.inl type)
    exact Slot.stores_address rfl told notNumber
  · have type := typeOf_of_ofValue stored
    split_ifs with owned
    · -- a number in a register
      rw [Slot.ofSignature, owned, type]
      apply Slot.stores_number
      rintro w v rfl
      exact exact_of_ofValue stored
    · -- a number behind an address
      have indirect : (s.access != .owned) = true := bne_iff_ne.2 owned
      rw [Slot.ofSignature, indirect, type]
      refine Slot.stores_address rfl ?_ rfl
      cases n <;> rfl
  · -- a wire value, lent or moved
    have type : ∃ kind, (Slot.ofSignature s).type = .wire kind := typeOf_of_encodeValue scalar encoded
    obtain ⟨told, notNumber⟩ := Slot.address_of_type (.inr type)
    refine Slot.stores_address ?_ told notNumber
    split_ifs <;> rfl

end Signature

/-! ## The arguments of a call -/

namespace BoundFunction

/-- every argument that was prepared was made ready for the parameter at its place from the value at its place -/
theorem forall₂_of_prepareFrom (f : BoundFunction) {i : Nat} {params : List Signature} {values : List HostValue}
    {arguments : List Argument} (prepared : (f.prepareFrom i params values).result = .ok arguments) :
    List.Forall₂ (fun part argument => (Signature.prepare part.1 part.2).result = .ok argument) (params.zip values)
      arguments := by
  induction params generalizing i values arguments with
  | nil =>
    have nothing : Except.ok [] = Except.ok arguments := prepared
    cases nothing
    exact .nil
  | cons s rest ih =>
    cases values with
    | nil =>
      have nothing : Except.ok [] = Except.ok arguments := prepared
      cases nothing
      exact .nil
    | cons value values =>
      rw [prepareFrom] at prepared
      obtain ⟨first, hf, prepared⟩ := bind_ok_iff.1 prepared
      obtain ⟨others, ho, prepared⟩ := bind_ok_iff.1 prepared
      rw [result_releasingOnFault] at ho
      cases prepared
      exact .cons (mapFault_ok_iff.1 hf) (ih ho)

theorem length_of_checkArguments {f : BoundFunction} {values : List HostValue}
    (checked : f.checkArguments values = .ok ()) : values.length = f.interface.arity := by
  unfold checkArguments at checked
  split at checked
  · assumption
  · cases checked

/-- the arguments are as many as the parameters, and each is stored as the slot of its parameter says, of which the call
interface was told when it was set up -/
structure StoredAsDeclared (f : BoundFunction) (values : List HostValue) (arguments : List Argument) : Prop where
  count : arguments.length = f.interface.arity
  expected : f.target.arity = f.interface.arity
  stored : ∀ i < f.interface.arity, ∃ slot value argument, f.interface.slots[i]? = some slot ∧ values[i]? = some value ∧
    arguments[i]? = some argument ∧ f.target.params[i]? = some slot.machineType ∧ slot.Stores value argument

theorem storedAsDeclared_of_prepareFrom {f : BoundFunction} {values : List HostValue} {arguments : List Argument}
    (consistent : f.Consistent) (same : values.length = f.interface.arity)
    (prepared : (f.prepareFrom 0 f.interface.params values).result = .ok arguments) :
    f.StoredAsDeclared values arguments := by
  have parts := f.forall₂_of_prepareFrom prepared
  have zipped : (f.interface.params.zip values).length = f.interface.arity := by
    rw [List.length_zip, same, Interface.arity, Nat.min_self]
  have count : arguments.length = f.interface.arity := parts.length_eq.symm.trans zipped
  have slots : f.interface.slots = f.interface.params.map Slot.ofSignature := by rw [consistent.interface]; rfl
  have told : f.target.params = f.interface.slots.map Slot.machineType := by rw [consistent.target]; rfl
  refine ⟨count, by rw [consistent.target]; rfl, ?_⟩
  intro i lt
  have inParams : i < f.interface.params.length := lt
  have inValues : i < values.length := same ▸ lt
  have inArguments : i < arguments.length := count ▸ lt
  have made : (f.interface.params[i].prepare values[i]).result = .ok arguments[i] := by
    have part := parts.get (zipped ▸ lt) inArguments
    simpa using part
  refine ⟨Slot.ofSignature f.interface.params[i], values[i], arguments[i], ?_, List.getElem?_eq_getElem inValues,
    List.getElem?_eq_getElem inArguments, ?_, Signature.stores_of_prepare made⟩
  · rw [slots, List.getElem?_map, List.getElem?_eq_getElem inParams, Option.map_some]
  · rw [told, slots, List.getElem?_map, List.getElem?_map, List.getElem?_eq_getElem inParams, Option.map_some,
      Option.map_some]

section Calls

variable {α : Type}

/-- what is promised of a way to call a function: if the native function takes part in the call at all, it is run with one list
of arguments, and these are stored as declared -/
structure PassesAsDeclared (call : BoundFunction → List HostValue → Metered α) (f : BoundFunction)
    (values : List HostValue) : Prop where
  once : ¬ NotRun call f values → ∃! arguments, RunsWith call f values arguments
  stored : ∀ arguments, RunsWith call f values arguments → f.StoredAsDeclared values arguments

theorem passesAsDeclared_of_inStages {check : BoundFunction → List HostValue → Except Fault Unit}
    {after : BoundFunction → RawCall → Metered α} {call : BoundFunction → List HostValue → Metered α} {f : BoundFunction}
    {values : List HostValue} (stages : InStages check after call) (consistent : f.Consistent)
    (arguments_checked : check f values = .ok () → f.checkArguments values = .ok ()) : PassesAsDeclared call f values := by
  refine ⟨stages.existsUnique_runsWith, ?_⟩
  intro arguments runs
  obtain ⟨checked, prepared⟩ := stages.runsWith_iff.1 runs
  exact storedAsDeclared_of_prepareFrom consistent (length_of_checkArguments (arguments_checked checked)) prepared

end Calls

/-- **Arguments are stored as their slots say.** An argument made ready for a type is stored as the slot of that type says,
whatever the shape and the access are. So whatever hints a function was given, a call that runs the native function passes
as many arguments as were declared, and the call interface was told of each of them what it is: an integer of some width
just if the slot is for one by value, and then the integer that the host gave; a float likewise; an address otherwise. -/
theorem storage_matches_slots (f : BoundFunction) (reachable : f.Reachable) (values : List HostValue) :
    (∀ (s : Signature) value argument, (s.prepare value).result = .ok argument →
      (Slot.ofSignature s).Stores value argument) ∧
    PassesAsDeclared call f values ∧ PassesAsDeclared callWithReferences f values ∧ PassesAsDeclared callRaw f values := by
  have consistent := reachable.consistent
  refine ⟨fun s value argument => Signature.stores_of_prepare, ?_, ?_, ?_⟩
  · exact passesAsDeclared_of_inStages inStages_call consistent fun ok => (check_ok_iff.1 ok).1
  · exact passesAsDeclared_of_inStages inStages_callWithReferences consistent fun ok => (check_ok_iff.1 ok).1
  · exact passesAsDeclared_of_inStages inStages_callRaw consistent fun ok => ok

/-- a bare word that a hint has made an integer of 16 bits, a float behind a reference and a list that is moved: the first is
passed in a register of its width, the other two by address -/
theorem storage_matches_slots_hinted_word :
    let native : Native := fun _ => ⟨.word 0, [], 0⟩
    let declared := BoundFunction.declared "mix" "mix_impl" "lib" (.of [.word, ⟨.borrowedMut, .primitive .float32⟩,
      .owned (.list (.owned (.primitive .bool)))] (.owned .void)) native
    let values : List HostValue := [.int ⟨-2, by decide⟩, .int ⟨3, by decide⟩, .list [.bool true]]
    ∃ f arguments, declared.hintParam 0 (.owned (.primitive (.int .i16))) = .ok f ∧ RunsWith call f values arguments ∧
      arguments.map Argument.machineType = [.int .i16, .address, .address] ∧ f.StoredAsDeclared values arguments := by
  intro native declared values
  let hint : Signature := .owned (.primitive (.int .i16))
  let f := declared.redeclare (declared.interface.withParam 0 hint)
  have hinted : declared.hintParam 0 hint = .ok f := rfl
  have reachable : f.Reachable := .hinted (f := declared) (.declared _ _ _ _ _ _) (.param 0 hint hinted)
  have ready : f.check values = .ok () := rfl
  have runs := inStages_call.runsWith_of_ready ready rfl
  exact ⟨f, _, hinted, runs, rfl, (storage_matches_slots f reachable values).2.1.stored _ runs⟩

end BoundFunction

end NativeBridge
