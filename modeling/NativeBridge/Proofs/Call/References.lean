/-
Calls that read back what references point at, against calls that do not. Both do the same up to the result; what comes after it
in the one can only fail. What is told about an argument follows from its type, and a reference whose memory the native function
has left as it was is read back as what was passed, with its floats as declared: numbers, which are stored in memory of their
width, like wire values, which are encoded and decoded.

- `Kept.Unchanged`: the same memory, up to the order in which dictionaries list their entries.
- `call_ok_of_references`, `references_fault_of_call`: the two ways to call a function agree.
- `Signature.read_of_ofValue`: a number comes out of memory as it would come out of a wire value.
- `Signature.tells_cell`, `Signature.tells_borrowed`, `Signature.tells_of_prepare`: what is told about one argument, by the way in
  which it was prepared.
- `references_agree_and_read_back`: all of this for whole calls.
-/
import NativeBridge.Proofs.Call.Custody
import NativeBridge.Proofs.Call.Storage
import NativeBridge.Proofs.Codec.RoundTrip

namespace NativeBridge

open Metered

/-! ## Arguments after a call -/

theorem Kept.getElem?_ofArguments (arguments : List Argument) (written : List Written) (i : Nat) :
    (ofArguments arguments written)[i]? =
      arguments[i]?.map fun argument => ofArgument argument (written[i]?.getD .nothing) := by
  induction arguments generalizing written i with
  | nil => simp [ofArguments]
  | cons argument rest ih =>
    cases written with
    | nil => cases i <;> simp [ofArguments, ih]
    | cons w ws => cases i <;> simp [ofArguments, ih]

theorem Access.isReference_eq_false_iff {access : Access} :
    access.isReference = false ↔ access = .owned ∨ access = .rawConst ∨ access = .rawMut := by
  cases access <;> simp [isReference]

/-- the same memory, but that dictionaries in a wire value may list their entries in another order -/
inductive Kept.Unchanged : Kept → Kept → Prop
  | byValue : Unchanged .byValue .byValue
  | moved : Unchanged .moved .moved
  | cell (n : Number) : Unchanged (.cell n) (.cell n)
  | borrowed {wire other : WireValue} (same : wire.Reordered other) : Unchanged (.borrowed wire) (.borrowed other)

namespace Signature

variable {s : Signature} {value : HostValue}

/-- what is passed for the type is a number or a word in a register -/
def PassedByValue (s : Signature) : Prop := s.shape = .hole none ∨ s.isScalar = true ∧ s.access = .owned

/-- what is passed for the type is a wire value that the native function takes over -/
def PassedAway (s : Signature) : Prop :=
  (∃ kind, Slot.typeOf s.shape = .wire kind) ∧ (s.access = .owned ∨ s.access = .rawConst ∨ s.access = .rawMut)

/-- what a call with references tells about an argument of this type and value; if the memory that was passed is `unchanged`,
the value that is read is the one that encoding and decoding give, whatever the order of dictionaries in between -/
structure Tells (s : Signature) (value : HostValue) (unchanged : Prop) (told : ArgumentResult) : Prop where
  byValue : told = .byValue ↔ s.PassedByValue
  moved : told = .moved ↔ s.PassedAway
  read : (∃ v, told = .read v) ↔ ¬ s.PassedByValue ∧ ¬ s.PassedAway
  faithful : unchanged → value.WellFormed → ∀ v, told = .read v → v = s.coerce value ∧
    ∃ wire, (s.encode value).result = .ok wire ∧ ∀ other, wire.Reordered other → (s.decode other).result = .ok v

/-- A number that is stored is encoded as well, and is read from memory as the wire value is decoded. -/
theorem read_of_ofValue {n : Number} (stored : Number.ofValue s value = .ok n) :
    n.read = .ok (s.coerce value) ∧ ∃ wire, (s.encode value).result = .ok wire := by
  obtain ⟨access, shape⟩ := s
  unfold Number.ofValue at stored
  split at stored
  · next w v same =>
    obtain rfl : shape = .primitive (.int w) := same
    obtain ⟨holds, rfl⟩ := Number.ofInt_eq_ok_iff.1 stored
    have back : BoundedInt.ofInt? .i64 v.val = some v := BoundedInt.ofInt?_eq_some_iff.2 rfl
    refine ⟨?_, .int v, encode_ok_iff.2 ⟨rfl, ?_⟩⟩
    · rw [Number.read, back]
      rfl
    · rw [result_encodeValue_primitive]
      exact encodePrimitive_int_ok_iff.2 ⟨v, rfl, holds, rfl⟩
  · next x same =>
    obtain rfl : shape = .primitive .float32 := same
    cases stored
    exact ⟨rfl, _, rfl⟩
  · next v same =>
    obtain rfl : shape = .primitive .float32 := same
    cases stored
    exact ⟨rfl, _, rfl⟩
  · next x same =>
    obtain rfl : shape = .primitive .float64 := same
    cases stored
    exact ⟨rfl, _, rfl⟩
  · next v same =>
    obtain rfl : shape = .primitive .float64 := same
    cases stored
    exact ⟨rfl, _, rfl⟩
  · cases stored

theorem PassedByValue.not_passedAway (h : s.PassedByValue) : ¬ s.PassedAway := by
  rintro ⟨⟨kind, type⟩, -⟩
  obtain ⟨access, shape⟩ := s
  rcases h with rfl | ⟨scalar, -⟩
  · cases type
  · cases shape with
    | primitive primitive =>
      cases primitive with
      | bool => cases scalar
      | text => cases scalar
      | _ => cases type
    | _ => cases scalar

theorem Tells.imp {p q : Prop} {told : ArgumentResult} (imp : p → q) (tells : s.Tells value q told) : s.Tells value p told :=
  ⟨tells.byValue, tells.moved, tells.read, fun unchanged => tells.faithful (imp unchanged)⟩

theorem tells_byValue {unchanged : Prop} (here : s.PassedByValue) : s.Tells value unchanged .byValue :=
  ⟨iff_of_true rfl here, iff_of_false nofun here.not_passedAway, iff_of_false nofun fun h => h.1 here, nofun⟩

theorem tells_moved {unchanged : Prop} (away : s.PassedAway) : s.Tells value unchanged .moved :=
  ⟨iff_of_false nofun fun here => here.not_passedAway away, iff_of_true rfl away, iff_of_false nofun fun h => h.2 away, nofun⟩

theorem tells_read {unchanged : Prop} {v : HostValue} (notByValue : ¬ s.PassedByValue) (notAway : ¬ s.PassedAway)
    (faithful : unchanged → value.WellFormed → v = s.coerce value ∧ ∃ wire, (s.encode value).result = .ok wire) :
    s.Tells value unchanged (.read v) := by
  refine ⟨iff_of_false nofun notByValue, iff_of_false nofun notAway, iff_of_true ⟨v, rfl⟩ ⟨notByValue, notAway⟩, ?_⟩
  rintro unchanged ordered _ ⟨⟩
  obtain ⟨rfl, wire, encoded⟩ := faithful unchanged ordered
  exact ⟨rfl, wire, encoded, fun other => decode_of_encode ordered encoded⟩

/-- a number in memory: what is told is what stands there after the call -/
theorem tells_cell {n m : Number} {told : ArgumentResult} (stored : Number.ofValue s value = .ok n) (lent : s.access ≠ .owned)
    (readBack : ((Kept.cell m).readBack s).result = .ok told) : s.Tells value (Kept.Unchanged (.cell n) (.cell m)) told := by
  obtain ⟨v, read, made⟩ := bind_ok_iff.1 readBack
  cases made
  have type := typeOf_of_ofValue stored
  apply tells_read
  · rintro (shape | ⟨-, owned⟩)
    · rw [shape] at type
      cases n <;> cases type
    · exact lent owned
  · rintro ⟨⟨kind, wire⟩, -⟩
    rw [type] at wire
    cases n <;> cases wire
  · intro unchanged ordered
    cases unchanged
    obtain ⟨back, encodable⟩ := read_of_ofValue stored
    exact ⟨Except.ok.inj (read.symm.trans back), encodable⟩

/-- a wire value that was lent: what is told is what it is after the call -/
theorem tells_borrowed {wire after : WireValue} {told : ArgumentResult} (notByValue : ¬ s.PassedByValue)
    (reference : s.access.isReference = true) (encoded : (s.encode value).result = .ok wire)
    (readBack : ((Kept.borrowed after).readBack s).result = .ok told) :
    s.Tells value (Kept.Unchanged (.borrowed wire) (.borrowed after)) told := by
  obtain ⟨v, read, made⟩ := bind_ok_iff.1 readBack
  cases made
  apply tells_read notByValue
  · rintro ⟨-, access⟩
    rw [Access.isReference_eq_false_iff.2 access] at reference
    cases reference
  · intro unchanged ordered
    cases unchanged with
    | borrowed same =>
      have back := decode_of_encode ordered encoded same
      exact ⟨Except.ok.inj (read.symm.trans back), wire, encoded⟩

/-- What is told about an argument follows from the way in which it was prepared. -/
theorem tells_of_prepare {argument : Argument} {w : Written} {told : ArgumentResult}
    (prepared : (s.prepare value).result = .ok argument)
    (readBack : ((Kept.ofArgument argument w).readBack s).result = .ok told) :
    s.Tells value (Kept.Unchanged (.ofArgument argument .nothing) (.ofArgument argument w)) told := by
  rcases prepare_ok_cases prepared with ⟨shape, v, rfl, rfl⟩ | ⟨scalar, n, stored, rfl⟩ | ⟨scalar, resolved, wire, encoded, rfl⟩
  · -- a bare word
    cases readBack
    exact tells_byValue (.inl shape)
  · split_ifs at readBack ⊢ with owned
    · -- a number in a register
      cases readBack
      exact tells_byValue (.inr ⟨scalar, owned⟩)
    · obtain ⟨m, kept⟩ : ∃ m, Kept.ofArgument (.cell n) w = .cell m := by cases w <;> exact ⟨_, rfl⟩
      rw [kept] at readBack ⊢
      exact tells_cell stored owned readBack
  · have type := typeOf_of_encodeValue scalar encoded
    split_ifs at readBack ⊢ with reference
    · obtain ⟨after, kept⟩ : ∃ after, Kept.ofArgument (.borrowed wire) w = .borrowed after := by cases w <;> exact ⟨_, rfl⟩
      rw [kept] at readBack ⊢
      have notByValue : ¬ s.PassedByValue := by
        rintro (shape | ⟨scalar', -⟩)
        · obtain ⟨kind, type⟩ := type
          rw [shape] at type
          cases type
        · rw [scalar] at scalar'
          cases scalar'
      exact tells_borrowed notByValue reference (encode_ok_iff.2 ⟨resolved, encoded⟩) readBack
    · -- a wire value that was moved
      cases readBack
      exact tells_moved ⟨type, Access.isReference_eq_false_iff.1 (Bool.eq_false_iff.2 reference)⟩

end Signature

/-! ## Whole calls -/

namespace BoundFunction

variable {f : BoundFunction} {values : List HostValue}

/-- a call that succeeds with its references read back succeeds without, and has the same result -/
theorem call_ok_of_references {out : CallResult} (h : (f.callWithReferences values).result = .ok out) :
    (f.call values).result = .ok out.result := by
  unfold callWithReferences at h
  obtain ⟨u, checked, h⟩ := bind_ok_iff.1 h
  obtain ⟨raw, ran, h⟩ := bind_ok_iff.1 h
  obtain ⟨result, decoded, h⟩ := bind_ok_iff.1 h
  obtain ⟨told, -, h⟩ := bind_ok_iff.1 h
  cases h
  unfold call
  exact bind_ok_iff.2 ⟨u, checked, bind_ok_iff.2 ⟨raw, ran, bind_ok_iff.2 ⟨result, decoded, bind_ok_iff.2 ⟨(), rfl, rfl⟩⟩⟩⟩

/-- a call that fails without reading anything back fails in the same way if it were to read back -/
theorem references_fault_of_call {fault : Fault} (h : (f.call values).result = .error fault) :
    (f.callWithReferences values).result = .error fault := by
  unfold call at h
  unfold callWithReferences
  rcases bind_fault_iff.1 h with refused | ⟨u, checked, h⟩
  · exact bind_fault_iff.2 (.inl refused)
  refine bind_fault_iff.2 (.inr ⟨u, checked, ?_⟩)
  rcases bind_fault_iff.1 h with failed | ⟨raw, ran, h⟩
  · exact bind_fault_iff.2 (.inl failed)
  refine bind_fault_iff.2 (.inr ⟨raw, ran, ?_⟩)
  rcases bind_fault_iff.1 h with undecoded | ⟨result, decoded, h⟩
  · exact bind_fault_iff.2 (.inl undecoded)
  · rcases bind_fault_iff.1 h with h | ⟨-, -, h⟩ <;> cases h

/-- what is told about the arguments, one by one -/
theorem forall₂_of_readBackFrom {i : Nat} {params : List Signature} {kept : List Kept} {told : List ArgumentResult}
    (h : (f.readBackFrom i params kept).result = .ok told) :
    List.Forall₂ (fun part told => (Kept.readBack part.1 part.2).result = .ok told) (params.zip kept) told := by
  induction params generalizing i kept told with
  | nil =>
    have nothing : Except.ok [] = Except.ok told := h
    cases nothing
    exact .nil
  | cons s rest ih =>
    cases kept with
    | nil =>
      have nothing : Except.ok [] = Except.ok told := h
      cases nothing
      exact .nil
    | cons first others =>
      rw [readBackFrom] at h
      obtain ⟨here, read, h⟩ := bind_ok_iff.1 h
      obtain ⟨rest, others, h⟩ := bind_ok_iff.1 h
      rw [result_releasingOnFault] at read
      cases h
      exact .cons (mapFault_ok_iff.1 read) (ih others)

/-- the native function, run with these arguments, has left the memory behind argument `i` as it was, in whatever order
dictionaries list their entries now -/
def LeavesUnchanged (f : BoundFunction) (arguments : List Argument) (i : Nat) : Prop :=
  Option.Rel Kept.Unchanged (Kept.ofArguments arguments [])[i]?
    (Kept.ofArguments arguments (f.target.native arguments).written)[i]?

/-- what the native function was run with in a call that succeeded, and what is told about it afterwards -/
theorem stages_of_references {out : CallResult} (h : (f.callWithReferences values).result = .ok out) :
    f.check values = .ok () ∧ ∃ arguments, (f.prepareFrom 0 f.interface.params values).result = .ok arguments ∧
      (f.readBackFrom 0 f.interface.params (Kept.ofArguments arguments (f.target.native arguments).written)).result =
        .ok out.arguments := by
  unfold callWithReferences at h
  obtain ⟨_, checked, h⟩ := bind_ok_iff.1 h
  obtain ⟨raw, ran, h⟩ := bind_ok_iff.1 h
  obtain ⟨result, -, h⟩ := bind_ok_iff.1 h
  obtain ⟨told, read, h⟩ := bind_ok_iff.1 h
  cases h
  obtain ⟨arguments, prepared, invoked⟩ := bind_ok_iff.1 (f.run_eq values ▸ ran)
  obtain rfl := invoke_of_ok invoked
  exact ⟨checked, arguments, prepared, read⟩

/-- **Reading back changes nothing but what is told.** A call that reads back its references succeeds only if the call without
does, with the same result, and fails as that does. About each argument it tells what its type says: nothing of a bare word or
an owned number, that it is gone of a wire value that was not lent, and of all else the value that is there after the call. If
the native function has left this as it was, it is the value that was passed, as encoding and decoding would give it, whatever the
order in which dictionaries list their entries by then. -/
theorem references_agree_and_read_back (f : BoundFunction) (values : List HostValue) :
    (∀ out, (f.callWithReferences values).result = .ok out → (f.call values).result = .ok out.result) ∧
    (∀ fault, (f.call values).result = .error fault → (f.callWithReferences values).result = .error fault) ∧
    ∀ out, (f.callWithReferences values).result = .ok out →
      ∃ arguments, RunsWith callWithReferences f values arguments ∧ out.arguments.length = f.interface.arity ∧
        ∀ i < f.interface.arity, ∃ s value told, f.interface.params[i]? = some s ∧ values[i]? = some value ∧
          out.arguments[i]? = some told ∧ s.Tells value (f.LeavesUnchanged arguments i) told := by
  refine ⟨fun out => call_ok_of_references, fun fault => references_fault_of_call, ?_⟩
  intro out succeeded
  obtain ⟨checked, arguments, prepared, read⟩ := stages_of_references succeeded
  have made := f.forall₂_of_prepareFrom prepared
  have told := forall₂_of_readBackFrom read
  have same : values.length = f.interface.arity := length_of_checkArguments (check_ok_iff.1 checked).1
  have count : arguments.length = f.interface.arity := by
    rw [← made.length_eq, List.length_zip, same, Interface.arity, Nat.min_self]
  have zipped : (f.interface.params.zip (Kept.ofArguments arguments (f.target.native arguments).written)).length =
      f.interface.arity := by
    rw [List.length_zip, Kept.length_ofArguments, count, Interface.arity, Nat.min_self]
  have all : out.arguments.length = f.interface.arity := told.length_eq.symm.trans zipped
  refine ⟨arguments, inStages_callWithReferences.runsWith_of_ready checked prepared, all, ?_⟩
  intro i lt
  have inParams : i < f.interface.params.length := lt
  have inValues : i < values.length := same ▸ lt
  have inArguments : i < arguments.length := count ▸ lt
  have inTold : i < out.arguments.length := all ▸ lt
  refine ⟨f.interface.params[i], values[i], out.arguments[i], List.getElem?_eq_getElem inParams,
    List.getElem?_eq_getElem inValues, List.getElem?_eq_getElem inTold, ?_⟩
  have here : (f.interface.params[i].prepare values[i]).result = .ok arguments[i] := by
    have part := made.get (made.length_eq ▸ inArguments) inArguments
    simpa using part
  have kept (written : List Written) : (Kept.ofArguments arguments written)[i]? =
      some (Kept.ofArgument arguments[i] (written[i]?.getD .nothing)) := by
    rw [Kept.getElem?_ofArguments, List.getElem?_eq_getElem inArguments, Option.map_some]
  have there : ((Kept.ofArgument arguments[i] ((f.target.native arguments).written[i]?.getD .nothing)).readBack
      f.interface.params[i]).result = .ok out.arguments[i] := by
    have part := told.get (zipped ▸ lt) inTold
    obtain ⟨lt', listed⟩ := List.getElem?_eq_some_iff.1 (kept (f.target.native arguments).written)
    simpa [listed] using part
  refine (Signature.tells_of_prepare here there).imp fun unchanged => ?_
  rw [LeavesUnchanged, kept, kept, Option.rel_some_some] at unchanged
  exact unchanged

/-- a function with a number and a dictionary lent to it, a number in a register and a truth value behind a raw pointer, which
leaves the dictionary as it was but for the order of its entries: the integers in the place of floats are read back as floats,
from memory as from a wire value -/
theorem references_agree_and_read_back_integers_for_floats :
    let float : Signature := .owned (.primitive .float32)
    let three : HostInt := ⟨3, by decide⟩
    let four : HostInt := ⟨4, by decide⟩
    let turned : WireValue := .dict .bool [(.bool true, .float32 (.ofHostInt four)), (.bool false, .float32 (.ofHostInt three))]
    let lent : Signature := ⟨.borrowedMut, .dict .bool float⟩
    let f : BoundFunction := .declared "f" "f" "native"
      (.of [⟨.borrowedMut, .primitive .float32⟩, lent, .owned (.primitive (.int .u8)), ⟨.rawConst, .primitive .bool⟩]
        (.owned .void)) fun _ => { returned := .word 0, written := [.nothing, .value turned] }
    let dict (first second : HostValue) : HostValue := .dict [(.bool false, first), (.bool true, second)]
    let values : List HostValue := [.int three, dict (.int three) (.int four), .int three, .bool true]
    let read (n : HostInt) : HostValue := .float (Binary32.ofHostInt n).widen
    ∃ out, (f.callWithReferences values).result = .ok out ∧ (f.call values).result = .ok out.result ∧
      out.arguments = [.read (read three), .read (dict (read three) (read four)), .byValue, .moved] ∧
      ∃ wire, (lent.encode (dict (.int three) (.int four))).result = .ok wire ∧
        ∀ other, wire.Reordered other → (lent.decode other).result = .ok (dict (read three) (read four)) := by
  intro float three four turned lent f dict values read
  have succeeded : (f.callWithReferences values).result =
      .ok ⟨.none, [.read (read three), .read (dict (read three) (read four)), .byValue, .moved]⟩ := rfl
  obtain ⟨agree, -, told⟩ := references_agree_and_read_back f values
  obtain ⟨arguments, runs, -, positions⟩ := told _ succeeded
  have unchanged : f.LeavesUnchanged arguments 1 := by
    cases (inStages_callWithReferences.runsWith_iff.1 runs).2
    exact .some (.borrowed (.dict rfl (.cons (.refl _) (.cons (.refl _) .nil)) (.swap _ _ _)))
  have ordered : (dict (.int three) (.int four)).WellFormed := by
    refine .dict (List.pairwise_pair.2 (by decide)) ?_
    intro entry mem
    rcases List.mem_pair.1 mem with rfl | rfl
    · exact .int three
    · exact .int four
  obtain ⟨s, value, answer, param, given, listed, tells⟩ := positions 1 (by decide)
  cases param
  cases given
  cases listed
  exact ⟨_, succeeded, agree _ succeeded, rfl, (tells.faithful unchanged ordered _ rfl).2⟩

end BoundFunction

end NativeBridge
