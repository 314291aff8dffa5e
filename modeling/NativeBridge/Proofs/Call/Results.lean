/-
Results on their way to the host. The call interface is told of a slot when a function is set up, the slot says what becomes of
the word that comes back, and the type of the result says how that is decoded: three descriptions that have to agree.

- `IntWidth.ofSlot_extend`: an integer is the low bits of the register, sign- or zero-extended, if the host has such an integer.
- `Suits`: a result in the form in which it is decoded for its type; `suits_receive` says that owned results have it.
- `result_delivered`: what the host gets for every kind of owned result, and for nothing and for bare words in any access.
- `wire_result_adopted_iff_owned`: a wire value is taken over, decoded and released if it is owned, and left alone otherwise.
- `raw_pointer_result_left_alone`: so a text that is returned behind a raw pointer is never released.
-/
import Mathlib.Tactic
import NativeBridge.Proofs.Call.MachineTypes
import NativeBridge.Proofs.Call.Stages
import NativeBridge.Proofs.Codec.Release
import NativeBridge.Proofs.IntWidth

namespace NativeBridge

open Metered

/-! ## Integers -/

namespace IntWidth

/-- the integer is the low bits of the register, sign-extended for a signed width and zero-extended otherwise: the one integer of
the width that differs from the register by a multiple of 2 ^ `bits` -/
structure Extends (w : IntWidth) (register : UInt64) (v : Int) : Prop where
  holds : w.Holds v
  congruent : v ≡ register.toNat [ZMOD 2 ^ w.bits]

theorem extends_wrap (w : IntWidth) (register : UInt64) : w.Extends register (w.wrap register.toNat) :=
  ⟨w.holds_wrap _, w.wrap_modEq _⟩

/-- **What the host gets of an integer result**: the low bits of the register, extended, or a fault if they are an integer of 64
bits without sign that is too large for the host. -/
theorem ofSlot_extend (w : IntWidth) (register : UInt64) :
    ∃ low, w.Extends register low ∧
      ((∃ n : HostInt, n.val = low ∧ w.ofSlot (w.extend register) = .ok n) ∨
        w = .u64 ∧ IntWidth.i64.greatest < low ∧
          w.ofSlot (w.extend register) = .error (.intOutOfRange .u64 low [])) := by
  refine ⟨w.wrap register.toNat, w.extends_wrap register, ?_⟩
  have holds := w.holds_wrap register.toNat
  unfold ofSlot extend
  generalize w.wrap register.toNat = low at holds ⊢
  by_cases fits : IntWidth.i64.Holds low
  · have same : (BoundedInt.wrap .i64 low).val = low := wrap_of_holds fits
    refine .inl ⟨.wrap .i64 low, same, if_neg ?_⟩
    rintro ⟨rfl, negative⟩
    rw [same] at negative
    have := holds.1
    simp only [least] at this
    omega
  · -- the host reads the pattern with a sign, and the fault is about what it stands for without
    obtain rfl : w = .u64 := by
      by_contra narrow
      exact fits (holds_i64 narrow holds)
    simp only [Holds, least, greatest] at holds fits
    have pattern : (BoundedInt.wrap .i64 low).val = low - 2 ^ 64 := by
      refine wrap_eq_of_modEq ?_ ?_
      · simp only [Holds, least, greatest]
        omega
      · exact Int.modEq_iff_dvd.2 ⟨1, by simp only [bits]; omega⟩
    have back : IntWidth.wrap .u64 (low - 2 ^ 64) = low := by
      refine wrap_eq_of_modEq ?_ ?_
      · simp only [Holds, least, greatest]
        omega
      · exact Int.modEq_iff_dvd.2 ⟨-1, by simp only [bits]; omega⟩
    refine .inr ⟨rfl, ?_, ?_⟩
    · simp only [greatest]
      omega
    · rw [pattern, if_pos ⟨rfl, by omega⟩, back]

end IntWidth

/-! ## The form of a result -/

/-- the result is in the form in which one of this shape is decoded -/
inductive RawResult.Suits : Shape → RawResult → Prop
  | void : Suits .void .void
  | word (value : UInt64) : Suits (.hole none) (.pointer value)
  | int (w : IntWidth) (value : HostInt) : Suits (.primitive (.int w)) (.int value)
  | float32 (value : Binary32) : Suits (.primitive .float32) (.float32 value)
  | float64 (value : Binary64) : Suits (.primitive .float64) (.float64 value)
  /-- a wire value or null -/
  | wire {shape : Shape} {kind : WireKind} (type : Slot.typeOf shape = .wire kind) (value : Option WireValue) :
      Suits shape (.wire value)

namespace Signature

/-- the host takes the result over or looks at it as it is; there is no address in between that it would not follow -/
def IsDirect (s : Signature) : Prop := s.access = .owned ∨ s.shape = .void ∨ s.shape = .hole none

theorem receive_void {s : Signature} (shape : s.shape = .void) (returned : Returned) :
    returned.receive (Slot.ofSignature s) = .void := by
  unfold Returned.receive Slot.ofSignature
  rw [shape]
  rfl

theorem receive_word {s : Signature} (shape : s.shape = .hole none) (returned : Returned) :
    returned.receive (Slot.ofSignature s) = .pointer returned.bits := by
  unfold Returned.receive Slot.ofSignature
  rw [shape]
  cases s.access != .owned <;> rfl

theorem receive_int {s : Signature} {w : IntWidth} (access : s.access = .owned) (shape : s.shape = .primitive (.int w))
    (returned : Returned) : returned.receive (Slot.ofSignature s) = .int (w.extend returned.bits) := by
  unfold Returned.receive Slot.ofSignature
  rw [access, shape]
  rfl

theorem receive_float32 {s : Signature} (access : s.access = .owned) (shape : s.shape = .primitive .float32)
    (returned : Returned) : returned.receive (Slot.ofSignature s) = .float32 returned.single := by
  unfold Returned.receive Slot.ofSignature
  rw [access, shape]
  rfl

theorem receive_float64 {s : Signature} (access : s.access = .owned) (shape : s.shape = .primitive .float64)
    (returned : Returned) : returned.receive (Slot.ofSignature s) = .float64 returned.double := by
  unfold Returned.receive Slot.ofSignature
  rw [access, shape]
  rfl

theorem receive_wire {s : Signature} {kind : WireKind} (access : s.access = .owned)
    (type : Slot.typeOf s.shape = .wire kind) (returned : Returned) :
    returned.receive (Slot.ofSignature s) = .wire returned.adopted := by
  unfold Returned.receive Slot.ofSignature
  rw [access, type]
  rfl

theorem receive_indirect {s : Signature} (access : s.access ≠ .owned) (shape : s.shape ≠ .void) (returned : Returned) :
    returned.receive (Slot.ofSignature s) = .pointer returned.bits := by
  have indirect : (s.access != .owned) = true := bne_iff_ne.2 access
  unfold Returned.receive Slot.ofSignature
  rw [indirect]
  split
  · next void => exact absurd (typeOf_eq_void_iff.1 void) shape
  · rfl
  all_goals contradiction

/-- a shape is void, a bare word, a number, or it goes into a slot for a wire value -/
theorem shape_cases (shape : Shape) :
    shape = .void ∨ shape = .hole none ∨ (∃ w, shape = .primitive (.int w)) ∨ shape = .primitive .float32 ∨
      shape = .primitive .float64 ∨ ∃ kind, Slot.typeOf shape = .wire kind := by
  cases shape with
  | primitive kind => cases kind <;> simp [Slot.typeOf]
  | hole head => cases head <;> simp [Slot.typeOf]
  | _ => simp [Slot.typeOf]

/-- **Slots and decoder agree**: whatever comes back for a direct result, it arrives in the form in which it is decoded. -/
theorem suits_receive {s : Signature} (direct : s.IsDirect) (returned : Returned) :
    (returned.receive (Slot.ofSignature s)).Suits s.shape := by
  rcases shape_cases s.shape with void | word | number
  · rw [receive_void void, void]
    exact .void
  · rw [receive_word word, word]
    exact .word _
  · have access : s.access = .owned := by
      rcases direct with owned | void | word
      · exact owned
      · simp [void, Slot.typeOf] at number
      · simp [word, Slot.typeOf] at number
    rcases number with ⟨w, int⟩ | float32 | float64 | ⟨kind, type⟩
    · rw [receive_int access int, int]
      exact .int w _
    · rw [receive_float32 access float32, float32]
      exact .float32 _
    · rw [receive_float64 access float64, float64]
      exact .float64 _
    · rw [receive_wire access type]
      exact .wire type _

theorem decodeResult_null (s : Signature) : s.decodeResult (.wire none) = .fail (.nullResult "") := by
  unfold decodeResult
  cases s.shape with
  | primitive kind => cases kind <;> rfl
  | _ => rfl

theorem decodeResult_value (s : Signature) (value : WireValue) : s.decodeResult (.wire (some value)) = s.decode value := by
  unfold decodeResult
  cases s.shape with
  | primitive kind => cases kind <;> rfl
  | _ => rfl

/-- nothing is decoded from an address -/
theorem decodeResult_pointer (s : Signature) (word : UInt64) :
    s.decodeResult (.pointer word) = .fail (.mismatch s.written "pointer") := by
  unfold decodeResult
  cases s.shape with
  | primitive kind => cases kind <;> rfl
  | _ => rfl

end Signature

namespace BoundFunction

/-! ## What the host makes of a result -/

/-- what the host makes of what the native function returned -/
def decodeReturned (f : BoundFunction) (returned : Returned) : Metered HostValue :=
  f.decodeResult (returned.receive f.target.result)

theorem Reachable.decodeReturned_eq {f : BoundFunction} (reachable : f.Reachable) (returned : Returned) :
    f.decodeReturned returned = f.decodeResult (returned.receive (Slot.ofSignature f.interface.result)) := by
  rw [decodeReturned, reachable.consistent.target_result]

theorem decodeResult_of_not_word {f : BoundFunction} (notWord : f.interface.result.shape ≠ .hole none) (raw : RawResult) :
    f.decodeResult raw = (f.interface.result.decodeResult raw).mapFault f.resultFault := by
  unfold decodeResult
  split
  · next word => exact absurd word notWord
  · rfl

/-- a fault of the value that came back only gets the place where it came from -/
theorem resultFault_of_ofValue (f : BoundFunction) {fault : Fault} (h : fault.OfValue) :
    f.resultFault fault = fault.within .result :=
  (h.within .result).forSymbol f.name

theorem mapFault_resultFault (f : BoundFunction) {x : Metered HostValue} (h : FaultsIn Fault.OfValue x) :
    x.mapFault f.resultFault = x.within .result := by
  unfold Metered.within mapFault
  cases result : x.result with
  | ok value => rfl
  | error fault =>
    have placed := f.resultFault_of_ofValue (h fault result)
    simp only [placed]

theorem checkResult_ok_iff {f : BoundFunction} :
    f.checkResult = .ok () ↔ f.interface.result.shape = .hole none ∨ f.interface.result.firstHole? = none := by
  unfold checkResult
  rw [← Signature.isWord_iff]
  cases f.interface.result.isWord with
  | true => simp
  | false => cases f.interface.result.firstHole? <;> simp

section Delivery

variable {f : BoundFunction}

theorem not_word_of_wire {shape : Shape} {kind : WireKind} (type : Slot.typeOf shape = .wire kind) : shape ≠ .hole none := by
  rintro rfl
  cases type

theorem not_void_of_wire {shape : Shape} {kind : WireKind} (type : Slot.typeOf shape = .wire kind) : shape ≠ .void := by
  rintro rfl
  cases type

/-- what is not a bare word is decoded by the signature, in the form in which it arrived -/
theorem decodeReturned_of_receive (reachable : f.Reachable) (notWord : f.interface.result.shape ≠ .hole none)
    {returned : Returned} {raw : RawResult} (received : returned.receive (Slot.ofSignature f.interface.result) = raw) :
    f.decodeReturned returned = (f.interface.result.decodeResult raw).mapFault f.resultFault := by
  rw [reachable.decodeReturned_eq, received, decodeResult_of_not_word notWord]

theorem decodeReturned_void (reachable : f.Reachable) (shape : f.interface.result.shape = .void) (returned : Returned) :
    f.decodeReturned returned = pure .none := by
  have notWord : f.interface.result.shape ≠ .hole none := by rw [shape]; nofun
  rw [decodeReturned_of_receive reachable notWord (Signature.receive_void shape returned)]
  unfold Signature.decodeResult
  rw [shape]
  rfl

theorem decodeReturned_word (reachable : f.Reachable) (shape : f.interface.result.shape = .hole none)
    (returned : Returned) : f.decodeReturned returned = pure (.int (.wrap .i64 returned.bits.toNat)) := by
  rw [reachable.decodeReturned_eq, Signature.receive_word shape]
  unfold decodeResult
  rw [shape]

theorem decodeReturned_int (reachable : f.Reachable) {w : IntWidth} (access : f.interface.result.access = .owned)
    (shape : f.interface.result.shape = .primitive (.int w)) (returned : Returned) :
    f.decodeReturned returned =
      (Metered.ofExcept ((w.ofSlot (w.extend returned.bits)).map .int)).mapFault f.resultFault := by
  have notWord : f.interface.result.shape ≠ .hole none := by rw [shape]; nofun
  rw [decodeReturned_of_receive reachable notWord (Signature.receive_int access shape returned)]
  unfold Signature.decodeResult
  rw [shape]

theorem decodeReturned_float32 (reachable : f.Reachable) (access : f.interface.result.access = .owned)
    (shape : f.interface.result.shape = .primitive .float32) (returned : Returned) :
    f.decodeReturned returned = pure (.float returned.single.widen) := by
  have notWord : f.interface.result.shape ≠ .hole none := by rw [shape]; nofun
  rw [decodeReturned_of_receive reachable notWord (Signature.receive_float32 access shape returned)]
  unfold Signature.decodeResult
  rw [shape]
  rfl

theorem decodeReturned_float64 (reachable : f.Reachable) (access : f.interface.result.access = .owned)
    (shape : f.interface.result.shape = .primitive .float64) (returned : Returned) :
    f.decodeReturned returned = pure (.float returned.double) := by
  have notWord : f.interface.result.shape ≠ .hole none := by rw [shape]; nofun
  rw [decodeReturned_of_receive reachable notWord (Signature.receive_float64 access shape returned)]
  unfold Signature.decodeResult
  rw [shape]
  rfl

theorem decodeReturned_null (reachable : f.Reachable) {kind : WireKind} (access : f.interface.result.access = .owned)
    (type : Slot.typeOf f.interface.result.shape = .wire kind) :
    f.decodeReturned (.word 0) = .fail (.nullResult f.name) := by
  rw [decodeReturned_of_receive reachable (not_word_of_wire type) (Signature.receive_wire access type _)]
  exact congrArg (Metered.mapFault f.resultFault) (Signature.decodeResult_null _)

theorem decodeReturned_value (reachable : f.Reachable) {kind : WireKind} (access : f.interface.result.access = .owned)
    (type : Slot.typeOf f.interface.result.shape = .wire kind) (resolved : f.interface.result.firstHole? = none)
    (address : UInt64) (value : WireValue) :
    f.decodeReturned (.value address value) = (f.interface.result.decode value).within .result := by
  rw [decodeReturned_of_receive reachable (not_word_of_wire type) (Signature.receive_wire access type _)]
  show ((f.interface.result.decodeResult (.wire (some value))).mapFault f.resultFault) = _
  rw [Signature.decodeResult_value]
  exact f.mapFault_resultFault (Signature.faultsIn_decode resolved value)

/-- what came back behind an address is not decoded, and nothing is released -/
theorem decodeReturned_indirect (reachable : f.Reachable) {kind : WireKind} (access : f.interface.result.access ≠ .owned)
    (type : Slot.typeOf f.interface.result.shape = .wire kind) (returned : Returned) :
    f.decodeReturned returned = .fail (.typeMismatch f.interface.result.written "pointer" [.result]) := by
  have received := Signature.receive_indirect access (not_void_of_wire type) returned
  rw [decodeReturned_of_receive reachable (not_word_of_wire type) received, Signature.decodeResult_pointer]
  rfl

end Delivery

/-- what the host gets for what came back, by the shape of the result -/
structure Delivers (f : BoundFunction) (returned : Returned) : Prop where
  /-- the decoder is never given a form that it does not expect for the type -/
  suits : (returned.receive f.target.result).Suits f.interface.result.shape
  void : f.interface.result.shape = .void → f.decodeReturned returned = pure .none
  word : f.interface.result.shape = .hole none →
    ∃ n : HostInt, IntWidth.i64.Extends returned.bits n.val ∧ f.decodeReturned returned = pure (.int n)
  int : ∀ w, f.interface.result.shape = .primitive (.int w) → ∃ low, w.Extends returned.bits low ∧
    ((∃ n : HostInt, n.val = low ∧ f.decodeReturned returned = pure (.int n)) ∨
      w = .u64 ∧ IntWidth.i64.greatest < low ∧ f.decodeReturned returned = .fail (.intOutOfRange .u64 low [.result]))
  float32 : f.interface.result.shape = .primitive .float32 →
    f.decodeReturned returned = pure (.float returned.single.widen)
  float64 : f.interface.result.shape = .primitive .float64 → f.decodeReturned returned = pure (.float returned.double)
  null : ∀ kind, Slot.typeOf f.interface.result.shape = .wire kind → returned = .word 0 →
    f.decodeReturned returned = .fail (.nullResult f.name)
  value : ∀ kind, Slot.typeOf f.interface.result.shape = .wire kind → ∀ address value, returned = .value address value →
    f.decodeReturned returned = (f.interface.result.decode value).within .result

theorem owned_of_direct {s : Signature} (direct : s.IsDirect) (notVoid : s.shape ≠ .void) (notWord : s.shape ≠ .hole none) :
    s.access = .owned := by
  rcases direct with owned | void | word
  · exact owned
  · exact absurd void notVoid
  · exact absurd word notWord

theorem delivers_of_direct {f : BoundFunction} (reachable : f.Reachable) (checked : f.checkResult = .ok ())
    (direct : f.interface.result.IsDirect) (returned : Returned) : f.Delivers returned := by
  have owned : ∀ {shape : Shape}, f.interface.result.shape = shape → shape ≠ .void → shape ≠ .hole none →
      f.interface.result.access = .owned := by
    rintro _ rfl notVoid notWord
    exact owned_of_direct direct notVoid notWord
  have ownedWire : ∀ {kind : WireKind}, Slot.typeOf f.interface.result.shape = .wire kind →
      f.interface.result.access = .owned :=
    fun type => owned_of_direct direct (not_void_of_wire type) (not_word_of_wire type)
  constructor
  · rw [reachable.consistent.target_result]
    exact Signature.suits_receive direct returned
  · exact fun shape => decodeReturned_void reachable shape returned
  · intro shape
    refine ⟨.wrap .i64 returned.bits.toNat, ?_, decodeReturned_word reachable shape returned⟩
    rw [BoundedInt.wrap]
    exact IntWidth.extends_wrap .i64 returned.bits
  · intro w shape
    have decoded := decodeReturned_int reachable (owned shape (by simp) (by simp)) shape returned
    obtain ⟨low, low_bits, ⟨n, rfl, given⟩ | ⟨rfl, large, refused⟩⟩ := w.ofSlot_extend returned.bits
    · refine ⟨n.val, low_bits, .inl ⟨n, rfl, ?_⟩⟩
      rw [decoded, given]
      rfl
    · refine ⟨low, low_bits, .inr ⟨rfl, large, ?_⟩⟩
      rw [decoded, refused]
      rfl
  · exact fun shape => decodeReturned_float32 reachable (owned shape (by simp) (by simp)) shape returned
  · exact fun shape => decodeReturned_float64 reachable (owned shape (by simp) (by simp)) shape returned
  · rintro kind type rfl
    exact decodeReturned_null reachable (ownedWire type) type
  · rintro kind type address value rfl
    have resolved : f.interface.result.firstHole? = none :=
      (checkResult_ok_iff.1 checked).resolve_left (not_word_of_wire type)
    exact decodeReturned_value reachable (ownedWire type) type resolved address value

/-! ## Whole calls -/

theorem afterCall_eq (f : BoundFunction) (raw : RawCall) :
    f.afterCall raw = ⟨(f.decodeResult raw.result).result,
      (f.decodeResult raw.result).tally + ⟨0, Kept.sizeOfList raw.arguments⟩⟩ := by
  unfold afterCall
  cases result : (f.decodeResult raw.result).result with
  | ok value =>
    have carried : (f.decodeResult raw.result).releasingOnFault (Kept.sizeOfList raw.arguments) = f.decodeResult raw.result := by
      unfold releasingOnFault
      rw [result]
    simp only [carried, bind_of_ok result]
    rfl
  | error fault =>
    have carried : ((f.decodeResult raw.result).releasingOnFault (Kept.sizeOfList raw.arguments)).result = .error fault := by
      rw [result_releasingOnFault, result]
    simp only [bind_of_fault carried]
    unfold releasingOnFault
    rw [result]

/-- a call that runs the native function ends as its result is decoded; on the way, the objects of the arguments are created,
the native function does as it likes, the result is decoded, and what was only lent is released -/
theorem call_of_runs {f : BoundFunction} {values : List HostValue} {arguments : List Argument}
    (runs : RunsWith call f values arguments) :
    f.call values = ⟨(f.decodeReturned (f.target.native arguments).returned).result,
      (f.prepareFrom 0 f.interface.params values).tally + ((f.target.native arguments).tally +
        ((f.decodeReturned (f.target.native arguments).returned).tally +
          ⟨0, Kept.sizeOfList (Kept.ofArguments arguments (f.target.native arguments).written)⟩))⟩ := by
  obtain ⟨checked, prepared⟩ := inStages_call.runsWith_iff.1 runs
  have stages := inStages_call.call_withNative checked prepared f.target.native
  rw [afterCall_eq] at stages
  exact stages

/-- a call that also reads back the references has decoded the result first -/
theorem callWithReferences_of_runs {f : BoundFunction} {values : List HostValue} {arguments : List Argument}
    (runs : RunsWith callWithReferences f values arguments) :
    (∀ fault, (f.decodeReturned (f.target.native arguments).returned).result = .error fault →
      (f.callWithReferences values).result = .error fault) ∧
    ∀ outcome, (f.callWithReferences values).result = .ok outcome →
      (f.decodeReturned (f.target.native arguments).returned).result = .ok outcome.result := by
  obtain ⟨checked, prepared⟩ := inStages_callWithReferences.runsWith_iff.1 runs
  have stages : f.callWithReferences values = _ :=
    inStages_callWithReferences.call_withNative checked prepared f.target.native
  rw [stages]
  constructor
  · intro fault failed
    exact bind_fault_iff.2 (.inl ((result_releasingOnFault _ _).trans failed))
  · intro outcome given
    obtain ⟨value, decoded, given⟩ := bind_ok_iff.1 given
    obtain ⟨results, -, made⟩ := bind_ok_iff.1 given
    rw [result_releasingOnFault] at decoded
    cases made
    exact decoded

/-- **The call interface and the decoder agree on results.** Whatever hints a function was given, if its result type is known and
owned, or void, or a bare word, then whatever the native function returns arrives in the form in which it is decoded:
nothing as no value, a word as the integer with its bits, an integer as the low bits of the register, extended, unless they
are 64 bits without sign and too large, a float as itself, null as a fault that names the function, and a wire value as it is
decoded, with the place of a fault. With that, the calls end. -/
theorem result_delivered (f : BoundFunction) (reachable : f.Reachable) (checked : f.checkResult = .ok ())
    (direct : f.interface.result.IsDirect) :
    (∀ returned, f.Delivers returned) ∧
    (∀ values arguments, RunsWith call f values arguments →
      (f.call values).result = (f.decodeReturned (f.target.native arguments).returned).result) ∧
    ∀ values arguments, RunsWith callWithReferences f values arguments →
      (∀ fault, (f.decodeReturned (f.target.native arguments).returned).result = .error fault →
        (f.callWithReferences values).result = .error fault) ∧
      ∀ outcome, (f.callWithReferences values).result = .ok outcome →
        (f.decodeReturned (f.target.native arguments).returned).result = .ok outcome.result := by
  refine ⟨delivers_of_direct reachable checked direct, ?_, ?_⟩
  · intro values arguments runs
    rw [call_of_runs runs]
  · exact fun values arguments runs => callWithReferences_of_runs runs

/-- a bare word that a hint has made a list of bytes: what comes back is decoded as such a list, and the element that is too
large is reported where it stands in the result -/
theorem result_delivered_hinted_list :
    let bytes : Signature := .owned (.list (.owned (.primitive (.int .u8))))
    let items : WireValue := .list [.int ⟨7, by decide⟩, .int ⟨300, by decide⟩]
    let native : Native := fun _ => ⟨.value 1 items, [], ⟨3, 0⟩⟩
    let declared := BoundFunction.declared "bytes" "bytes_impl" "lib" (.of [] .word) native
    ∃ f, declared.hintResult bytes = .ok f ∧ f.checkResult = .ok () ∧ f.Delivers (.value 1 items) ∧
      (f.call []).result = .error (.intOutOfRange .u8 300 [.result, .index 1]) := by
  intro bytes items native declared
  let f := declared.redeclare (declared.interface.withResult bytes)
  have hinted : declared.hintResult bytes = .ok f := rfl
  have reachable : f.Reachable := .hinted (f := declared) (.declared _ _ _ _ _ _) (.result bytes hinted)
  obtain ⟨delivers, called, -⟩ := result_delivered f reachable rfl (.inl rfl)
  have runs : RunsWith call f [] [] := inStages_call.runsWith_of_ready rfl rfl
  refine ⟨f, hinted, rfl, delivers _, ?_⟩
  have decoded : f.decodeReturned (.value 1 items) = (bytes.decode items).within .result :=
    (delivers (.value 1 items)).value .list rfl 1 items rfl
  calc (f.call []).result = (f.decodeReturned (.value 1 items)).result := called [] [] runs
    _ = ((bytes.decode items).within .result).result := by rw [decoded]
    _ = .error (.intOutOfRange .u8 300 [.result, .index 1]) := rfl

/-! ## Who owns a wire result -/

/-- a wire value that comes back is the host's: it is decoded and released, and null is a fault -/
structure TakesOver (f : BoundFunction) : Prop where
  value : ∀ address value, (Returned.value address value).receive f.target.result = .wire (some value)
  null : (Returned.word 0).receive f.target.result = .wire none
  decoded : f.checkResult = .ok () → ∀ address value,
    f.decodeReturned (.value address value) = (f.interface.result.decode value).within .result
  released : f.checkResult = .ok () → ∀ address value, (f.decodeReturned (.value address value)).tally = ⟨0, value.size⟩
  refused : f.decodeReturned (.word 0) = .fail (.nullResult f.name)

/-- whatever comes back, the host keeps its address, decodes nothing and releases nothing -/
structure LeavesAlone (f : BoundFunction) : Prop where
  pointer : ∀ returned : Returned, returned.receive f.target.result = .pointer returned.bits
  refused : ∀ returned, f.decodeReturned returned = .fail (.typeMismatch f.interface.result.written "pointer" [.result])

theorem takesOver_of_owned {f : BoundFunction} {kind : WireKind} (reachable : f.Reachable)
    (type : Slot.typeOf f.interface.result.shape = .wire kind) (owned : f.interface.result.access = .owned) :
    f.TakesOver := by
  have received : ∀ returned : Returned, returned.receive f.target.result = .wire returned.adopted := by
    rw [reachable.consistent.target_result]
    exact Signature.receive_wire owned type
  have decoded : f.checkResult = .ok () → ∀ address value,
      f.decodeReturned (.value address value) = (f.interface.result.decode value).within .result := by
    intro checked
    have resolved := (checkResult_ok_iff.1 checked).resolve_left (not_word_of_wire type)
    exact decodeReturned_value reachable owned type resolved
  refine ⟨fun address value => received _, received _, decoded, ?_, decodeReturned_null reachable owned type⟩
  intro checked address value
  rw [decoded checked, tally_within]
  exact (Signature.consumes_decode _ value).tally_eq

theorem leavesAlone_of_not_owned {f : BoundFunction} {kind : WireKind} (reachable : f.Reachable)
    (type : Slot.typeOf f.interface.result.shape = .wire kind) (notOwned : f.interface.result.access ≠ .owned) :
    f.LeavesAlone := by
  constructor
  · rw [reachable.consistent.target_result]
    exact Signature.receive_indirect notOwned (not_void_of_wire type)
  · exact decodeReturned_indirect reachable notOwned type

/-- **A wire result is taken over exactly if it is owned.** The access of a parameter decides otherwise: there only references
are left alone, and a wire value behind a raw pointer changes hands. -/
theorem wire_result_adopted_iff_owned (f : BoundFunction) (reachable : f.Reachable)
    (wire : ∃ kind, Slot.typeOf f.interface.result.shape = .wire kind) :
    (f.TakesOver ↔ f.interface.result.access = .owned) ∧ (f.LeavesAlone ↔ f.interface.result.access ≠ .owned) ∧
    ∀ values arguments, RunsWith call f values arguments →
      f.call values = ⟨(f.decodeReturned (f.target.native arguments).returned).result,
        (f.prepareFrom 0 f.interface.params values).tally + ((f.target.native arguments).tally +
          ((f.decodeReturned (f.target.native arguments).returned).tally +
            ⟨0, Kept.sizeOfList (Kept.ofArguments arguments (f.target.native arguments).written)⟩))⟩ := by
  obtain ⟨kind, type⟩ := wire
  have apart : ¬ (f.TakesOver ∧ f.LeavesAlone) := by
    rintro ⟨takesOver, leavesAlone⟩
    have two := takesOver.null.symm.trans (leavesAlone.pointer (.word 0))
    cases two
  refine ⟨⟨?_, takesOver_of_owned reachable type⟩, ⟨?_, leavesAlone_of_not_owned reachable type⟩,
    fun values arguments => call_of_runs⟩
  · intro takesOver
    by_contra notOwned
    exact apart ⟨takesOver, leavesAlone_of_not_owned reachable type notOwned⟩
  · intro leavesAlone owned
    exact apart ⟨takesOver_of_owned reachable type owned, leavesAlone⟩

/-- a text that is returned for a list of texts, owned: it is refused, but taken over and released -/
theorem wire_result_adopted_mistaken_text :
    let text : WireValue := .text .empty
    let native : Native := fun _ => ⟨.value 1 text, [], ⟨1, 0⟩⟩
    let f := BoundFunction.declared "names" "names_impl" "lib" (.of [] (.owned (.list (.owned (.primitive .text))))) native
    f.Reachable ∧ f.TakesOver ∧ (f.call []).result = .error (.typeMismatch "List<String>" "WireString" [.result]) ∧
      (f.call []).tally = ⟨1, 1⟩ := by
  intro text native f
  have reachable : f.Reachable := .declared _ _ _ _ _ _
  obtain ⟨takesOver, -, called⟩ := wire_result_adopted_iff_owned f reachable ⟨.list, rfl⟩
  have runs : RunsWith call f [] [] := inStages_call.runsWith_of_ready rfl rfl
  refine ⟨reachable, takesOver.2 rfl, ?_, ?_⟩
  · rw [called [] [] runs]
    rfl
  · rw [called [] [] runs]
    rfl

/-- a text that is returned behind a raw pointer: no access of a reference, and yet the host neither decodes the text nor
releases it -/
theorem raw_pointer_result_left_alone :
    let text : WireValue := .text .empty
    let native : Native := fun _ => ⟨.value 1 text, [], ⟨1, 0⟩⟩
    let f := BoundFunction.declared "name" "name_impl" "lib" (.of [] ⟨.rawMut, .primitive .text⟩) native
    f.Reachable ∧ f.interface.result.access.isReference = false ∧
      (Returned.value 1 text).receive f.target.result = .pointer 1 ∧
      (f.call []).result = .error (.typeMismatch "*mut String" "pointer" [.result]) ∧ (f.call []).tally = ⟨1, 0⟩ := by
  intro text native f
  exact ⟨.declared _ _ _ _ _ _, rfl, rfl, rfl, rfl⟩

end BoundFunction

end NativeBridge
