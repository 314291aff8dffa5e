/-
Calls of native functions that go by the rules of ownership. The objects of a call pass through several hands: the host
creates them for the arguments, the native function gets some for good and some on loan, creates others and hands one over,
and the host decodes, reads back or releases the rest. Wherever the call ends, none of them may be left.

- `accounts_invoke`: what the host holds after the native function has run is what it had prepared and the native function has
  created, less what the native function has released. This is all that is used of the rules.
- `accounts_decodeResult`, `accounts_readBackFrom`: with a value or a fault, all that was held has been released.
- `call_keeps_balance`: all three ways to call a function leave as many objects alive as there were before.
-/
import Mathlib.Tactic
import NativeBridge.Proofs.Call.Custody
import NativeBridge.Proofs.Call.Storage
import NativeBridge.Proofs.Codec.Release

namespace NativeBridge

open Metered

/-- as many objects are alive after the computation as before it -/
def Metered.Balanced {α : Type} (x : Metered α) : Prop := x.tally.created = x.tally.released

/-- who starts with nothing and owes nothing in the end, with a value or a fault, leaves the balance as it was -/
theorem Metered.Accounts.balanced {α : Type} {x : Metered α} (h : Accounts 0 (fun _ => 0) x) : x.Balanced := by
  unfold Balanced
  rw [← Nat.zero_add x.tally.created]
  cases result : x.result with
  | ok a => exact h.ok result
  | error fault => exact h.fault result

/-- an argument that is neither a word nor a number is a wire value, lent if the type is a reference and moved otherwise -/
theorem Signature.wire_of_prepare {s : Signature} {value : HostValue} {argument : Argument} (word : s.isWord = false)
    (scalar : s.isScalar = false) (prepared : (s.prepare value).result = .ok argument) :
    ∃ wire, argument = if s.access.isReference then .borrowed wire else .moved wire := by
  rcases prepare_ok_cases prepared with ⟨shape, -⟩ | ⟨number, -⟩ | ⟨-, -, wire, -, made⟩
  · exact absurd (isWord_iff.2 shape) (Bool.eq_false_iff.1 word)
  · exact absurd number (Bool.eq_false_iff.1 scalar)
  · exact ⟨wire, made⟩

/-! ## What the host does with what it holds -/

theorem Signature.accounts_decodeResult (s : Signature) (raw : RawResult) :
    Accounts raw.size (fun _ => 0) (s.decodeResult raw) := by
  unfold decodeResult
  split
  · exact .pure rfl
  · exact .ofExcept fun _ _ => rfl
  · exact .pure rfl
  · exact .pure rfl
  · exact .fail
  · next value => exact (s.consumes_decode value).accounts
  · next raw _ _ notNull notValue _ _ _ _ =>
    -- no wire value, so nothing is held
    cases raw with
    | wire value =>
      cases value with
      | none => exact absurd rfl notNull
      | some value => exact absurd rfl (notValue value)
    | _ => exact .fail

theorem Kept.accounts_readBack (s : Signature) (kept : Kept) : Accounts kept.size (fun _ => 0) (kept.readBack s) := by
  cases kept with
  | byValue => exact .pure rfl
  | moved => exact .pure rfl
  | cell n =>
    have read : Accounts 0 (fun _ => 0) (Metered.ofExcept n.read) := .ofExcept fun _ _ => rfl
    exact read.bind fun value _ => .pure rfl
  | borrowed value => exact (s.consumes_decode value).accounts.bind fun decoded _ => .pure rfl

namespace BoundFunction

theorem accounts_decodeResult (f : BoundFunction) (raw : RawResult) : Accounts raw.size (fun _ => 0) (f.decodeResult raw) := by
  unfold decodeResult
  split
  · exact .pure rfl
  · exact (f.interface.result.accounts_decodeResult _).mapFault

/-- all that is held of the arguments has been released, also of those after the first that cannot be read back -/
theorem accounts_readBackFrom (f : BoundFunction) (i : Nat) {params : List Signature} {kept : List Kept}
    (typed : kept.length ≤ params.length) :
    Accounts (Kept.sizeOfList kept) (fun _ => 0) (f.readBackFrom i params kept) := by
  induction params generalizing i kept with
  | nil =>
    obtain rfl : kept = [] := List.eq_nil_of_length_eq_zero (Nat.le_zero.1 typed)
    exact .pure rfl
  | cons s rest ih =>
    cases kept with
    | nil => exact .pure rfl
    | cons first others =>
      rw [readBackFrom, Kept.sizeOfList]
      have here : Accounts first.size (fun _ => 0) ((first.readBack s).mapFault (f.argumentFault i)) :=
        (first.accounts_readBack s).mapFault
      refine (here.releasingOnFault (Kept.sizeOfList others)).bind fun result _ => ?_
      rw [Nat.zero_add]
      exact (ih (i + 1) (Nat.le_of_succ_le_succ typed)).bind fun results _ => .pure rfl

theorem accounts_afterCall (f : BoundFunction) (raw : RawCall) : Accounts raw.size (fun _ => 0) (f.afterCall raw) := by
  have decoded := (f.accounts_decodeResult raw.result).releasingOnFault (Kept.sizeOfList raw.arguments)
  refine decoded.bind fun result _ => ?_
  have lent : Accounts (0 + Kept.sizeOfList raw.arguments) (fun _ => 0) (Metered.release (Kept.sizeOfList raw.arguments)) :=
    .release (Nat.add_comm _ _)
  exact lent.bind fun _ _ => .pure rfl

theorem accounts_afterCallWithReferences (f : BoundFunction) {raw : RawCall}
    (typed : raw.arguments.length ≤ f.interface.params.length) :
    Accounts raw.size (fun _ => 0) (f.afterCallWithReferences raw) := by
  have decoded := (f.accounts_decodeResult raw.result).releasingOnFault (Kept.sizeOfList raw.arguments)
  refine decoded.bind fun result _ => ?_
  rw [Nat.zero_add]
  exact (f.accounts_readBackFrom 0 typed).bind fun results _ => .pure rfl

/-! ## Whole calls -/

variable {f : BoundFunction} {values : List HostValue} {arguments : List Argument}

theorem accounts_invoke (direct : f.target.result.indirect = false) (rules : f.KeepsRules)
    (checked : f.checkArguments values = .ok ())
    (prepared : (f.prepareFrom 0 f.interface.params values).result = .ok arguments) :
    Accounts (arguments.map Argument.size).sum RawCall.size (f.invoke arguments) := by
  have conserved := (rules values arguments checked prepared).conserves
  rw [Custody.size_ofArguments, Custody.size, ← Slot.size_receive direct, ← Kept.sizeOfList_eq] at conserved
  exact conserved

theorem length_received_le (prepared : (f.prepareFrom 0 f.interface.params values).result = .ok arguments)
    (written : List Written) : (Kept.ofArguments arguments written).length ≤ f.interface.params.length := by
  rw [Kept.length_ofArguments, ← (f.forall₂_of_prepareFrom prepared).length_eq, List.length_zip]
  exact Nat.min_le_left _ _

/-- a call in stages owes what its last stage owes, if this settles all that the host holds after the native function -/
theorem accounts_of_inStages {α : Type} {check : BoundFunction → List HostValue → Except Fault Unit}
    {after : BoundFunction → RawCall → Metered α} {call : BoundFunction → List HostValue → Metered α} {owed : α → Nat}
    (stages : InStages check after call) (direct : f.target.result.indirect = false) (rules : f.KeepsRules)
    (arguments_checked : check f values = .ok () → f.checkArguments values = .ok ())
    (settles : ∀ raw : RawCall, raw.arguments.length ≤ f.interface.params.length → Accounts raw.size owed (after f raw)) :
    Accounts 0 owed (call f values) := by
  have passed : Accounts 0 (fun _ => 0) (Metered.ofExcept (check f values)) := .ofExcept fun _ _ => rfl
  rw [stages.call_eq]
  refine passed.bind fun _ checked => (f.accounts_prepareFrom 0 f.interface.params values).bind fun arguments prepared => ?_
  have ran := accounts_invoke direct rules (arguments_checked checked) prepared
  refine ran.bind fun raw invoked => settles raw ?_
  obtain rfl := invoke_of_ok invoked
  exact length_received_le prepared _

/-- a result that is declared as owned is handed over in its slot, whatever hints were given -/
theorem direct_of_hinted {name symbol library : String} {params : List Signature} {result : Signature} {native : Native}
    (hints : Relation.ReflTransGen Hinted (.declared name symbol library (.of params result) native) f)
    (owned : result.access = .owned) : f.target.result.indirect = false := by
  have reachable : f.Reachable := (Reachable.declared name symbol library params result native).of_hinted hints
  have access : f.interface.result.access = .owned := (access_result_of_hinted hints).trans owned
  rw [reachable.consistent.target_result, Slot.ofSignature, access]
  rfl

/-- **Calls neither leak nor release twice.** If a function is declared with an owned result and the native function goes by the
rules of ownership, a call leaves as many objects alive as there were before, whatever hints were given, whatever the arguments
are, and whether it ends with a value or with any fault. After a raw call this is so once its outcome is released. -/
theorem call_keeps_balance (name symbol library : String) (params : List Signature) (result : Signature) (native : Native)
    (f : BoundFunction) (hints : Relation.ReflTransGen Hinted (.declared name symbol library (.of params result) native) f)
    (owned : result.access = .owned) (rules : f.KeepsRules) (values : List HostValue) :
    (f.call values).Balanced ∧ (f.callWithReferences values).Balanced ∧
      (f.callRaw values >>= fun raw => Metered.release raw.size).Balanced := by
  have direct := direct_of_hinted hints owned
  refine ⟨Accounts.balanced ?_, Accounts.balanced ?_, Accounts.balanced ?_⟩
  · exact accounts_of_inStages inStages_call direct rules (fun ok => (check_ok_iff.1 ok).1) fun raw _ =>
      f.accounts_afterCall raw
  · exact accounts_of_inStages inStages_callWithReferences direct rules (fun ok => (check_ok_iff.1 ok).1) fun raw typed =>
      f.accounts_afterCallWithReferences typed
  · have left : Accounts 0 RawCall.size (f.callRaw values) :=
      accounts_of_inStages inStages_callRaw direct rules id fun raw _ => .pure rfl
    exact left.bind fun raw _ => .release (Nat.add_zero _).symm

/-- a list is lent and another one is moved; the native function puts the second into the first, and returns a list that is not
of the type that a hint has given the result: nothing is read back, and all five objects are released -/
theorem call_keeps_balance_wrong_result :
    let flags : Shape := .list (.owned (.primitive .bool))
    let seven : WireValue := .int ⟨7, by decide⟩
    let native : Native := fun
      | [.borrowed lent, .moved given] => ⟨.value 1 (.list [seven]), [.value (.list (lent.parts ++ [given]))], ⟨2, 0⟩⟩
      | _ => ⟨.word 0, [], 0⟩
    let declared := BoundFunction.declared "append" "append_impl" "lib"
      (.of [⟨.borrowedMut, flags⟩, .owned flags] (.owned (.hole (some .list)))) native
    let values : List HostValue := [.list [.bool true], .list []]
    ∃ f, declared.hintResult (.owned flags) = .ok f ∧ f.KeepsRules ∧
      (f.callWithReferences values).result = .error (.typeMismatch "bool" "i64" [.result, .index 0]) ∧
      (f.callWithReferences values).tally = ⟨5, 5⟩ ∧ (f.callWithReferences values).Balanced := by
  intro flags seven native declared values
  let f := declared.redeclare (declared.interface.withResult (.owned flags))
  have hinted : declared.hintResult (.owned flags) = .ok f := rfl
  have rules : f.KeepsRules := by
    intro values arguments checked prepared
    obtain ⟨first, second, rfl⟩ := List.length_eq_two.1 (length_of_checkArguments checked)
    obtain _ | ⟨lentMade, _ | ⟨givenMade, none⟩⟩ := f.forall₂_of_prepareFrom prepared
    cases none
    obtain ⟨lent, rfl⟩ := Signature.wire_of_prepare rfl rfl lentMade
    obtain ⟨given, rfl⟩ := Signature.wire_of_prepare rfl rfl givenMade
    have appended : lent.Edited [given] [] (.list (lent.parts ++ [given])) := .here (by simp [WireValue.parts])
    exact .step (.editLent appended [] [] []) (.step (.create seven [] _) (.step (.create (.list [seven]) [] _) (.done _)))
  have hints : Relation.ReflTransGen Hinted declared f := .single (.result _ hinted)
  exact ⟨f, hinted, rules, rfl, rfl, (call_keeps_balance _ _ _ _ _ _ f hints rfl rules values).2.1⟩

end BoundFunction

end NativeBridge
