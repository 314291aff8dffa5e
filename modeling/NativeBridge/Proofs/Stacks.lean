/-
The tuple that foreign code holds is a family of stacks, one for each index. Elements are pushed onto the stack of their index
and taken from its top; what is done at one index is not seen at the others.

- `Chain.stack`: the elements at an index as they stand in a chain. `Chain.stack_pushFront`, `Chain.stack_of_take?` and
  `Chain.stack_drain`: what linking, unlinking and draining do to the stacks.
- `Chain.take?_eq_some_iff`: what is unlinked is the first element at the index, and all else stays as it stands.
- `Stacks.step`: the operations on a family of stacks. `step_refines`: each operation of a tuple is one on its stacks.
- `run_refines`: so it is with every sequence of operations, and the count is that of the elements in the chain.
- `tuple_is_stacks`: all of this for the tuples that start empty, and what is left to drain in the end.
-/
import Mathlib.Tactic
import Mathlib.Algebra.BigOperators.Finprod
import NativeBridge.Proofs.Chain
import NativeBridge.Wire.Tuple

namespace NativeBridge

namespace Chain

variable {α : Type}

/-! ## The stacks of a chain -/

/-- the elements at an index, that linked last first -/
def stack (chain : List (Nat × α)) (index : Nat) : List α := (chain.filter (·.1 = index)).map Prod.snd

theorem stack_nil (i : Nat) : stack ([] : List (Nat × α)) i = [] := rfl

theorem stack_cons (link : Nat × α) (chain : List (Nat × α)) (i : Nat) :
    stack (link :: chain) i = if link.1 = i then link.2 :: stack chain i else stack chain i := by
  unfold stack
  rw [List.filter_cons]
  split_ifs <;> simp_all

theorem stack_append (front rest : List (Nat × α)) (i : Nat) : stack (front ++ rest) i = stack front i ++ stack rest i := by
  simp [stack]

theorem stack_eq_nil_iff {chain : List (Nat × α)} {i : Nat} : stack chain i = [] ↔ ∀ link ∈ chain, link.1 ≠ i := by
  simp [stack]

theorem stack_pushFront (i : Nat) (elem : α) (chain : List (Nat × α)) :
    stack (pushFront i elem chain) = Function.update (stack chain) i (elem :: stack chain i) := by
  funext j
  rw [pushFront, stack_cons]
  split_ifs with here
  · subst here
    rw [Function.update_self]
  · rw [Function.update_of_ne (Ne.symm here)]

/-- what is found at an index is the top of its stack -/
theorem get?_eq_head? (chain : List (Nat × α)) (i : Nat) : get? i chain = (stack chain i).head? := by
  induction chain with
  | nil => rfl
  | cons link rest ih =>
    rw [get?, stack_cons, ih]
    split_ifs <;> rfl

/-- Unlinking takes the first element at the index out, and leaves all others as they stand. -/
theorem take?_eq_some_iff {i : Nat} {chain rest : List (Nat × α)} {elem : α} :
    take? i chain = some (elem, rest) ↔
      ∃ before after, chain = before ++ (i, elem) :: after ∧ (∀ link ∈ before, link.1 ≠ i) ∧ rest = before ++ after := by
  constructor
  · intro found
    induction chain generalizing rest with
    | nil => cases found
    | cons link chain ih =>
      rw [take?] at found
      split_ifs at found with here
      · cases found
        subst here
        exact ⟨[], chain, rfl, List.forall_mem_nil _, rfl⟩
      · obtain ⟨⟨taken, others⟩, inside, same⟩ := Option.map_eq_some_iff.1 found
        cases same
        obtain ⟨before, after, rfl, free, rfl⟩ := ih inside
        exact ⟨link :: before, after, rfl, List.forall_mem_cons.2 ⟨here, free⟩, rfl⟩
  · intro h
    rcases h with ⟨before, after, rfl, free, rfl⟩
    induction before with
    | nil => rw [List.nil_append, take?, if_pos rfl, List.nil_append]
    | cons link before ih =>
      obtain ⟨here, free⟩ := List.forall_mem_cons.1 free
      rw [List.cons_append, take?, if_neg here, ih free]
      rfl

/-- unlinking takes the top of the stack away -/
theorem stack_of_take? {i : Nat} {chain rest : List (Nat × α)} {elem : α} (found : take? i chain = some (elem, rest)) :
    stack chain i = elem :: stack rest i ∧ stack rest = Function.update (stack chain) i (stack chain i).tail := by
  obtain ⟨before, after, rfl, free, rfl⟩ := take?_eq_some_iff.1 found
  have top : stack (before ++ (i, elem) :: after) i = elem :: stack (before ++ after) i := by
    rw [stack_append, stack_append, stack_cons, if_pos rfl, stack_eq_nil_iff.2 free]
    rfl
  refine ⟨top, funext fun j => ?_⟩
  rw [top, List.tail_cons]
  by_cases here : j = i
  · subst here
    rw [Function.update_self]
  · rw [Function.update_of_ne here, stack_append, stack_append, stack_cons, if_neg (Ne.symm here)]

theorem take?_eq_none_iff_stack {i : Nat} {chain : List (Nat × α)} : take? i chain = none ↔ stack chain i = [] := by
  rw [take?_eq_none_iff_forall, stack_eq_nil_iff]

/-! ## Draining -/

theorem stack_insertByIndex (link : Nat × α) (chain : List (Nat × α)) :
    stack (insertByIndex link chain) = stack (link :: chain) := by
  funext i
  induction chain with
  | nil => rfl
  | cons other rest ih =>
    rw [insertByIndex]
    split_ifs with le
    · rfl
    -- the link passes one with a smaller index, which is on another stack
    · rw [stack_cons, ih, stack_cons, stack_cons, stack_cons]
      have different : link.1 ≠ other.1 := fun same => le (Nat.le_of_eq same)
      split_ifs with here there <;> first | rfl | exact absurd (there.trans here.symm) different

/-- draining is stable: at each index the elements stay in the order of the stack -/
theorem stack_drain (chain : List (Nat × α)) : stack (drain chain) = stack chain := by
  funext i
  induction chain with
  | nil => rfl
  | cons link rest ih =>
    show stack (insertByIndex link (drain rest)) i = _
    rw [stack_insertByIndex, stack_cons, stack_cons, ih]

theorem ascending_insertByIndex {link : Nat × α} {chain : List (Nat × α)} (h : chain.Pairwise fun a b => a.1 ≤ b.1) :
    (insertByIndex link chain).Pairwise fun a b => a.1 ≤ b.1 := by
  induction chain with
  | nil => exact List.pairwise_singleton _ _
  | cons other rest ih =>
    obtain ⟨least, sorted⟩ := List.pairwise_cons.1 h
    rw [insertByIndex]
    split_ifs with le
    · refine List.pairwise_cons.2 ⟨List.forall_mem_cons.2 ⟨le, fun link mem => ?_⟩, h⟩
      exact le.trans (least link mem)
    · refine List.pairwise_cons.2 ⟨fun entry mem => ?_, ih sorted⟩
      rcases List.mem_cons.1 ((insertByIndex_perm link rest).mem_iff.1 mem) with rfl | mem
      · exact Nat.le_of_not_le le
      · exact least entry mem

theorem ascending_drain (chain : List (Nat × α)) : (drain chain).Pairwise fun a b => a.1 ≤ b.1 := by
  induction chain with
  | nil => exact List.Pairwise.nil
  | cons link rest ih => exact ascending_insertByIndex ih

/-! ## Counting -/

theorem support_stack_subset (chain : List (Nat × α)) :
    (Function.support fun i => (stack chain i).length) ⊆ ((chain.map Prod.fst).toFinset : Set Nat) := by
  intro i counted
  have some : stack chain i ≠ [] := fun none => counted (congrArg List.length none)
  rw [ne_eq, stack_eq_nil_iff] at some
  push Not at some
  obtain ⟨link, mem, rfl⟩ := some
  simpa using ⟨link.2, mem⟩

/-- the stacks together have as many elements as the chain -/
theorem finsum_length_stack (chain : List (Nat × α)) : ∑ᶠ i, (stack chain i).length = chain.length := by
  induction chain with
  | nil => simp [stack_nil]
  | cons link rest ih =>
    have split : ∀ i, (stack (link :: rest) i).length = (if i = link.1 then 1 else 0) + (stack rest i).length := by
      intro i
      rw [stack_cons]
      split_ifs <;> first | omega | simp_all [Nat.add_comm]
    have finite : (Function.support fun i => (stack rest i).length).Finite :=
      (Finset.finite_toSet _).subset (support_stack_subset rest)
    have single : (Function.support fun i => if i = link.1 then 1 else 0).Finite :=
      (Set.finite_singleton link.1).subset fun i => by simp
    rw [finsum_congr split, finsum_add_distrib single finite, ih, finsum_eq_single _ link.1 (by simp +contextual)]
    simp [Nat.add_comm]

end Chain

/-! ## Operations -/

/-- what can be asked of a tuple -/
inductive TupleRequest where
  | pushFront (index : Nat) (elem : WireValue)
  | take (index : Nat)
  | takeAs (type : NativeType) (index : Nat)
  | get (index : Nat)
  | count

/-- what it answers -/
inductive TupleReply where
  | done
  | elem (found : Option WireValue)
  | native (type : NativeType) (outcome : Metered type.Value)
  | count (elems : Nat)

namespace WireTuple

/-- one request to a tuple -/
def step (t : WireTuple) : TupleRequest → WireTuple × TupleReply
  | .pushFront index elem => (t.pushFront index elem, .done)
  | .take index =>
    match t.take? index with
    | some (elem, rest) => (rest, .elem (some elem))
    | none => (t, .elem none)
  | .takeAs type index => ((t.takeAs type index).2, .native type (t.takeAs type index).1)
  | .get index => (t, .elem (t.get? index))
  | .count => (t, .count t.count)

/-- requests one after the other -/
def run (t : WireTuple) : List TupleRequest → WireTuple × List TupleReply
  | [] => (t, [])
  | request :: rest =>
    let (next, reply) := t.step request
    let (last, replies) := next.run rest
    (last, reply :: replies)

end WireTuple

/-- a stack of elements for each index, its top first -/
abbrev Stacks := Nat → List WireValue

namespace Stacks

/-- no elements -/
def empty : Stacks := fun _ => []

/-- an element taken for a native value, or the fault that there is none -/
def asNative (type : NativeType) (index : Nat) : Option WireValue → Metered type.Value
  | some elem => (type.ofWire elem).within (.index index)
  | none => .fail (Fault.within (.index index) (.mismatch ("element " ++ toString index) "missing element"))

/-- one request to the stacks: it looks at the top of one of them and changes at most this one -/
noncomputable def step (family : Stacks) : TupleRequest → Stacks × TupleReply
  | .pushFront index elem => (Function.update family index (elem :: family index), .done)
  | .take index => (Function.update family index (family index).tail, .elem (family index).head?)
  | .takeAs type index =>
    (Function.update family index (family index).tail, .native type (asNative type index (family index).head?))
  | .get index => (family, .elem (family index).head?)
  | .count => (family, .count (∑ᶠ index, (family index).length))

/-- requests one after the other -/
noncomputable def run (family : Stacks) : List TupleRequest → Stacks × List TupleReply
  | [] => (family, [])
  | request :: rest =>
    let (next, reply) := family.step request
    let (last, replies) := run next rest
    (last, reply :: replies)

end Stacks

/-- the tuple stands for these stacks, and counts the elements of its chain -/
structure WireTuple.StandsFor (t : WireTuple) (family : Stacks) : Prop where
  stack : Chain.stack t.chain = family
  count : t.count = t.chain.length

namespace WireTuple

variable {t : WireTuple} {family : Stacks}

theorem standsFor_empty : empty.StandsFor Stacks.empty := ⟨rfl, rfl⟩

theorem StandsFor.pushFront (h : t.StandsFor family) (i : Nat) (elem : WireValue) :
    (t.pushFront i elem).StandsFor (Function.update family i (elem :: family i)) := by
  obtain ⟨rfl, count⟩ := h
  exact ⟨Chain.stack_pushFront i elem t.chain, congrArg Nat.succ count⟩

theorem StandsFor.get? (h : t.StandsFor family) (i : Nat) : t.get? i = (family i).head? := by
  obtain ⟨rfl, -⟩ := h
  exact Chain.get?_eq_head? t.chain i

/-- what is taken is the top of its stack -/
theorem StandsFor.take? (h : t.StandsFor family) (i : Nat) : (t.take? i).map Prod.fst = (family i).head? := by
  obtain ⟨rfl, -⟩ := h
  unfold WireTuple.take?
  cases found : Chain.take? i t.chain with
  | none =>
    rw [Chain.take?_eq_none_iff_stack.1 found]
    rfl
  | some taken =>
    rw [(Chain.stack_of_take? found).1]
    rfl

/-- what is left is all but the top of its stack -/
theorem StandsFor.without (h : t.StandsFor family) (i : Nat) :
    (t.without i).StandsFor (Function.update family i (family i).tail) := by
  obtain ⟨rfl, count⟩ := h
  unfold WireTuple.without WireTuple.take?
  cases found : Chain.take? i t.chain with
  | none =>
    have none := Chain.take?_eq_none_iff_stack.1 found
    refine ⟨?_, count⟩
    rw [none, List.tail_nil, ← none, Function.update_eq_self]
    rfl
  | some taken =>
    obtain ⟨elem, rest⟩ := taken
    refine ⟨(Chain.stack_of_take? found).2, ?_⟩
    show t.count - 1 = rest.length
    rw [count, (Chain.take?_perm found).length_eq, List.length_cons, Nat.add_sub_cancel]

theorem takeAs_fst (type : NativeType) (i : Nat) (t : WireTuple) :
    (t.takeAs type i).1 = Stacks.asNative type i ((t.take? i).map Prod.fst) := by
  unfold takeAs NativeType.takeElem WireTuple.take?
  cases Chain.take? i t.chain <;> rfl

theorem step_take (i : Nat) (t : WireTuple) : t.step (.take i) = (t.without i, .elem ((t.take? i).map Prod.fst)) := by
  simp only [step, WireTuple.without]
  cases t.take? i <;> rfl

/-- **Each operation of a tuple is one on its stacks.** -/
theorem step_refines (h : t.StandsFor family) (request : TupleRequest) :
    (t.step request).2 = (family.step request).2 ∧ (t.step request).1.StandsFor (family.step request).1 := by
  cases request with
  | pushFront i elem => exact ⟨rfl, h.pushFront i elem⟩
  | take i =>
    rw [step_take]
    exact ⟨congrArg TupleReply.elem (h.take? i), h.without i⟩
  | takeAs type i =>
    refine ⟨congrArg (TupleReply.native type) ?_, h.without i⟩
    rw [takeAs_fst, h.take?]
  | get i => exact ⟨congrArg TupleReply.elem (h.get? i), h⟩
  | count =>
    refine ⟨congrArg TupleReply.count ?_, h⟩
    rw [h.count, ← h.stack, Chain.finsum_length_stack]

/-- every sequence of operations of a tuple is one on its stacks -/
theorem run_refines (h : t.StandsFor family) (requests : List TupleRequest) :
    (t.run requests).2 = (family.run requests).2 ∧ (t.run requests).1.StandsFor (family.run requests).1 := by
  induction requests generalizing t family with
  | nil => exact ⟨rfl, h⟩
  | cons request rest ih =>
    obtain ⟨reply, next⟩ := step_refines h request
    obtain ⟨replies, last⟩ := ih next
    exact ⟨congrArg₂ List.cons reply replies, last⟩

/-! ## Collecting -/

/-- elements that are linked from the last one are numbered as they stand -/
theorem collect_eq (elems : List WireValue) : collect elems = ⟨Chain.number 0 elems, elems.length⟩ := by
  have linked : ∀ first, (elems.zipIdx first).foldr (fun link t => t.pushFront link.2 link.1) empty =
      ⟨Chain.number first elems, elems.length⟩ := by
    induction elems with
    | nil => exact fun _ => rfl
    | cons elem rest ih =>
      intro first
      rw [List.zipIdx_cons, List.foldr_cons, ih (first + 1)]
      rfl
  exact linked 0

/-! ## Tuples that start empty -/

/-- **A tuple is a family of stacks.** Whatever is asked of an empty tuple, one request after the other and at any indices, it
answers as independent stacks do, one for each index; an element that is pushed is the first to be got or taken at its index.
In the end the count is that of the elements. What would be taken next at an index is the first element there, all others stay as
they stand, and where there is none nothing changes. Draining yields each element that is left once, by ascending index, and
those of one index from the top of their stack. A tuple that is collected has the indices from zero on, in order. -/
theorem tuple_is_stacks (requests : List TupleRequest) :
    let t := (empty.run requests).1
    let family := (Stacks.empty.run requests).1
    (empty.run requests).2 = (Stacks.empty.run requests).2 ∧
    (∀ i, Chain.stack t.chain i = family i) ∧
    t.count = t.chain.length ∧
    (∀ i, (family i = [] ∧ t.take? i = none ∧ (t.step (.take i)).1 = t) ∨
      ∃ before elem after, t.chain = before ++ (i, elem) :: after ∧ (∀ link ∈ before, link.1 ≠ i) ∧
        t.take? i = some (elem, ⟨before ++ after, t.count - 1⟩)) ∧
    (t.drain.Perm t.chain ∧ t.drain.Pairwise (fun a b => a.1 ≤ b.1) ∧ ∀ i, Chain.stack t.drain i = family i) ∧
    ∀ elems, (collect elems).chain.map Prod.fst = List.range elems.length ∧ (collect elems).chain.map Prod.snd = elems ∧
      (collect elems).count = elems.length := by
  intro t family
  obtain ⟨replies, stands⟩ := run_refines standsFor_empty requests
  have stack : Chain.stack t.chain = family := stands.stack
  refine ⟨replies, congrFun stack, stands.count, fun i => ?_, ⟨Chain.drain_perm _, Chain.ascending_drain _, fun i => ?_⟩,
    fun elems => ?_⟩
  · cases found : Chain.take? i t.chain with
    | none =>
      refine .inl ⟨stack ▸ Chain.take?_eq_none_iff_stack.1 found, ?_, ?_⟩
      · rw [WireTuple.take?, found]
        rfl
      · rw [step_take, WireTuple.without, WireTuple.take?, found]
        rfl
    | some taken =>
      obtain ⟨elem, rest⟩ := taken
      obtain ⟨before, after, whole, free, rfl⟩ := Chain.take?_eq_some_iff.1 found
      refine .inr ⟨before, elem, after, whole, free, ?_⟩
      rw [WireTuple.take?, found]
      rfl
  · rw [WireTuple.drain, Chain.stack_drain, stack]
  · rw [collect_eq, Chain.map_fst_number, Chain.map_snd_number, List.range_eq_range']
    exact ⟨rfl, rfl, rfl⟩

/-- two elements at one index, with a gap below them -/
example (a b c : WireValue) :
    (empty.run [.pushFront 2 a, .pushFront 0 b, .pushFront 2 c, .take 2, .take 1, .get 2, .count]).2 =
      [.done, .done, .done, .elem (some c), .elem none, .elem (some a), .count 2] := rfl

end WireTuple

end NativeBridge
