/-
What a hint makes of a declared type, node by node. A path leads from a signature to its parts; what a hint does to the whole, it
does to the part at every path.

- `Signature.part?`: the part that a path leads to. `nodeInduction`: induction over the parts one step away.
- `refine?_part?`: refinement goes along every path of the declared signature; `solid_of_refine?` and `hole_of_refine?` tell what
  becomes of a node and of a hole.
- `Contradict`, `refine?_eq_none_iff_exists`: a refinement fails exactly if the two contradict each other somewhere.
- `refine?_self`, `refine?_again`, `eq_of_refine?`: the hints that change nothing.
- `refine_fills_holes`: all this for the refinement that the host is told of.
-/
import Mathlib.Tactic
import NativeBridge.Proofs.Signature
import NativeBridge.Signature.Refinement

namespace NativeBridge

/-! ## Nodes and paths -/

/-- what a shape is, its parts aside -/
inductive Head where
  | primitive (kind : Primitive)
  | tuple (length : Nat)
  | list
  | dict (key : KeyKind)
  | hole (container : Option Container)
  | void
deriving DecidableEq

/-- the head of a shape -/
def Shape.head : Shape → Head
  | .primitive kind => .primitive kind
  | .tuple elems => .tuple elems.length
  | .list _ => .list
  | .dict key _ => .dict key
  | .hole container => .hole container
  | .void => .void

/-- the same type, or two integers -/
def Primitive.Agrees : Primitive → Primitive → Prop
  | .int _, .int _ => True
  | one, other => one = other

/-- the same head, the widths of integers aside -/
def Head.Agrees : Head → Head → Prop
  | .primitive one, .primitive other => one.Agrees other
  | one, other => one = other

theorem Head.agrees_of_eq {one other : Head} (same : one = other) : one.Agrees other := by
  subst same
  cases one with
  | primitive kind => cases kind <;> trivial
  | _ => rfl

namespace Signature

/-- the part of a signature that is one step away -/
def child? (s : Signature) (step : Step) : Option Signature :=
  match s.shape, step with
  | .tuple elems, .index i => elems[i]?
  | .list elem, .element => some elem
  | .dict _ value, .value => some value
  | _, _ => none

/-- the part of a signature that a path leads to -/
def part? : Position → Signature → Option Signature
  | [], s => some s
  | step :: p, s => (s.child? step).bind (part? p)

/-- only what is no hole has parts -/
theorem solid_of_child? {s part : Signature} {step : Step} (here : s.child? step = some part) (container : Option Container) :
    s.shape ≠ .hole container := by
  intro hole
  simp [child?, hole] at here

/-- **Induction over nodes**: holes come first, and every other node after its parts. -/
@[elab_as_elim]
theorem nodeInduction {P : Signature → Prop} (hole : ∀ access container, P ⟨access, .hole container⟩)
    (solid : ∀ s, (∀ container, s.shape ≠ .hole container) → (∀ step part, s.child? step = some part → P part) → P s)
    (s : Signature) : P s := by
  induction s using Signature.induction with
  | primitive access kind => exact solid _ nofun nofun
  | tuple access elems parts =>
    refine solid _ nofun fun step part here => ?_
    cases step with
    | index i => exact parts part (List.mem_of_getElem? here)
    | _ => cases here
  | list access elem part =>
    refine solid _ nofun fun step other here => ?_
    cases step <;> cases here
    exact part
  | dict access key value part =>
    refine solid _ nofun fun step other here => ?_
    cases step <;> cases here
    exact part
  | hole access container => exact hole access container
  | void access => exact solid _ nofun nofun

/-- a signature is its access, its head and its parts -/
theorem ext_child? {s t : Signature} (access : s.access = t.access) (head : s.shape.head = t.shape.head)
    (parts : ∀ step part, s.child? step = some part → t.child? step = some part) : s = t := by
  obtain ⟨a, shape⟩ := s
  obtain ⟨b, other⟩ := t
  cases access
  cases shape with
  | tuple elems =>
    cases other with
    | tuple others =>
      have same : elems = others := by
        refine List.ext_getElem (Head.tuple.inj head) fun i here there => ?_
        exact ((List.getElem_eq_iff there).2 (parts (.index i) _ (List.getElem?_eq_getElem here))).symm
      rw [same]
    | _ => cases head
  | list elem =>
    cases other with
    | list elem' =>
      cases parts .element elem rfl
      rfl
    | _ => cases head
  | dict key value =>
    cases other with
    | dict key' value' =>
      cases head
      cases parts .value value rfl
      rfl
    | _ => cases head
  | primitive kind => cases other <;> cases head; rfl
  | hole container => cases other <;> cases head; rfl
  | void => cases other <;> cases head; rfl

/-- signatures whose heads agree have parts at the same places -/
theorem exists_child?_of_agrees {s t part : Signature} {step : Step} (agrees : s.shape.head.Agrees t.shape.head)
    (here : s.child? step = some part) : ∃ other, t.child? step = some other := by
  obtain ⟨a, shape⟩ := s
  obtain ⟨b, other⟩ := t
  cases shape with
  | tuple elems =>
    cases other with
    | tuple others =>
      cases step with
      | index i =>
        have length : elems.length = others.length := Head.tuple.inj agrees
        obtain ⟨bound, -⟩ := List.getElem?_eq_some_iff.1 here
        exact ⟨_, List.getElem?_eq_getElem (length ▸ bound)⟩
      | _ => cases here
    | _ => cases agrees
  | list elem =>
    cases other with
    | list elem' =>
      cases step with
      | element => exact ⟨elem', rfl⟩
      | _ => cases here
    | _ => cases agrees
  | dict key value =>
    cases other with
    | dict key' value' =>
      cases step with
      | value => exact ⟨value', rfl⟩
      | _ => cases here
    | _ => cases agrees
  | _ => cases here

/-! ## Refinement at one node -/

theorem refine?_primitive_eq_some_iff {kind other : Primitive} {refined : Shape} :
    Shape.refine? (.primitive kind) (.primitive other) = some refined ↔ kind.Agrees other ∧ refined = .primitive kind := by
  cases kind <;> cases other <;> simp [Shape.refine?, Primitive.Agrees, eq_comm]

theorem refine?_eq_some_iff {declared hint refined : Signature} :
    declared.refine? hint = some refined ↔
      refined.access = declared.access ∧ declared.shape.refine? hint.shape = some refined.shape := by
  obtain ⟨access, shape⟩ := declared
  obtain ⟨access', narrowed⟩ := refined
  show (shape.refine? hint.shape).map _ = _ ↔ _
  rw [Option.map_eq_some_iff]
  constructor
  · rintro ⟨_, found, same⟩
    cases same
    exact ⟨rfl, found⟩
  · rintro ⟨rfl, found⟩
    exact ⟨narrowed, found, rfl⟩

theorem refine?_eq_none_iff {declared hint : Signature} :
    declared.refine? hint = none ↔ declared.shape.refine? hint.shape = none := by
  obtain ⟨access, shape⟩ := declared
  exact Option.map_eq_none_iff

/-- the elements of a tuple are narrowed one by one -/
theorem refineList?_parts {declared hints refined : List Signature} (accepted : refineList? declared hints = some refined) :
    declared.length = hints.length ∧ refined.length = declared.length ∧
      ∀ (i : Nat) (d h : Signature), declared[i]? = some d → hints[i]? = some h →
        ∃ r, refined[i]? = some r ∧ d.refine? h = some r := by
  induction declared generalizing hints refined with
  | nil =>
    cases hints with
    | nil =>
      cases accepted
      exact ⟨rfl, rfl, fun i d h here => by cases here⟩
    | cons hint hints => cases accepted
  | cons elem rest ih =>
    cases hints with
    | nil => cases accepted
    | cons hint hints =>
      rw [refineList?] at accepted
      split at accepted
      · next narrowed others here there =>
        cases accepted
        obtain ⟨length, length', parts⟩ := ih there
        refine ⟨congrArg Nat.succ length, congrArg Nat.succ length', fun i d h => ?_⟩
        cases i with
        | zero =>
          intro first first'
          cases first
          cases first'
          exact ⟨narrowed, rfl, here⟩
        | succ i => exact parts i d h
      · cases accepted

theorem refineList?_eq_none_iff {declared hints : List Signature} (length : declared.length = hints.length) :
    refineList? declared hints = none ↔
      ∃ (i : Nat) (d h : Signature), declared[i]? = some d ∧ hints[i]? = some h ∧ d.refine? h = none := by
  induction declared generalizing hints with
  | nil =>
    obtain rfl := List.length_eq_zero_iff.1 length.symm
    simp [refineList?]
  | cons elem rest ih =>
    cases hints with
    | nil => cases length
    | cons hint hints =>
      rw [refineList?, ← Nat.or_exists_add_one]
      simp only [List.getElem?_cons_zero, List.getElem?_cons_succ, ← ih (Nat.succ.inj length)]
      cases here : elem.refine? hint <;> cases refineList? rest hints <;> simp [here]

/-- what becomes of a node that is no hole: it stays, and its parts are narrowed by the parts of the hint -/
structure Narrows (declared hint refined : Signature) : Prop where
  access : refined.access = declared.access
  head : refined.shape.head = declared.shape.head
  agrees : declared.shape.head.Agrees hint.shape.head
  parts : ∀ step d h, declared.child? step = some d → hint.child? step = some h →
    ∃ r, refined.child? step = some r ∧ d.refine? h = some r

theorem Narrows.solid {declared hint refined : Signature} (h : Narrows declared hint refined)
    (solid : ∀ container, declared.shape ≠ .hole container) (container : Option Container) :
    refined.shape ≠ .hole container := by
  intro hole
  have head := h.head
  rw [hole] at head
  cases shape : declared.shape <;> rw [shape] at head <;> cases head
  exact solid container shape

/-- every part of the refined node is narrowed from one of the declared node -/
theorem Narrows.part {declared hint refined : Signature} (h : Narrows declared hint refined) {step : Step} {told r : Signature}
    (there : hint.child? step = some told) (refinedHere : refined.child? step = some r) :
    ∃ d, declared.child? step = some d ∧ d.refine? told = some r := by
  obtain ⟨d, here⟩ := exists_child?_of_agrees (Head.agrees_of_eq h.head) refinedHere
  obtain ⟨r', refinedHere', accepted⟩ := h.parts step d told here there
  cases refinedHere.symm.trans refinedHere'
  exact ⟨d, here, accepted⟩

theorem narrows_of_refine? {declared hint refined : Signature} (solid : ∀ container, declared.shape ≠ .hole container)
    (accepted : declared.refine? hint = some refined) : Narrows declared hint refined := by
  obtain ⟨access, found⟩ := refine?_eq_some_iff.1 accepted
  obtain ⟨a, shape⟩ := declared
  obtain ⟨b, other⟩ := hint
  obtain ⟨c, narrowed⟩ := refined
  cases access
  dsimp only at found solid
  cases shape with
  | hole container => exact absurd rfl (solid container)
  | void =>
    cases other <;> cases found
    exact ⟨rfl, rfl, rfl, nofun⟩
  | primitive kind =>
    cases other with
    | primitive kind' =>
      obtain ⟨agrees, rfl⟩ := refine?_primitive_eq_some_iff.1 found
      exact ⟨rfl, rfl, agrees, nofun⟩
    | _ => cases kind <;> cases found
  | list elem =>
    cases other with
    | list hint =>
      obtain ⟨r, part, rfl⟩ := Option.map_eq_some_iff.1 found
      refine ⟨rfl, rfl, rfl, fun step d h here there => ?_⟩
      cases step with
      | element =>
        cases here
        cases there
        exact ⟨r, rfl, part⟩
      | _ => cases here
    | _ => cases found
  | tuple elems =>
    cases other with
    | tuple hints =>
      obtain ⟨rs, inner, rfl⟩ := Option.map_eq_some_iff.1 found
      obtain ⟨length, length', parts⟩ := refineList?_parts inner
      refine ⟨rfl, congrArg Head.tuple length', congrArg Head.tuple length, fun step d h here there => ?_⟩
      cases step with
      | index i => exact parts i d h here there
      | _ => cases here
    | _ => cases found
  | dict key value =>
    cases other with
    | dict key' hint =>
      unfold Shape.refine? at found
      split_ifs at found with same
      subst same
      obtain ⟨r, part, rfl⟩ := Option.map_eq_some_iff.1 found
      refine ⟨rfl, rfl, rfl, fun step d h here there => ?_⟩
      cases step with
      | value =>
        cases here
        cases there
        exact ⟨r, rfl, part⟩
      | _ => cases here
    | _ => cases found

theorem refine?_eq_none_iff_of_solid {declared hint : Signature} (solid : ∀ container, declared.shape ≠ .hole container) :
    declared.refine? hint = none ↔ ¬ declared.shape.head.Agrees hint.shape.head ∨
      ∃ step d h, declared.child? step = some d ∧ hint.child? step = some h ∧ d.refine? h = none := by
  rw [refine?_eq_none_iff]
  obtain ⟨a, shape⟩ := declared
  obtain ⟨b, other⟩ := hint
  dsimp only at solid ⊢
  cases shape with
  | hole container => exact absurd rfl (solid container)
  | void => cases other <;> simp [Shape.refine?, Shape.head, Head.Agrees, child?]
  | primitive kind =>
    cases other with
    | primitive kind' => cases kind <;> cases kind' <;> simp [Shape.refine?, Shape.head, Head.Agrees, Primitive.Agrees, child?]
    | _ => cases kind <;> simp [Shape.refine?, Shape.head, Head.Agrees, child?]
  | list elem =>
    cases other with
    | list hint =>
      refine Option.map_eq_none_iff.trans ⟨fun fails => .inr ⟨.element, elem, hint, rfl, rfl, fails⟩, ?_⟩
      rintro (differ | ⟨step, d, h, here, there, fails⟩)
      · exact absurd rfl differ
      · cases step <;> cases here
        cases there
        exact fails
    | _ => simp [Shape.refine?, Shape.head, Head.Agrees]
  | tuple elems =>
    cases other with
    | tuple hints =>
      by_cases length : elems.length = hints.length
      · refine (Option.map_eq_none_iff.trans (refineList?_eq_none_iff length)).trans ⟨?_, ?_⟩
        · rintro ⟨i, d, h, here, there, fails⟩
          exact .inr ⟨.index i, d, h, here, there, fails⟩
        · rintro (differ | ⟨step, d, h, here, there, fails⟩)
          · exact absurd (congrArg Head.tuple length) differ
          · cases step with
            | index i => exact ⟨i, d, h, here, there, fails⟩
            | _ => cases here
      · refine iff_of_true (Option.map_eq_none_iff.2 ?_) (.inl fun agrees => length (Head.tuple.inj agrees))
        rw [Option.eq_none_iff_forall_ne_some]
        exact fun refined accepted => length (refineList?_parts accepted).1
    | _ => simp [Shape.refine?, Shape.head, Head.Agrees]
  | dict key value =>
    cases other with
    | dict key' hint =>
      unfold Shape.refine?
      split_ifs with same
      · subst same
        refine Option.map_eq_none_iff.trans ⟨fun fails => .inr ⟨.value, value, hint, rfl, rfl, fails⟩, ?_⟩
        rintro (differ | ⟨step, d, h, here, there, fails⟩)
        · exact absurd rfl differ
        · cases step <;> cases here
          cases there
          exact fails
      · exact iff_of_true rfl (.inl fun agrees => same (Head.dict.inj agrees))
    | _ => simp [Shape.refine?, Shape.head, Head.Agrees]

/-- a hole takes the shape of any hint that agrees with what is known of it -/
theorem refine?_hole_eq_some_iff {access : Access} {container : Option Container} {hint refined : Signature} :
    refine? ⟨access, .hole container⟩ hint = some refined ↔
      hint.shape ≠ .void ∧ (∀ known ∈ container, hint.shape.container? = some known) ∧ refined = ⟨access, hint.shape⟩ := by
  obtain ⟨access', other⟩ := hint
  obtain ⟨access'', narrowed⟩ := refined
  rw [refine?_eq_some_iff]
  cases container with
  | none => cases other <;> simp [Shape.refine?, eq_comm]
  | some known =>
    cases other with
    | void => simp [Shape.refine?]
    | _ =>
      simp only [Shape.refine?, Option.ite_none_right_eq_some, Option.mem_some, forall_eq', ne_eq, reduceCtorEq,
        not_false_eq_true, true_and, mk.injEq, Option.some.injEq]
      exact ⟨fun ⟨same, known, shape⟩ => ⟨known, same, shape.symm⟩, fun ⟨known, same, shape⟩ => ⟨same, known, shape.symm⟩⟩

/-! ## Refinement along a path -/

variable {declared hint refined : Signature}

theorem part?_cons_eq_some_iff {s part : Signature} {step : Step} {p : Position} :
    part? (step :: p) s = some part ↔ ∃ child, s.child? step = some child ∧ part? p child = some part :=
  Option.bind_eq_some_iff

/-- Refinement goes along every path of the declared signature. -/
theorem refine?_part? (accepted : declared.refine? hint = some refined) {p : Position} {node : Signature}
    (there : part? p declared = some node) :
    ∃ told narrowed, part? p hint = some told ∧ part? p refined = some narrowed ∧ node.refine? told = some narrowed := by
  induction p generalizing declared hint refined with
  | nil =>
    cases there
    exact ⟨hint, refined, rfl, rfl, accepted⟩
  | cons step p ih =>
    obtain ⟨child, here, there⟩ := part?_cons_eq_some_iff.1 there
    have narrows := narrows_of_refine? (solid_of_child? here) accepted
    obtain ⟨toldChild, hintHere⟩ := exists_child?_of_agrees narrows.agrees here
    obtain ⟨narrowedChild, refinedHere, acceptedHere⟩ := narrows.parts step child toldChild here hintHere
    obtain ⟨told, narrowed, toldThere, narrowedThere, last⟩ := ih acceptedHere there
    exact ⟨told, narrowed, part?_cons_eq_some_iff.2 ⟨toldChild, hintHere, toldThere⟩,
      part?_cons_eq_some_iff.2 ⟨narrowedChild, refinedHere, narrowedThere⟩, last⟩

/-- A node that is no hole stays what it is. -/
theorem solid_of_refine? (accepted : declared.refine? hint = some refined) {p : Position} {node : Signature}
    (there : part? p declared = some node) (solid : ∀ container, node.shape ≠ .hole container) :
    ∃ same, part? p refined = some same ∧ same.access = node.access ∧ same.shape.head = node.shape.head := by
  obtain ⟨told, narrowed, -, narrowedThere, last⟩ := refine?_part? accepted there
  have narrows := narrows_of_refine? solid last
  exact ⟨narrowed, narrowedThere, narrows.access, narrows.head⟩

/-- A hole becomes what the hint has in its place. -/
theorem hole_of_refine? (accepted : declared.refine? hint = some refined) {p : Position} {access : Access}
    {container : Option Container} (there : part? p declared = some ⟨access, .hole container⟩) :
    ∃ told, part? p hint = some told ∧ part? p refined = some ⟨access, told.shape⟩ := by
  obtain ⟨told, narrowed, toldThere, narrowedThere, last⟩ := refine?_part? accepted there
  obtain ⟨-, -, rfl⟩ := refine?_hole_eq_some_iff.1 last
  exact ⟨told, toldThere, narrowedThere⟩

/-! ## Contradictions -/

/-- the two shapes cannot be those of one type: exactly one of them is nothing at all, the hint is not the container that the
hole is known to be, or something that is no hole has another head -/
def Contradict (declared hint : Shape) : Prop :=
  ¬ (declared = .void ↔ hint = .void) ∨
    (∃ container, declared = .hole (some container) ∧ hint.container? ≠ some container) ∨
      (∀ container, declared ≠ .hole container) ∧ ¬ declared.head.Agrees hint.head

theorem void_iff_of_agrees {shape other : Shape} (agrees : shape.head.Agrees other.head) :
    shape = .void ↔ other = .void := by
  cases shape <;> cases other <;> simp_all [Shape.head, Head.Agrees]

theorem contradict_hole_iff {container : Option Container} {shape : Shape} :
    Contradict (.hole container) shape ↔ shape = .void ∨ ∃ known, container = some known ∧ shape.container? ≠ some known := by
  simp [Contradict]

theorem refine?_hole_eq_none_iff {access : Access} {container : Option Container} {hint : Signature} :
    refine? ⟨access, .hole container⟩ hint = none ↔ Contradict (.hole container) hint.shape := by
  rw [contradict_hole_iff, Option.eq_none_iff_forall_ne_some]
  simp only [ne_eq, refine?_hole_eq_some_iff]
  constructor
  · intro refused
    by_contra fine
    push Not at fine
    exact refused ⟨access, hint.shape⟩ ⟨fine.1, fun known isKnown => fine.2 known isKnown, rfl⟩
  · rintro (void | ⟨known, isKnown, other⟩) refined ⟨something, agrees, -⟩
    · exact something void
    · exact other (agrees known isKnown)

theorem refine?_of_contradict (contradict : Contradict declared.shape hint.shape) : declared.refine? hint = none := by
  obtain ⟨access, shape⟩ := declared
  by_cases hole : ∃ container, shape = .hole container
  · obtain ⟨container, rfl⟩ := hole
    exact refine?_hole_eq_none_iff.2 contradict
  · have solid : ∀ container, shape ≠ .hole container := fun container same => hole ⟨container, same⟩
    refine (refine?_eq_none_iff_of_solid solid).2 (.inl fun agrees => ?_)
    rcases contradict with void | ⟨head, same, -⟩ | ⟨-, differ⟩
    · exact void (void_iff_of_agrees agrees)
    · exact solid _ same
    · exact differ agrees

/-- **A refinement fails exactly if the two contradict each other at some path that both have.** -/
theorem refine?_eq_none_iff_exists :
    declared.refine? hint = none ↔
      ∃ p node told, part? p declared = some node ∧ part? p hint = some told ∧ Contradict node.shape told.shape := by
  constructor
  · intro refused
    induction declared using nodeInduction generalizing hint with
    | hole access container => exact ⟨[], _, hint, rfl, rfl, refine?_hole_eq_none_iff.1 refused⟩
    | solid declared solid ih =>
      rcases (refine?_eq_none_iff_of_solid solid).1 refused with differ | ⟨step, d, h, there, toldThere, refused⟩
      · exact ⟨[], declared, hint, rfl, rfl, .inr (.inr ⟨solid, differ⟩)⟩
      · obtain ⟨p, node, told, declaredPart, hintPart, contradict⟩ := ih step d there refused
        exact ⟨step :: p, node, told, part?_cons_eq_some_iff.2 ⟨d, there, declaredPart⟩,
          part?_cons_eq_some_iff.2 ⟨h, toldThere, hintPart⟩, contradict⟩
  · rintro ⟨p, node, told, there, toldThere, contradict⟩
    rw [Option.eq_none_iff_forall_ne_some]
    intro refined accepted
    obtain ⟨told', narrowed, same, -, last⟩ := refine?_part? accepted there
    rw [toldThere] at same
    cases same
    rw [refine?_of_contradict contradict] at last
    cases last

/-! ## Signatures that a hint does not change -/

/-- a node that is no hole stays if its parts do -/
theorem refine?_eq_self (solid : ∀ container, declared.shape ≠ .hole container)
    (agrees : declared.shape.head.Agrees hint.shape.head)
    (parts : ∀ step d h, declared.child? step = some d → hint.child? step = some h → d.refine? h = some d) :
    declared.refine? hint = some declared := by
  have fine : declared.refine? hint ≠ none := by
    rw [ne_eq, refine?_eq_none_iff_of_solid solid]
    rintro (differ | ⟨step, d, h, here, there, refused⟩)
    · exact differ agrees
    · rw [parts step d h here there] at refused
      cases refused
  obtain ⟨refined, accepted⟩ := Option.ne_none_iff_exists'.1 fine
  have narrows := narrows_of_refine? solid accepted
  have same : declared = refined := by
    refine ext_child? narrows.access.symm narrows.head.symm fun step part here => ?_
    obtain ⟨told, there⟩ := exists_child?_of_agrees agrees here
    obtain ⟨r, refinedHere, last⟩ := narrows.parts step part told here there
    rw [parts step part told here there] at last
    cases last
    exact refinedHere
  rw [accepted, same]

/-- A signature as its own hint changes nothing. -/
theorem refine?_self (s : Signature) : s.refine? s = some s := by
  induction s using nodeInduction with
  | hole access container => exact refine?_hole_eq_some_iff.2 ⟨nofun, fun known isKnown => isKnown, rfl⟩
  | solid s solid ih =>
    refine refine?_eq_self solid (Head.agrees_of_eq rfl) fun step d h here there => ?_
    cases here.symm.trans there
    exact ih step d here

/-- The same hint once more changes nothing. -/
theorem refine?_again (accepted : declared.refine? hint = some refined) : refined.refine? hint = some refined := by
  induction declared using nodeInduction generalizing hint refined with
  | hole access container =>
    obtain ⟨-, -, rfl⟩ := refine?_hole_eq_some_iff.1 accepted
    exact refine?_eq_some_iff.2 (refine?_eq_some_iff.1 (refine?_self ⟨access, hint.shape⟩))
  | solid declared solid ih =>
    have narrows := narrows_of_refine? solid accepted
    refine refine?_eq_self (narrows.solid solid) (narrows.head ▸ narrows.agrees) fun step r h here there => ?_
    obtain ⟨d, declaredHere, last⟩ := narrows.part there here
    exact ih step d declaredHere last

theorem firstHole?_child? {s part : Signature} {step : Step} (resolved : s.firstHole? = none)
    (here : s.child? step = some part) : part.firstHole? = none := by
  obtain ⟨access, shape⟩ := s
  cases shape with
  | tuple elems =>
    cases step with
    | index i => exact firstHole?_tuple_iff.1 resolved part (List.mem_of_getElem? here)
    | _ => cases here
  | list elem =>
    cases step <;> cases here
    exact firstHole?_list_iff.1 resolved
  | dict key value =>
    cases step <;> cases here
    exact firstHole?_dict_iff.1 resolved
  | _ => cases here

/-- A type without holes is left as it is. -/
theorem eq_of_refine? (resolved : declared.firstHole? = none) (accepted : declared.refine? hint = some refined) :
    refined = declared := by
  induction declared using nodeInduction generalizing hint refined with
  | hole access container =>
    rw [firstHole?_hole] at resolved
    cases resolved
  | solid declared solid ih =>
    have narrows := narrows_of_refine? solid accepted
    refine (ext_child? narrows.access.symm narrows.head.symm fun step part here => ?_).symm
    obtain ⟨told, there⟩ := exists_child?_of_agrees narrows.agrees here
    obtain ⟨r, refinedHere, last⟩ := narrows.parts step part told here there
    rw [← ih step part here (firstHole?_child? resolved here) last]
    exact refinedHere

/-! ## The first hole -/

theorem firstHoleFrom?_congr {elems others : List Signature} (length : elems.length = others.length)
    (same : ∀ (i : Nat) (a b : Signature), elems[i]? = some a → others[i]? = some b → a.firstHole? = b.firstHole?) (i : Nat) :
    firstHoleFrom? i elems = firstHoleFrom? i others := by
  induction elems generalizing others i with
  | nil =>
    obtain rfl := List.length_eq_zero_iff.1 length.symm
    rfl
  | cons elem rest ih =>
    cases others with
    | nil => cases length
    | cons other others =>
      rw [firstHoleFrom?, firstHoleFrom?, same 0 elem other rfl rfl,
        ih (Nat.succ.inj length) (fun j a b here there => same (j + 1) a b here there)]

theorem firstHole?_congr {s t : Signature} (agrees : s.shape.head.Agrees t.shape.head)
    (same : ∀ step a b, s.child? step = some a → t.child? step = some b → a.firstHole? = b.firstHole?) :
    s.firstHole? = t.firstHole? := by
  obtain ⟨a, shape⟩ := s
  obtain ⟨b, other⟩ := t
  rw [firstHole?, firstHole?]
  cases shape with
  | tuple elems =>
    cases other with
    | tuple others =>
      rw [Shape.firstHole?, Shape.firstHole?]
      exact firstHoleFrom?_congr (Head.tuple.inj agrees) (fun i => same (.index i)) 0
    | _ => cases agrees
  | list elem =>
    cases other with
    | list elem' => rw [Shape.firstHole?, Shape.firstHole?, same .element elem elem' rfl rfl]
    | _ => cases agrees
  | dict key value =>
    cases other with
    | dict key' value' => rw [Shape.firstHole?, Shape.firstHole?, same .value value value' rfl rfl]
    | _ => cases agrees
  | primitive kind =>
    cases other with
    | primitive kind' => rfl
    | _ => cases agrees
  | hole container =>
    cases other with
    | hole container' => rfl
    | _ => cases agrees
  | void =>
    cases other with
    | void => rfl
    | _ => cases agrees

theorem firstHole?_of_refine? (accepted : declared.refine? hint = some refined) :
    refined.firstHole? = hint.firstHole? := by
  induction declared using nodeInduction generalizing hint refined with
  | hole access container =>
    obtain ⟨-, -, rfl⟩ := refine?_hole_eq_some_iff.1 accepted
    obtain ⟨access', shape⟩ := hint
    rw [firstHole?, firstHole?]
  | solid declared solid ih =>
    have narrows := narrows_of_refine? solid accepted
    refine firstHole?_congr (narrows.head ▸ narrows.agrees) fun step r h here there => ?_
    obtain ⟨d, declaredHere, last⟩ := narrows.part there here
    exact ih step d declaredHere last

/-! ## The result and the fault -/

theorem refine_ok_iff : declared.refine hint = .ok refined ↔ declared.refine? hint = some refined := by
  unfold refine
  cases declared.refine? hint <;> simp

theorem refine_error_iff {fault : Fault} :
    declared.refine hint = .error fault ↔
      declared.refine? hint = none ∧ fault = .typeMismatch declared.written hint.written [] := by
  unfold refine
  cases declared.refine? hint <;> simp [Fault.mismatch, eq_comm]

/-- **A hint fills holes and does nothing else.** Whatever the declared type and the hint are: a type as its own hint is taken and
changes nothing. If a hint is taken, each node of the declared type stays what it is, but that a hole takes the shape that the
hint has in its place, with the access that was declared; the first hole is then that of the hint; a type without holes is not
changed at all, and the same hint once more changes nothing. A hint is refused exactly if it contradicts the declared type at
some path that leads to a part of both, and then the two types are reported. -/
theorem refine_fills_holes (declared hint : Signature) :
    declared.refine declared = .ok declared ∧
    (∀ refined, declared.refine hint = .ok refined →
      (∀ p node, part? p declared = some node → (∀ container, node.shape ≠ .hole container) →
        ∃ same, part? p refined = some same ∧ same.access = node.access ∧ same.shape.head = node.shape.head) ∧
      (∀ p access container, part? p declared = some ⟨access, .hole container⟩ →
        ∃ told, part? p hint = some told ∧ part? p refined = some ⟨access, told.shape⟩) ∧
      refined.firstHole? = hint.firstHole? ∧
      (hint.isResolved = true → refined.isResolved = true) ∧
      (¬ declared.HasHole → refined = declared) ∧
      refined.refine hint = .ok refined) ∧
    ((∃ fault, declared.refine hint = .error fault) ↔
      ∃ p node told, part? p declared = some node ∧ part? p hint = some told ∧ Contradict node.shape told.shape) ∧
    ∀ fault, declared.refine hint = .error fault → fault = .typeMismatch declared.written hint.written [] := by
  refine ⟨refine_ok_iff.2 (refine?_self declared), fun refined accepted => ?_, ?_,
    fun fault refused => (refine_error_iff.1 refused).2⟩
  · have accepted := refine_ok_iff.1 accepted
    have holes := firstHole?_of_refine? accepted
    refine ⟨fun p node => solid_of_refine? accepted, fun p access container => hole_of_refine? accepted, holes, ?_, ?_,
      refine_ok_iff.2 (refine?_again accepted)⟩
    · rw [isResolved_iff, isResolved_iff, holes]
      exact id
    · intro solid
      have resolved : declared.firstHole? = none := by
        by_contra found
        exact solid (hasHole_of_firstHole?_ne_none found)
      exact eq_of_refine? resolved accepted
  · rw [← refine?_eq_none_iff_exists]
    simp only [refine_error_iff, exists_and_left, exists_eq, and_true]

/-- a borrowed tuple of a byte, a word and a list of unknown contents: the hint has another width and access, a list that is
itself unknown further down, and a dictionary for the word -/
theorem refine_fills_holes_tuple :
    let byte : Signature := .owned (.primitive (.int .u8))
    let long : Signature := ⟨.rawMut, .primitive (.int .i64)⟩
    let dict : Signature := .owned (.dict .text long)
    let list : Signature := ⟨.borrowed, .list .word⟩
    let declared : Signature := ⟨.borrowed, .tuple [byte, .word, ⟨.rawConst, .hole (some .list)⟩]⟩
    let hint : Signature := .owned (.tuple [long, dict, list])
    let refined : Signature := ⟨.borrowed, .tuple [byte, dict, ⟨.rawConst, .list .word⟩]⟩
    declared.refine hint = .ok refined ∧ refined.firstHole? = some [.index 2, .element] ∧ refined.refine hint = .ok refined ∧
      ¬ ∃ fault, declared.refine hint = .error fault := by
  intro byte long dict list declared hint refined
  obtain ⟨-, accepted, -, -⟩ := refine_fills_holes declared hint
  have taken : declared.refine hint = .ok refined := rfl
  obtain ⟨-, -, holes, -, -, again⟩ := accepted refined taken
  refine ⟨taken, holes.trans rfl, again, ?_⟩
  rintro ⟨fault, refused⟩
  cases taken.symm.trans refused

end Signature

end NativeBridge
