/-
Refinement of a declared signature by a hint. A hole takes the shape of the hint, provided that the hint is a container of
the kind the hole is known to be; everywhere else the hint has to agree with what was declared, integer widths aside, and
the declared access always stays.

- `Signature.access_refine?`: a refined signature keeps the declared access.
-/
import NativeBridge.Signature.Printer

namespace NativeBridge

mutual

/-- the declared shape narrowed by a hint -/
def Shape.refine? : Shape → Shape → Option Shape
  | .void, .void => some .void
  | .void, _ | _, .void => none
  | .hole none, hint => some hint
  | .hole (some head), hint => if hint.container? = some head then some hint else none
  | .primitive (.int w), .primitive (.int _) => some (.primitive (.int w))
  | .primitive a, .primitive b => if a = b then some (.primitive a) else none
  | .list declared, .list hint => (declared.refine? hint).map .list
  | .tuple declared, .tuple hints => (Signature.refineList? declared hints).map .tuple
  | .dict key declared, .dict hintKey hint =>
    if key = hintKey then (declared.refine? hint).map (.dict key) else none
  | _, _ => none

/-- the declared signature narrowed by a hint -/
def Signature.refine? : Signature → Signature → Option Signature
  | ⟨access, declared⟩, hint => (declared.refine? hint.shape).map fun shape => ⟨access, shape⟩

/-- the elements of a tuple narrowed by as many hints -/
def Signature.refineList? : List Signature → List Signature → Option (List Signature)
  | [], [] => some []
  | declared :: rest, hint :: hints =>
    match declared.refine? hint, Signature.refineList? rest hints with
    | some refined, some others => some (refined :: others)
    | _, _ => none
  | _, _ => none

end

namespace Signature

/-- the declared signature narrowed by a hint, or the two that do not agree -/
def refine (declared hint : Signature) : Except Fault Signature :=
  match declared.refine? hint with
  | some refined => .ok refined
  | none => .error (.mismatch declared.written hint.written)

theorem access_refine? {declared hint refined : Signature} (h : declared.refine? hint = some refined) :
    refined.access = declared.access := by
  obtain ⟨access, shape⟩ := declared
  obtain ⟨_, _, rfl⟩ := Option.map_eq_some_iff.1 (show (shape.refine? hint.shape).map _ = some refined from h)
  rfl

end Signature

end NativeBridge
