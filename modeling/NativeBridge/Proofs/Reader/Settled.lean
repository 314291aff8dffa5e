/-
What a reader can give at all. Inside brackets no declaration is void, and a list without brackets is read as a list of
words, so a signature that was read has neither a void signature below its root nor anywhere a list that does not tell its
elements.

- `Signature.below_iff`, `Signature.occurs_iff`: what stands below a signature stands in one of its parts.
- `Signature.settled_iff`: a signature is settled exactly if its root and its parts are.
- `partsSettled`: the readers inside brackets, by induction on the length of their text.
- `settled_of_read`: every signature that is read is settled.
-/
import Mathlib.Logic.Relation
import NativeBridge.Proofs.Signature
import NativeBridge.Signature.Reader

namespace NativeBridge

open Text

namespace Signature

variable {p s part : Signature}

/-! ## Parts -/

/-- what stands inside the brackets of a container -/
def parts (s : Signature) : List Signature :=
  match s.shape with
  | .tuple elems => elems
  | .list elem => [elem]
  | .dict _ value => [value]
  | .primitive _ | .hole _ | .void => []

/-- one signature stands strictly below another: it is a part of it, or stands below a part -/
def Below : Signature → Signature → Prop := Relation.TransGen fun part whole => part ∈ whole.parts

/-- one signature occurs in another: it is the other itself, or stands below it -/
def Occurs : Signature → Signature → Prop := Relation.ReflTransGen fun part whole => part ∈ whole.parts

theorem below_iff : p.Below s ↔ ∃ part ∈ s.parts, p.Occurs part := by
  constructor
  · intro h
    obtain ⟨part, occurs, mem⟩ := Relation.TransGen.tail'_iff.1 h
    exact ⟨part, mem, occurs⟩
  · rintro ⟨part, mem, occurs⟩
    exact Relation.TransGen.tail'_iff.2 ⟨part, occurs, mem⟩

theorem occurs_iff : p.Occurs s ↔ p = s ∨ p.Below s := by
  rw [Occurs, Relation.reflTransGen_iff_eq_or_transGen, eq_comm]
  rfl

/-! ## Settled signatures -/

/-- somewhere below the root stands a void signature -/
def HasVoidBelow (s : Signature) : Prop := ∃ p : Signature, p.Below s ∧ p.isVoid = true

/-- somewhere in the signature occurs a list that does not tell its elements -/
def HasBareList (s : Signature) : Prop := ∃ p : Signature, p.Occurs s ∧ p.shape = .hole (some .list)

theorem hasVoidBelow_iff : s.HasVoidBelow ↔ ∃ part ∈ s.parts, part.isVoid = true ∨ part.HasVoidBelow := by
  constructor
  · rintro ⟨p, below, void⟩
    obtain ⟨part, mem, occurs⟩ := below_iff.1 below
    rcases occurs_iff.1 occurs with rfl | below
    · exact ⟨p, mem, .inl void⟩
    · exact ⟨part, mem, .inr ⟨p, below, void⟩⟩
  · rintro ⟨part, mem, void | ⟨p, below, void⟩⟩
    · exact ⟨part, below_iff.2 ⟨part, mem, occurs_iff.2 (.inl rfl)⟩, void⟩
    · exact ⟨p, below_iff.2 ⟨part, mem, occurs_iff.2 (.inr below)⟩, void⟩

theorem hasBareList_iff : s.HasBareList ↔ s.shape = .hole (some .list) ∨ ∃ part ∈ s.parts, part.HasBareList := by
  constructor
  · rintro ⟨p, occurs, bare⟩
    rcases occurs_iff.1 occurs with rfl | below
    · exact .inl bare
    · obtain ⟨part, mem, occurs⟩ := below_iff.1 below
      exact .inr ⟨part, mem, p, occurs, bare⟩
  · rintro (bare | ⟨part, mem, p, occurs, bare⟩)
    · exact ⟨s, occurs_iff.2 (.inl rfl), bare⟩
    · exact ⟨p, occurs_iff.2 (.inr (below_iff.2 ⟨part, mem, occurs⟩)), bare⟩

/-- nothing below the root is void, and every list tells its elements -/
def Settled (s : Signature) : Prop := ¬ s.HasVoidBelow ∧ ¬ s.HasBareList

/-- fit to stand inside brackets -/
def SettledPart (s : Signature) : Prop := s.isVoid = false ∧ s.Settled

theorem settled_iff : s.Settled ↔ s.shape ≠ .hole (some .list) ∧ ∀ part ∈ s.parts, part.SettledPart := by
  rw [Settled, hasVoidBelow_iff, hasBareList_iff]
  constructor
  · rintro ⟨noVoid, noBare⟩
    refine ⟨fun bare => noBare (.inl bare), fun part mem => ⟨?_, ?_, ?_⟩⟩
    · exact eq_false_of_ne_true fun void => noVoid ⟨part, mem, .inl void⟩
    · exact fun below => noVoid ⟨part, mem, .inr below⟩
    · exact fun bare => noBare (.inr ⟨part, mem, bare⟩)
  · rintro ⟨root, parts⟩
    constructor
    · rintro ⟨part, mem, void | below⟩
      · exact absurd void (by simp [(parts part mem).1])
      · exact (parts part mem).2.1 below
    · rintro (bare | ⟨part, mem, bare⟩)
      · exact root bare
      · exact (parts part mem).2.2 bare

/-- whether a signature is settled does not depend on its access -/
theorem Settled.withAccess (settled : s.Settled) (access : Access) : Settled { s with access } := by
  obtain ⟨root, parts⟩ := settled_iff.1 settled
  exact settled_iff.2 ⟨root, parts⟩

end Signature

namespace Reader

variable {s : List Char} {γ δ : Type} {x : Except Fault γ} {P : γ → Prop} {Q : δ → Prop}

open Signature (Settled SettledPart settled_iff)

/-- whatever value the computation gives has the property -/
def Ensures (x : Except Fault γ) (P : γ → Prop) : Prop := ∀ c, x = .ok c → P c

theorem Ensures.ok {c : γ} (h : P c) : Ensures (.ok c) P := by
  rintro _ ⟨⟩
  exact h

theorem Ensures.error (fault : Fault) : Ensures (.error fault) P := nofun

theorem Ensures.any (x : Except Fault γ) : Ensures x fun _ => True := fun _ _ => trivial

theorem Ensures.bind {f : γ → Except Fault δ} (h : Ensures x P) (next : ∀ c, P c → Ensures (f c) Q) :
    Ensures (x >>= f) Q := by
  intro d run
  cases x with
  | error fault => exact absurd run nofun
  | ok c => exact next c (h c rfl) d run

/-- whatever the readers inside brackets give on this text is fit to stand there -/
def PartsSettled (s : List Char) : Prop := ∀ source,
  Ensures (nested source s) (fun c => c.1.SettledPart) ∧ Ensures (list source s) (fun c => ∀ elem ∈ c.1, elem.SettledPart)

theorem settled_tuple {elems : List Signature} (parts : ∀ elem ∈ elems, elem.SettledPart) :
    Settled (.owned (.tuple elems)) := settled_iff.2 ⟨nofun, parts⟩

theorem settled_list {elem : Signature} (part : elem.SettledPart) : Settled (.owned (.list elem)) :=
  settled_iff.2 ⟨nofun, List.forall_mem_singleton.2 part⟩

theorem settled_dict {key : KeyKind} {value : Signature} (part : value.SettledPart) :
    Settled (.owned (.dict key value)) :=
  settled_iff.2 ⟨nofun, List.forall_mem_singleton.2 part⟩

theorem settledPart_word : SettledPart .word := ⟨rfl, settled_iff.2 ⟨nofun, nofun⟩⟩

theorem settled_void : Settled (.owned .void) := settled_iff.2 ⟨nofun, nofun⟩

theorem settled_named {name : String} {shape : Shape} (h : named? name = some shape) : Settled (.owned shape) := by
  unfold named? at h
  split at h
  · obtain rfl := Option.some.inj h
    exact settled_iff.2 ⟨nofun, nofun⟩
  · split at h
    all_goals cases h
    -- of all names, `WireList` alone stands for a shape with a part
    all_goals first | exact settled_list settledPart_word | exact settled_iff.2 ⟨nofun, nofun⟩

theorem base_settled (source : List Char) (shorter : ∀ t : List Char, t.length < s.length → PartsSettled t) :
    Ensures (base source s) (fun c => c.1.Settled) := by
  rw [base]
  split
  · next inner _ =>
    refine (shorter inner inner.2 source).2.bind ?_
    rintro ⟨elems, trailing, rest⟩ parts
    refine .ok ?_
    dsimp only
    split
    · exact settled_void
    · exact (parts _ List.mem_cons_self).2
    · exact settled_tuple parts
  · refine (Ensures.any _).bind ?_
    rintro ⟨name, afterName⟩ -
    dsimp only
    split
    · next mark _ =>
      split
      · refine (shorter _ (afterName.andRead mark).2 source).1.bind ?_
        rintro ⟨elem, afterElem⟩ part
        exact (Ensures.any _).bind fun rest _ => .ok (settled_list part)
      · split
        · refine (Ensures.any _).bind ?_
          rintro ⟨-, keyStart⟩ -
          refine (Ensures.any _).bind ?_
          rintro ⟨keyName, afterKey⟩ -
          refine (Ensures.any _).bind fun kind _ => ?_
          refine (Ensures.any _).bind fun comma _ => ?_
          refine (shorter _ (((afterName.andRead mark).andRead (keyStart.andRead afterKey)).andRead comma).2 source).1.bind ?_
          rintro ⟨value, afterValue⟩ part
          exact (Ensures.any _).bind fun rest _ => .ok (settled_dict part)
        · exact .error _
    · split
      · next mark _ =>
        refine (shorter _ (afterName.andRead mark).2 source).2.bind ?_
        rintro ⟨elems, trailing, rest⟩ parts
        exact .ok (settled_tuple parts)
      · split
        · next shape named => exact .ok (settled_named named)
        · exact .error _

theorem declaration_settled (source : List Char) (shorter : ∀ t : List Char, t.length < s.length → PartsSettled t) :
    Ensures (declaration source s) (fun c => c.1.Settled) := by
  rw [declaration]
  refine (Ensures.any _).bind ?_
  rintro ⟨outer, afterAccess⟩ -
  refine (base_settled source fun t h => shorter t (Nat.lt_of_lt_of_le h afterAccess.2)).bind ?_
  rintro ⟨inner, rest⟩ settled
  refine .ok ?_
  dsimp only
  split
  · exact settled
  · exact settled.withAccess outer

theorem nested_settled {source : List Char} (whole : Ensures (declaration source s) (fun c => c.1.Settled)) :
    Ensures (nested source s) (fun c => c.1.SettledPart) := by
  rw [nested]
  refine whole.bind ?_
  rintro ⟨inner, rest⟩ settled
  dsimp only
  split
  · exact .error _
  · next solid => exact .ok ⟨eq_false_of_ne_true solid, settled⟩

theorem list_settled {source : List Char} (first : Ensures (nested source s) (fun c => c.1.SettledPart))
    (shorter : ∀ t : List Char, t.length < s.length → PartsSettled t) :
    Ensures (list source s) (fun c => ∀ elem ∈ c.1, elem.SettledPart) := by
  rw [list]
  split
  · exact .ok fun elem mem => absurd mem List.not_mem_nil
  · refine first.bind ?_
    rintro ⟨elem, afterElem⟩ part
    have single : ∀ other ∈ [elem], other.SettledPart := List.forall_mem_singleton.2 part
    dsimp only
    split
    · next comma _ =>
      split
      · exact .ok single
      · refine (shorter _ (afterElem.andRead comma).2 source).2.bind ?_
        rintro ⟨others, trailing, rest⟩ parts
        exact .ok (List.forall_mem_cons.2 ⟨part, parts⟩)
    · exact (Ensures.any _).bind fun rest _ => .ok single

/-- By induction on the length of the text: what stands inside brackets is shorter than the text with the brackets. -/
theorem partsSettled (s : List Char) : PartsSettled s := by
  induction h : s.length using Nat.strong_induction_on generalizing s with
  | _ n ih =>
    have shorter : ∀ t : List Char, t.length < s.length → PartsSettled t := fun t lt => ih t.length (h ▸ lt) t rfl
    intro source
    have first := nested_settled (declaration_settled source shorter)
    exact ⟨first, list_settled first shorter⟩

end Reader

/-- **Every signature that is read is settled.** -/
theorem Signature.settled_of_read {text : String} {s : Signature} (h : Signature.read text = .ok s) : s.Settled := by
  have settled : Reader.Ensures (Signature.read text) Signature.Settled := by
    refine (Reader.declaration_settled _ fun t _ => Reader.partsSettled t).bind ?_
    rintro ⟨whole, rest⟩ settled
    dsimp only
    split
    · exact .ok settled
    · exact .error _
  exact settled s h

end NativeBridge
