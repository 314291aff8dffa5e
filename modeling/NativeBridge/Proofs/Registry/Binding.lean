/-
The functions that a list of declarations binds one after the other, said at once: what each declaration gives, in the order
of the names.

- `foldlM_error_iff`: a run over a list fails where the first step fails.
- `foldlM_addDeclaration_ok_iff`: what is bound behind the functions so far.
- `Binds`: what is bound from nothing; `Binds.of_perm`, `Binds.mem_iff`, `Binds.names_iff`: it is the same in every order of
  the declarations, and these are its functions and their names.
-/
import Mathlib.Data.List.ReduceOption
import Mathlib.Tactic
import NativeBridge.Proofs.Ordered
import NativeBridge.Proofs.Partners
import NativeBridge.Proofs.Registry.Entry

namespace NativeBridge

/-- a run over a list fails where the first step fails -/
theorem foldlM_error_iff {σ α : Type} {step : σ → α → Except Fault σ} {list : List α} {start : σ} {fault : Fault} :
    list.foldlM step start = .error fault ↔ ∃ before a after state, list = before ++ a :: after ∧
      before.foldlM step start = .ok state ∧ step state a = .error fault := by
  induction list generalizing start with
  | nil =>
    constructor
    · rintro ⟨⟩
    · rintro ⟨before, a, after, -, split, -⟩
      simp at split
  | cons first rest ih =>
    rw [List.foldlM_cons]
    constructor
    · intro fails
      cases made : step start first with
      | error other =>
        rw [made] at fails
        exact ⟨[], first, rest, start, rfl, rfl, made.trans fails⟩
      | ok next =>
        rw [made, Reader.ok_bind, ih] at fails
        obtain ⟨before, a, after, state, rfl, passes, fails⟩ := fails
        refine ⟨first :: before, a, after, state, rfl, ?_, fails⟩
        rw [List.foldlM_cons, made, Reader.ok_bind, passes]
    · rintro ⟨_ | ⟨b, before⟩, a, after, state, split, passes, fails⟩
      · obtain ⟨rfl, rfl⟩ := List.cons.inj split
        cases passes
        rw [fails, Reader.error_bind]
      · obtain ⟨rfl, rfl⟩ := List.cons.inj split
        rw [List.foldlM_cons] at passes
        cases made : step start first with
        | error other => rw [made] at passes; cases passes
        | ok next =>
          rw [made, Reader.ok_bind] at passes
          rw [Reader.ok_bind, ih]
          exact ⟨before, a, after, state, rfl, passes, fails⟩

namespace Registry

open RegistryOptions (namedBy_unique)

/-! ## Functions in the order of their names -/

section Names

variable {name : String} {f : BoundFunction} {functions : List (String × BoundFunction)}

instance : IsStrictTotalOrder String (nameBefore · · = true) where
  irrefl a := by simp only [nameBefore, decide_eq_true_eq, String.lt_irrefl, not_false_eq_true]
  trans a b c := by
    simp only [nameBefore, decide_eq_true_eq]
    exact String.lt_trans
  trichotomous a b first second := by
    simp only [nameBefore, decide_eq_true_eq] at first second
    exact String.le_antisymm (String.not_lt.1 second) (String.not_lt.1 first)

/-- functions in the order of their names, each name once -/
abbrev Ascending (functions : List (String × BoundFunction)) : Prop := Ordered.Ascending nameBefore functions

theorem lookup_eq_some_iff (nodup : (functions.map Prod.fst).Nodup) :
    functions.lookup name = some f ↔ (name, f) ∈ functions := by
  induction functions with
  | nil => simp
  | cons first rest ih =>
    obtain ⟨other, g⟩ := first
    obtain ⟨fresh, nodup⟩ := List.nodup_cons.1 nodup
    rw [List.mem_cons]
    by_cases same : name = other
    · subst same
      rw [List.lookup_cons_self, Option.some.injEq, Prod.mk.injEq]
      refine ⟨fun h => .inl ⟨rfl, h.symm⟩, fun h => h.elim (fun h => h.2.symm) fun mem => ?_⟩
      exact absurd (List.mem_map_of_mem mem) fresh
    · rw [List.lookup_cons, beq_false_of_ne same, Prod.mk.injEq]
      simp only [ih nodup, same, false_and, false_or]

end Names

/-! ## Declarations one after the other -/

variable {options : RegistryOptions} {library : Library} {functions made : List (String × BoundFunction)}
  {declarations others before : List String} {text name symbol : String} {f : BoundFunction} {fault : Fault}
  {entry : Option (String × BoundFunction)} {entries : List (Option (String × BoundFunction))}

theorem ascending_added (ascending : Ascending functions) :
    Ascending (entry.elim functions fun e => Ordered.put nameBefore e.1 e.2 functions) := by
  cases entry with
  | none => exact ascending
  | some e => exact Ordered.ascending_put e.1 e.2 ascending

theorem perm_added (fresh : ∀ e ∈ entry, e.1 ∉ functions.map Prod.fst) :
    (entry.elim functions fun e => Ordered.put nameBefore e.1 e.2 functions).Perm (functions ++ entry.toList) := by
  cases entry with
  | none => exact .of_eq (List.append_nil functions).symm
  | some e => exact (Ordered.put_perm (fresh e rfl)).trans (List.perm_append_singleton e functions).symm

theorem reduceOption_cons : (entry :: entries).reduceOption = entry.toList ++ entries.reduceOption := by
  cases entry with
  | none => exact List.reduceOption_cons_of_none entries
  | some e => exact List.reduceOption_cons_of_some e entries

/-- **Declarations that are added one after the other bind what they give**, if no two of them have one name. -/
theorem foldlM_addDeclaration_ok_iff (ascending : Ascending functions) :
    declarations.foldlM (addDeclaration options library) functions = .ok made ↔ Ascending made ∧
      ∃ entries, List.Forall₂ (Gives options library) declarations entries ∧
        made.Perm (functions ++ entries.reduceOption) := by
  -- the functions so far are in order and have the names that are taken, whatever was bound before
  induction declarations generalizing functions with
  | nil =>
    simp only [List.foldlM_nil, List.forall₂_nil_left_iff, exists_eq_left, List.reduceOption_nil, List.append_nil]
    constructor
    · rintro ⟨⟩
      exact ⟨ascending, .refl _⟩
    · rintro ⟨sorted, perm⟩
      exact congrArg Except.ok (ascending.eq_of_perm perm.symm sorted)
  | cons text rest ih =>
    rw [List.foldlM_cons]
    constructor
    · intro run
      cases added : addDeclaration options library functions text with
      | error fault => rw [added] at run; cases run
      | ok next =>
        rw [added, Reader.ok_bind] at run
        obtain ⟨entry, gives, fresh, rfl⟩ := addDeclaration_ok_iff.1 added
        obtain ⟨sorted, entries, others, perm⟩ := (ih (ascending_added ascending)).1 run
        refine ⟨sorted, entry :: entries, .cons gives others, ?_⟩
        rw [reduceOption_cons, ← List.append_assoc]
        exact perm.trans ((perm_added fresh).append_right _)
    · -- the names of all functions differ in the end, so the name of the first one is new now
      rintro ⟨sorted, _, gives, perm⟩
      obtain ⟨entry, entries, first, others, rfl⟩ := List.forall₂_cons_left_iff.1 gives
      rw [reduceOption_cons, ← List.append_assoc] at perm
      have nodup : ((functions ++ entry.toList ++ entries.reduceOption).map Prod.fst).Nodup :=
        (perm.map Prod.fst).nodup_iff.1 sorted.nodup
      have fresh : ∀ e ∈ entry, e.1 ∉ functions.map Prod.fst := by
        rintro e ⟨⟩ taken
        rw [List.map_append, List.map_append, List.nodup_append', List.nodup_append'] at nodup
        exact nodup.1.2.2 taken (by simp)
      rw [addDeclaration_ok_iff.2 ⟨entry, first, fresh, rfl⟩, Reader.ok_bind, ih (ascending_added ascending)]
      exact ⟨sorted, entries, others, perm.trans ((perm_added fresh).symm.append_right _)⟩

/-! ## What a list of declarations binds -/

/-- these functions, in the order of their names, are what the declarations give -/
def Binds (options : RegistryOptions) (library : Library) (declarations : List String)
    (functions : List (String × BoundFunction)) : Prop :=
  Ascending functions ∧
    ∃ entries, List.Forall₂ (Gives options library) declarations entries ∧ functions.Perm entries.reduceOption

theorem addAll_ok_iff :
    declarations.foldlM (addDeclaration options library) [] = .ok made ↔ Binds options library declarations made :=
  foldlM_addDeclaration_ok_iff .nil

/-- the order of the declarations does not count -/
theorem Binds.of_perm (perm : declarations.Perm others) (h : Binds options library declarations functions) :
    Binds options library others functions := by
  obtain ⟨ascending, entries, gives, all⟩ := h
  obtain ⟨entries', gives', perm'⟩ := List.perm_comp_forall₂ perm.symm gives
  exact ⟨ascending, entries', gives', all.trans (perm'.symm.filterMap id)⟩

/-- a declaration gives one thing only -/
theorem gives_unique {other : Option (String × BoundFunction)} (h : Gives options library text entry)
    (h' : Gives options library text other) : entry = other := by
  cases h with
  | passed split unnamed =>
    cases h' with
    | passed => rfl
    | bound split' named _ _ =>
      cases split.symm.trans split'
      exact absurd named (unnamed _)
  | bound split named reads exported =>
    cases h' with
    | passed split' unnamed =>
      cases split.symm.trans split'
      exact absurd named (unnamed _)
    | bound split' named' reads' exported' =>
      cases split.symm.trans split'
      cases namedBy_unique named named'
      cases reads.symm.trans reads'
      cases exported.symm.trans exported'
      rfl

theorem Binds.mem_iff (h : Binds options library declarations functions) :
    (name, f) ∈ functions ↔ ∃ text ∈ declarations, Gives options library text (some (name, f)) := by
  obtain ⟨-, entries, gives, perm⟩ := h
  rw [perm.mem_iff, List.reduceOption_mem_iff]
  constructor
  · exact mem_left_of_forall₂ gives _
  · rintro ⟨text, mem, given⟩
    obtain ⟨entry, mem, given'⟩ := mem_left_of_forall₂ gives.flip text mem
    exact gives_unique given' given ▸ mem

theorem names_of_gives (gives : Gives options library text entry) :
    name ∈ entry.toList.map Prod.fst ↔ options.Names text name := by
  constructor
  · intro mem
    cases gives with
    | passed => simp at mem
    | bound split named _ _ =>
      obtain rfl : name = _ := by simpa using mem
      exact ⟨_, _, split, named⟩
  · rintro ⟨symbol, segments, split, named⟩
    cases gives with
    | passed split' unnamed =>
      cases split.symm.trans split'
      exact absurd named (unnamed name)
    | bound split' named' _ _ =>
      cases split.symm.trans split'
      simp [namedBy_unique named named']

theorem mem_names_iff (gives : List.Forall₂ (Gives options library) declarations entries) :
    name ∈ entries.reduceOption.map Prod.fst ↔ ∃ text ∈ declarations, options.Names text name := by
  induction gives with
  | nil => simp
  | cons first _ ih =>
    rw [reduceOption_cons, List.map_append, List.mem_append, names_of_gives first, ih, List.exists_mem_cons_iff]

theorem Binds.names_iff (h : Binds options library declarations functions) :
    name ∈ functions.map Prod.fst ↔ ∃ text ∈ declarations, options.Names text name := by
  obtain ⟨-, entries, gives, perm⟩ := h
  rw [(perm.map Prod.fst).mem_iff, mem_names_iff gives]

end Registry

end NativeBridge
