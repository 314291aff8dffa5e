/-
What one declaration gives to a registry: an entry under its name, no entry if it is passed over, or a fault. Of the
declarations before it nothing matters but their names.

- `FirstLeader`, `NamedBy`: how a symbol is named; `functionName?_eq_some_iff`: the model names symbols so.
- `Gives`, `Offends`: what a declaration gives, and the fault it is refused with.
- `addDeclaration_ok_iff`, `addDeclaration_error_iff`: one declaration is added to the functions bound so far.
-/
import Mathlib.Tactic
import NativeBridge.Proofs.Reader.Written
import NativeBridge.Registry

namespace NativeBridge

/-! ## Names -/

namespace RegistryOptions

variable {leaders : List String} {symbol leader other name : String}

/-- the symbol is the leader with something behind it, or with nothing -/
def BeginsWith (symbol leader : String) : Prop := ∃ rest, symbol = leader ++ rest

/-- of the leaders that the symbol begins with, this is the first -/
def FirstLeader (leaders : List String) (symbol leader : String) : Prop :=
  BeginsWith symbol leader ∧
    ∃ before after, leaders = before ++ leader :: after ∧ ∀ earlier ∈ before, ¬ BeginsWith symbol earlier

/-- the first leader leaves this name of the symbol, and the name is not empty -/
def NamedBy (leaders : List String) (symbol name : String) : Prop :=
  ∃ leader, FirstLeader leaders symbol leader ∧ symbol = leader ++ name ∧ name ≠ ""

/-- the declaration has a symbol, and is bound under this name -/
def Names (options : RegistryOptions) (text name : String) : Prop :=
  ∃ symbol segments, Declaration.split? text = some (symbol, segments) ∧ NamedBy options.leaders symbol name

theorem beginsWith_iff : BeginsWith symbol leader ↔ leader.toList.isPrefixOf symbol.toList = true := by
  rw [List.isPrefixOf_iff_prefix]
  constructor
  · rintro ⟨rest, rfl⟩
    rw [String.toList_append]
    exact List.prefix_append _ _
  · rintro ⟨rest, same⟩
    refine ⟨String.ofList rest, String.toList_injective ?_⟩
    rw [String.toList_append, String.toList_ofList, same]

theorem firstLeader_iff :
    FirstLeader leaders symbol leader ↔ leaders.find? (fun l => l.toList.isPrefixOf symbol.toList) = some leader := by
  rw [List.find?_eq_some_iff_append, FirstLeader, beginsWith_iff]
  simp only [beginsWith_iff, Bool.not_eq_true, Bool.not_eq_true']

theorem firstLeader_unique (h : FirstLeader leaders symbol leader) (h' : FirstLeader leaders symbol other) :
    leader = other := by
  rw [firstLeader_iff] at h h'
  exact Option.some.inj (h.symm.trans h')

theorem exists_firstLeader (mem : leader ∈ leaders) (begins : BeginsWith symbol leader) :
    ∃ first, FirstLeader leaders symbol first := by
  have found : (leaders.find? fun l => l.toList.isPrefixOf symbol.toList).isSome = true :=
    List.find?_isSome.2 ⟨leader, mem, beginsWith_iff.1 begins⟩
  obtain ⟨first, found⟩ := Option.isSome_iff_exists.1 found
  exact ⟨first, firstLeader_iff.2 found⟩

theorem afterLeader?_eq_some_iff {leader symbol rest : List Char} :
    afterLeader? leader symbol = some rest ↔ symbol = leader ++ rest := by
  unfold afterLeader?
  constructor
  · intro h
    split_ifs at h with begins
    obtain ⟨others, rfl⟩ := List.isPrefixOf_iff_prefix.1 begins
    rw [List.drop_left] at h
    rw [Option.some.inj h]
  · rintro rfl
    rw [if_pos (List.isPrefixOf_iff_prefix.2 (List.prefix_append _ _)), List.drop_left]

theorem afterLeader?_eq_none_iff : afterLeader? leader.toList symbol.toList = none ↔ ¬ BeginsWith symbol leader := by
  rw [beginsWith_iff]
  unfold afterLeader?
  split_ifs with begins
  · simp [begins]
  · simp [begins]

theorem findSome?_afterLeader?_iff {rest : List Char} :
    leaders.findSome? (fun leader => afterLeader? leader.toList symbol.toList) = some rest ↔
      ∃ leader, FirstLeader leaders symbol leader ∧ symbol = leader ++ String.ofList rest := by
  have same (leader : String) : symbol.toList = leader.toList ++ rest ↔ symbol = leader ++ String.ofList rest := by
    rw [← String.toList_inj, String.toList_append, String.toList_ofList]
  rw [List.findSome?_eq_some_iff]
  simp only [afterLeader?_eq_some_iff, afterLeader?_eq_none_iff, same]
  constructor
  · rintro ⟨before, leader, after, split, begins, others⟩
    exact ⟨leader, ⟨⟨_, begins⟩, before, after, split, others⟩, begins⟩
  · rintro ⟨leader, ⟨-, before, after, split, others⟩, begins⟩
    exact ⟨before, leader, after, split, begins, others⟩

/-- A symbol is named by the first leader that it begins with. -/
theorem functionName?_eq_some_iff {options : RegistryOptions} :
    options.functionName? symbol = some name ↔ NamedBy options.leaders symbol name := by
  unfold functionName?
  constructor
  · intro named
    split at named
    · cases named
    · cases named
    · next rest nonempty found =>
      cases named
      obtain ⟨leader, first, whole⟩ := findSome?_afterLeader?_iff.1 found
      refine ⟨leader, first, whole, fun empty => nonempty ?_⟩
      rw [← String.toList_ofList (l := rest), empty]
      rfl
  · rintro ⟨leader, first, whole, nonempty⟩
    have found : options.leaders.findSome? (fun leader => afterLeader? leader.toList symbol.toList) = some name.toList := by
      refine findSome?_afterLeader?_iff.2 ⟨leader, first, ?_⟩
      rw [String.ofList_toList]
      exact whole
    rw [found]
    split
    · next empty =>
      exact absurd (String.toList_eq_nil_iff.1 (Option.some.inj empty)) nonempty
    · next none => cases none
    · next rest _ same =>
      rw [← Option.some.inj same, String.ofList_toList]

theorem namedBy_unique (h : NamedBy leaders symbol name) (h' : NamedBy leaders symbol other) : name = other := by
  obtain ⟨leader, first, whole, -⟩ := h
  obtain ⟨leader', first', whole', -⟩ := h'
  obtain rfl := firstLeader_unique first first'
  exact String.append_right_inj leader |>.1 (whole.symm.trans whole')

end RegistryOptions

/-! ## Entries and faults -/

namespace Registry

open RegistryOptions (NamedBy functionName?_eq_some_iff namedBy_unique)

/-- what a declaration gives by itself: nothing if its symbol has no name, else a function that is declared as it says -/
inductive Gives (options : RegistryOptions) (library : Library) (text : String) : Option (String × BoundFunction) → Prop
  | passed {symbol : String} {segments : List Char} (split : Declaration.split? text = some (symbol, segments))
      (unnamed : ∀ name, ¬ NamedBy options.leaders symbol name) : Gives options library text none
  | bound {symbol name : String} {segments : List Char} {d : Declaration} {native : Native}
      (split : Declaration.split? text = some (symbol, segments)) (named : NamedBy options.leaders symbol name)
      (reads : Declaration.read text = .ok d) (exported : library.function symbol = .ok native) :
      Gives options library text (some (name, .declared name symbol library.name (.of d.params d.result) native))

/-- the fault that a declaration is refused with behind these others -/
inductive Offends (options : RegistryOptions) (library : Library) (before : List String) (text : String) : Fault → Prop
  | noSymbol (split : Declaration.split? text = none) : Offends options library before text (Declaration.notUnderstood text)
  | twice {name : String} (named : options.Names text name) (taken : ∃ earlier ∈ before, options.Names earlier name) :
      Offends options library before text (.duplicateBinding name)
  | unread {name : String} {fault : Fault} (named : options.Names text name)
      (fresh : ∀ earlier ∈ before, ¬ options.Names earlier name) (fails : Declaration.read text = .error fault) :
      Offends options library before text fault
  | missing {name : String} {d : Declaration} (named : options.Names text name)
      (fresh : ∀ earlier ∈ before, ¬ options.Names earlier name) (reads : Declaration.read text = .ok d)
      (absent : ∀ native, (d.symbol, native) ∉ library.exports) :
      Offends options library before text (.load (.symbolNotFound library.name d.symbol))

variable {options : RegistryOptions} {library : Library} {functions made : List (String × BoundFunction)}
  {before : List String} {text symbol name : String} {segments : List Char} {d : Declaration} {native : Native}
  {f : BoundFunction} {fault : Fault} {entry : Option (String × BoundFunction)}

/-- the symbol of a declaration that is read is the one that stands in front -/
theorem symbol_of_read (split : Declaration.split? text = some (symbol, segments)) (reads : Declaration.read text = .ok d) :
    d.symbol = symbol := by
  unfold Declaration.read at reads
  rw [split] at reads
  dsimp only at reads
  split at reads
  · cases types : Declaration.segments segments with
    | error fault => rw [types] at reads; cases reads
    | ok types' =>
      rw [types, Reader.ok_bind] at reads
      split at reads
      · cases reads
      · split at reads
        · cases reads
        · rw [← Except.ok.inj reads]
  · cases reads

theorem function_eq_error_iff :
    library.function symbol = .error fault ↔
      (∀ native, (symbol, native) ∉ library.exports) ∧ fault = .load (.symbolNotFound library.name symbol) := by
  unfold Library.function
  cases found : library.exports.lookup symbol with
  | some native =>
    obtain ⟨earlier, later, split, -⟩ := List.lookup_eq_some_iff.1 found
    have mem : (symbol, native) ∈ library.exports := split ▸ List.mem_append_right _ List.mem_cons_self
    simp only [reduceCtorEq, false_iff, not_and]
    exact fun absent => absurd mem (absent native)
  | none =>
    have absent : ∀ native, (symbol, native) ∉ library.exports := by
      intro native mem
      simpa using List.lookup_eq_none_iff.1 found _ mem
    simp only [Except.error.injEq, absent, not_false_eq_true, implies_true, true_and, eq_comm]

theorem bind_ok_iff (split : Declaration.split? text = some (symbol, segments)) :
    bind library name text = .ok f ↔ ∃ d native, Declaration.read text = .ok d ∧ library.function symbol = .ok native ∧
      f = .declared name symbol library.name (.of d.params d.result) native := by
  unfold bind
  cases reads : Declaration.read text with
  | error fault => simp [Reader.error_bind]
  | ok d =>
    obtain rfl := symbol_of_read split reads
    rw [Reader.ok_bind]
    cases library.function d.symbol with
    | error fault => simp [Reader.error_bind]
    | ok native => simp [Reader.ok_bind, eq_comm]

theorem bind_error_iff :
    bind library name text = .error fault ↔ Declaration.read text = .error fault ∨
      ∃ d, Declaration.read text = .ok d ∧ library.function d.symbol = .error fault := by
  unfold bind
  cases reads : Declaration.read text with
  | error fault => simp [Reader.error_bind]
  | ok d =>
    rw [Reader.ok_bind]
    cases exported : library.function d.symbol with
    | error fault => simp [Reader.error_bind, exported]
    | ok native => simp [Reader.ok_bind, exported]

theorem isSome_lookup_iff : (functions.lookup name).isSome = true ↔ name ∈ functions.map Prod.fst := by
  simp [List.lookup_isSome_iff]

/-- **A declaration adds what it gives**: nothing if it is passed over, else a function under a name that no function had. -/
theorem addDeclaration_ok_iff :
    addDeclaration options library functions text = .ok made ↔
      ∃ entry, Gives options library text entry ∧ (∀ e ∈ entry, e.1 ∉ functions.map Prod.fst) ∧
        made = entry.elim functions fun e => Ordered.put nameBefore e.1 e.2 functions := by
  unfold addDeclaration
  constructor
  · intro added
    split at added
    · cases added
    next symbol segments split =>
    split at added
    next unnamed =>
      cases added
      exact ⟨none, .passed split fun name named => by simp [functionName?_eq_some_iff.2 named] at unnamed, by simp, rfl⟩
    next name named =>
    split_ifs at added with taken
    rw [isSome_lookup_iff] at taken
    cases bound : bind library name text with
    | error fault => rw [bound] at added; cases added
    | ok f =>
      rw [bound] at added
      cases added
      obtain ⟨d, native, reads, exported, rfl⟩ := (bind_ok_iff split).1 bound
      exact ⟨some (name, _), .bound split (functionName?_eq_some_iff.1 named) reads exported, by simpa using taken, rfl⟩
  · rintro ⟨entry, gives, fresh, rfl⟩
    cases gives with
    | passed split unnamed =>
      have none : options.functionName? _ = none :=
        Option.eq_none_iff_forall_ne_some.2 fun name named => unnamed name (functionName?_eq_some_iff.1 named)
      simp only [split, none, Option.elim_none]
    | bound split named reads exported =>
      have free : ¬ (functions.lookup _).isSome = true := fun taken => fresh _ rfl (isSome_lookup_iff.1 taken)
      simp only [split, functionName?_eq_some_iff.2 named, if_neg free,
        (bind_ok_iff split).2 ⟨_, _, reads, exported, rfl⟩, Except.map, Option.elim_some]

/-- **A declaration is refused** with the fault that it offends with, when the functions so far have the names that the
declarations before it are bound under. -/
theorem addDeclaration_error_iff
    (names : ∀ name, name ∈ functions.map Prod.fst ↔ ∃ earlier ∈ before, options.Names earlier name) :
    addDeclaration options library functions text = .error fault ↔ Offends options library before text fault := by
  unfold addDeclaration
  constructor
  · intro refused
    split at refused
    next split =>
      cases refused
      exact .noSymbol split
    next symbol segments split =>
    split at refused
    · cases refused
    next name named =>
    have names_text : options.Names text name := ⟨symbol, segments, split, functionName?_eq_some_iff.1 named⟩
    split_ifs at refused with taken
    · cases refused
      exact .twice names_text ((names name).1 (isSome_lookup_iff.1 taken))
    rw [isSome_lookup_iff, names] at taken
    have fresh : ∀ earlier ∈ before, ¬ options.Names earlier name :=
      fun earlier mem names => taken ⟨earlier, mem, names⟩
    cases bound : bind library name text with
    | ok f => rw [bound] at refused; cases refused
    | error fault =>
      rw [bound] at refused
      cases refused
      rcases bind_error_iff.1 bound with fails | ⟨d, reads, missing⟩
      · exact .unread names_text fresh fails
      · obtain ⟨absent, rfl⟩ := function_eq_error_iff.1 missing
        exact .missing names_text fresh reads absent
  · have free {name : String} (fresh : ∀ earlier ∈ before, ¬ options.Names earlier name) :
        ¬ (functions.lookup name).isSome = true := by
      rw [isSome_lookup_iff, names]
      exact fun ⟨earlier, mem, names⟩ => fresh earlier mem names
    intro offends
    cases offends with
    | noSymbol split => simp only [split]
    | twice named taken =>
      obtain ⟨symbol, segments, split, named⟩ := named
      simp only [split, functionName?_eq_some_iff.2 named, if_pos (isSome_lookup_iff.2 ((names _).2 taken))]
    | unread named fresh fails =>
      obtain ⟨symbol, segments, split, named⟩ := named
      simp only [split, functionName?_eq_some_iff.2 named, if_neg (free fresh), bind_error_iff.2 (.inl fails), Except.map]
    | @missing name d named fresh reads absent =>
      obtain ⟨symbol, segments, split, named⟩ := named
      have missing : bind library name text = .error (.load (.symbolNotFound library.name d.symbol)) :=
        bind_error_iff.2 (.inr ⟨d, reads, function_eq_error_iff.2 ⟨absent, rfl⟩⟩)
      simp only [split, functionName?_eq_some_iff.2 named, if_neg (free fresh), missing, Except.map]

end Registry

end NativeBridge
