/-
Registries are built from all declarations or not at all, and the order of the declarations does not count.

- `Bindable`: every declaration has a symbol; those with a name are read, their symbols are exported, their names differ.
- `exists_binds_iff`: exactly such declarations bind functions.
- `build_exactly`: a registry is built exactly from such declarations, by a library of the right version. It has one function
  for each of them that has a name, and the same ones in whatever order they are declared. What refuses the registry is the
  version, or else the first declaration that cannot be bound.
- `bound_unless_leader`: a symbol that begins with a leader is bound, unless the first leader it begins with is all of it.
-/
import Mathlib
import NativeBridge.Proofs.Registry.Binding

namespace NativeBridge

namespace Registry

open RegistryOptions (NamedBy FirstLeader BeginsWith exists_firstLeader firstLeader_unique functionName?_eq_some_iff)

variable {options : RegistryOptions} {library : Library} {functions : List (String × BoundFunction)}
  {declarations : List String} {text symbol : String} {fault : Fault} {entries : List (Option (String × BoundFunction))}

/-! ## When there is such a registry -/

/-- no two of the declarations are bound under one name -/
def Distinct (options : RegistryOptions) (declarations : List String) : Prop :=
  declarations.Pairwise fun earlier later => ∀ name, options.Names earlier name → ¬ options.Names later name

/-- every declaration has a symbol; where the symbol has a name, the declaration is read and the symbol exported; the names
are different -/
structure Bindable (options : RegistryOptions) (library : Library) (declarations : List String) : Prop where
  splits : ∀ text ∈ declarations, ∃ symbol segments, Declaration.split? text = some (symbol, segments)
  reads : ∀ text ∈ declarations, ∀ name, options.Names text name → ∃ d, Declaration.read text = .ok d
  exported : ∀ text ∈ declarations, ∀ symbol segments name, Declaration.split? text = some (symbol, segments) →
    NamedBy options.leaders symbol name → ∃ native, (symbol, native) ∈ library.exports
  distinct : Distinct options declarations

theorem distinct_iff (gives : List.Forall₂ (Gives options library) declarations entries) :
    (entries.reduceOption.map Prod.fst).Nodup ↔ Distinct options declarations := by
  induction gives with
  | nil => simp [Distinct]
  | @cons text entry rest entries first others ih =>
    have one : (entry.toList.map Prod.fst).Nodup := by cases entry <;> simp
    unfold Distinct at ih ⊢
    rw [reduceOption_cons, List.map_append, List.nodup_append', ih, List.pairwise_cons]
    have apart : (entry.toList.map Prod.fst).Disjoint (entries.reduceOption.map Prod.fst) ↔
        ∀ later ∈ rest, ∀ name, options.Names text name → ¬ options.Names later name := by
      constructor
      · intro disjoint later mem name names names'
        exact disjoint ((names_of_gives first).2 names) ((mem_names_iff others).2 ⟨later, mem, names'⟩)
      · intro differ name mem mem'
        obtain ⟨later, at_rest, names'⟩ := (mem_names_iff others).1 mem'
        exact differ later at_rest name ((names_of_gives first).1 mem) names'
    rw [apart]
    exact ⟨fun h => ⟨h.2.2, h.2.1⟩, fun h => ⟨one, h.2, h.1⟩⟩

theorem exists_gives (bindable : Bindable options library declarations) (mem : text ∈ declarations) :
    ∃ entry, Gives options library text entry := by
  obtain ⟨symbol, segments, split⟩ := bindable.splits text mem
  by_cases named : ∃ name, NamedBy options.leaders symbol name
  · obtain ⟨name, named⟩ := named
    obtain ⟨d, reads⟩ := bindable.reads text mem name ⟨symbol, segments, split, named⟩
    obtain ⟨native, exported⟩ := bindable.exported text mem symbol segments name split named
    cases found : library.function symbol with
    | ok native => exact ⟨_, .bound split named reads found⟩
    | error fault => exact absurd exported ((function_eq_error_iff.1 found).1 native)
  · exact ⟨none, .passed split (not_exists.1 named)⟩

theorem mem_exports_of_function {native : Native} (h : library.function symbol = .ok native) :
    ∃ native, (symbol, native) ∈ library.exports := by
  by_contra absent
  rw [function_eq_error_iff.2 ⟨not_exists.1 absent, rfl⟩] at h
  cases h

/-- **Declarations bind some functions** exactly if they are fit for it. -/
theorem exists_binds_iff :
    (∃ functions, Binds options library declarations functions) ↔ Bindable options library declarations := by
  constructor
  · rintro ⟨functions, ascending, entries, gives, perm⟩
    have each := mem_left_of_forall₂ gives.flip
    refine ⟨?_, ?_, ?_, (distinct_iff gives).1 ((perm.map Prod.fst).nodup_iff.1 ascending.nodup)⟩
    · intro text mem
      obtain ⟨entry, -, gives | gives⟩ := each text mem
      · exact ⟨_, _, gives⟩
      · exact ⟨_, _, gives⟩
    · rintro text mem name ⟨symbol, segments, split, named⟩
      obtain ⟨entry, -, ⟨split', unnamed⟩ | ⟨_, _, reads, _⟩⟩ := each text mem
      · cases split.symm.trans split'
        exact absurd named (unnamed name)
      · exact ⟨_, reads⟩
    · intro text mem symbol segments name split named
      obtain ⟨entry, -, ⟨split', unnamed⟩ | ⟨split', _, _, exported⟩⟩ := each text mem
      · cases split.symm.trans split'
        exact absurd named (unnamed name)
      · cases split.symm.trans split'
        exact mem_exports_of_function exported
  · intro bindable
    obtain ⟨entries, gives⟩ := exists_forall₂_iff.2 fun text mem => exists_gives bindable mem
    exact ⟨_, Ordered.ascending_putAll entries.reduceOption .nil, entries, gives,
      Ordered.putAll_nil_perm ((distinct_iff gives).2 bindable.distinct)⟩

theorem addAll_error_iff :
    declarations.foldlM (addDeclaration options library) [] = .error fault ↔ ∃ before text after,
      declarations = before ++ text :: after ∧ Bindable options library before ∧
        Offends options library before text fault := by
  rw [foldlM_error_iff]
  constructor
  · rintro ⟨before, text, after, functions, split, passes, fails⟩
    have binds := addAll_ok_iff.1 passes
    exact ⟨before, text, after, split, exists_binds_iff.1 ⟨functions, binds⟩,
      (addDeclaration_error_iff fun _ => binds.names_iff).1 fails⟩
  · rintro ⟨before, text, after, split, bindable, offends⟩
    obtain ⟨functions, binds⟩ := exists_binds_iff.2 bindable
    exact ⟨before, text, after, functions, split, addAll_ok_iff.2 binds,
      (addDeclaration_error_iff fun _ => binds.names_iff).2 offends⟩

/-! ## The version, and the registry as a whole -/

/-- the library reports the expected version, if one is expected and one is reported -/
def Accepts (options : RegistryOptions) (library : Library) : Prop :=
  ∀ expected ∈ options.expectedVersion, ∀ found ∈ library.reported?, found = expected

/-- the fault of a library that reports another version -/
def RefusesVersion (options : RegistryOptions) (library : Library) (fault : Fault) : Prop :=
  ∃ expected ∈ options.expectedVersion, ∃ found ∈ library.reported?,
    found ≠ expected ∧ fault = .versionMismatch expected found

theorem checkVersion_ok_iff : options.checkVersion library = .ok () ↔ Accepts options library := by
  unfold RegistryOptions.checkVersion Accepts
  cases options.expectedVersion <;> cases library.reported? <;> simp

theorem checkVersion_error_iff : options.checkVersion library = .error fault ↔ RefusesVersion options library fault := by
  unfold RegistryOptions.checkVersion RefusesVersion
  cases options.expectedVersion with
  | none => simp
  | some expected =>
    cases library.reported? with
    | none => simp
    | some found => by_cases same : found = expected <;> simp [same, eq_comm]

theorem build_ok_iff {r : Registry} :
    build options library declarations = .ok r ↔
      Accepts options library ∧ r.library = library ∧ Binds options library declarations r.functions := by
  rw [← checkVersion_ok_iff, ← addAll_ok_iff]
  unfold build
  cases options.checkVersion library with
  | error fault => simp [Reader.error_bind]
  | ok =>
    rw [Reader.ok_bind]
    cases declarations.foldlM (addDeclaration options library) [] with
    | error fault => simp [Reader.error_bind]
    | ok functions =>
      obtain ⟨library', functions'⟩ := r
      simp [Reader.ok_bind, eq_comm]

theorem build_error_iff :
    build options library declarations = .error fault ↔ RefusesVersion options library fault ∨
      Accepts options library ∧ ∃ before text after, declarations = before ++ text :: after ∧
        Bindable options library before ∧ Offends options library before text fault := by
  rw [← checkVersion_ok_iff, ← checkVersion_error_iff, ← addAll_error_iff]
  unfold build
  cases options.checkVersion library with
  | error fault => simp [Reader.error_bind]
  | ok =>
    rw [Reader.ok_bind]
    cases declarations.foldlM (addDeclaration options library) [] with
    | error fault => simp [Reader.error_bind]
    | ok functions => simp [Reader.ok_bind]

/-- **A registry is built exactly from what is fit for it**, and from the same declarations in another order it is the same.
A declaration whose symbol has a name gives it one function; a build that fails names the version or the first declaration
at fault. -/
theorem build_exactly (options : RegistryOptions) (library : Library) (declarations : List String) :
    ((∃ r, build options library declarations = .ok r) ↔
      Accepts options library ∧ Bindable options library declarations) ∧
    (∀ r, build options library declarations = .ok r →
      r.library = library ∧ Ascending r.functions ∧
      (∃ entries, List.Forall₂ (Gives options library) declarations entries ∧ r.functions.Perm entries.reduceOption) ∧
      ∀ name f, r.get? name = some f ↔ ∃ text ∈ declarations, Gives options library text (some (name, f))) ∧
    (∀ others, declarations.Perm others →
      ∀ r, build options library declarations = .ok r ↔ build options library others = .ok r) ∧
    ∀ fault, build options library declarations = .error fault ↔ RefusesVersion options library fault ∨
      Accepts options library ∧ ∃ before text after, declarations = before ++ text :: after ∧
        Bindable options library before ∧ Offends options library before text fault := by
  refine ⟨?_, ?_, ?_, fun fault => build_error_iff⟩
  · rw [← exists_binds_iff]
    constructor
    · rintro ⟨r, built⟩
      obtain ⟨accepts, -, binds⟩ := build_ok_iff.1 built
      exact ⟨accepts, r.functions, binds⟩
    · rintro ⟨accepts, functions, binds⟩
      exact ⟨⟨library, functions⟩, build_ok_iff.2 ⟨accepts, rfl, binds⟩⟩
  · intro r built
    obtain ⟨-, same, binds⟩ := build_ok_iff.1 built
    refine ⟨same, binds.1, binds.2, fun name f => ?_⟩
    unfold get?
    rw [lookup_eq_some_iff binds.1.nodup, binds.mem_iff]
  · intro others perm r
    rw [build_ok_iff, build_ok_iff]
    exact ⟨.imp id (.imp id (.of_perm perm)), .imp id (.imp id (.of_perm perm.symm))⟩

/-- two leaders of which one begins with the other: the first counts, a symbol with neither is passed over, and the functions
are the same from the last declaration to the first; a name that is declared twice is refused -/
theorem build_exactly_overlapping_leaders :
    let native : Native := fun _ => { returned := .word 0 }
    let library : Library := ⟨"lib", [("py_f", native), ("py_x_g", native)], .text "1".toByteArray⟩
    let options : RegistryOptions := ⟨["py_", "py_x_"], some "1"⟩
    let declarations := ["py_x_g::type()", "other::type(f64)", "py_f::type()"]
    ∃ r, build options library declarations = .ok r ∧ r.names = ["f", "x_g"] ∧
      Bindable options library declarations ∧ build options library declarations.reverse = .ok r ∧
      build options library (declarations ++ ["py_f::type(i64)"]) = .error (.duplicateBinding "f") ∧
      ¬ Bindable options library (declarations ++ ["py_f::type(i64)"]) := by
  intro native library options declarations
  have names : (build options library declarations).map Registry.names = .ok ["f", "x_g"] := by cbv
  have first : options.Names "py_f::type()" "f" :=
    ⟨"py_f", "type()".toList, by cbv, functionName?_eq_some_iff.1 (by cbv)⟩
  have second : options.Names "py_f::type(i64)" "f" :=
    ⟨"py_f", "type(i64)".toList, by cbv, functionName?_eq_some_iff.1 (by cbv)⟩
  cases built : build options library declarations with
  | error fault => rw [built] at names; cases names
  | ok r =>
    rw [built] at names
    obtain ⟨built_iff, -, reordered, -⟩ := build_exactly options library declarations
    obtain ⟨accepts, bindable⟩ := built_iff.1 ⟨r, built⟩
    have backwards := (reordered _ (List.reverse_perm _).symm r).1 built
    have listed : "py_f::type()" ∈ declarations := List.mem_cons_of_mem _ (List.mem_cons_of_mem _ List.mem_cons_self)
    have twice := ((build_exactly options library _).2.2.2 _).2
      (.inr ⟨accepts, declarations, "py_f::type(i64)", [], rfl, bindable, .twice second ⟨_, listed, first⟩⟩)
    refine ⟨r, rfl, Except.ok.inj names, bindable, backwards, twice, fun bindable => ?_⟩
    obtain ⟨r', built'⟩ := (build_exactly options library _).1.2 ⟨accepts, bindable⟩
    rw [twice] at built'
    cases built'

/-! ## Symbols that begin with a leader -/

/-- **A symbol that begins with a leader is bound**, unless the first of the leaders that it begins with is the whole symbol:
then nothing is left for a name, and no later leader is tried. -/
theorem bound_unless_leader {r : Registry} {leader : String} {segments : List Char}
    (built : build options library declarations = .ok r) (mem : text ∈ declarations)
    (split : Declaration.split? text = some (symbol, segments)) (configured : leader ∈ options.leaders)
    (begins : BeginsWith symbol leader) :
    (∃ entry ∈ r.functions, entry.2.symbol = symbol) ↔ ¬ FirstLeader options.leaders symbol symbol := by
  obtain ⟨-, -, binds⟩ := build_ok_iff.1 built
  constructor
  · rintro ⟨⟨name, f⟩, bound, same⟩ whole
    obtain ⟨text', -, gives⟩ := binds.mem_iff.1 bound
    cases gives with
    | @bound symbol' _ _ _ _ split' named reads exported =>
      obtain rfl : symbol' = symbol := same
      obtain ⟨first, isFirst, parts, left⟩ := named
      obtain rfl := firstLeader_unique whole isFirst
      have nothing : name.toList = [] := by simpa using congrArg String.toList parts
      exact left (String.toList_eq_nil_iff.1 nothing)
  · intro partly
    obtain ⟨first, isFirst⟩ := exists_firstLeader configured begins
    obtain ⟨name, parts⟩ := isFirst.1
    have left : name ≠ "" := by
      rintro rfl
      rw [String.append_empty] at parts
      exact partly (parts ▸ isFirst)
    obtain ⟨_, gives⟩ := exists_gives (exists_binds_iff.1 ⟨r.functions, binds⟩) mem
    cases gives with
    | passed split' unnamed =>
      cases split.symm.trans split'
      exact absurd ⟨first, isFirst, parts, left⟩ (unnamed name)
    | bound split' named reads exported =>
      cases split.symm.trans split'
      exact ⟨_, binds.mem_iff.2 ⟨text, mem, .bound split named reads exported⟩, rfl⟩

/-- the second leader is tried where the first does not fit -/
theorem bound_unless_leader_second :
    let native : Native := fun _ => { returned := .word 0 }
    let library : Library := ⟨"lib", [("c_bind_x", native)], .missing⟩
    let options : RegistryOptions := ⟨["c_bind_xy", "c_bind_"], none⟩
    ∃ r, build options library ["c_bind_x::type()"] = .ok r ∧
      ∃ entry ∈ r.functions, entry.2.symbol = "c_bind_x" := by
  intro native library options
  cases built : build options library ["c_bind_x::type()"] with
  | error fault =>
    have fine : (build options library ["c_bind_x::type()"]).isOk = true := by cbv
    rw [built] at fine
    cases fine
  | ok r =>
    have split : Declaration.split? "c_bind_x::type()" = some ("c_bind_x", "type()".toList) := by cbv
    refine ⟨r, rfl, (bound_unless_leader built List.mem_cons_self split
      (List.mem_cons_of_mem _ List.mem_cons_self) ⟨"x", by decide⟩).2 ?_⟩
    rintro ⟨-, before, after, whole, -⟩
    have listed : "c_bind_x" ∈ options.leaders := whole ▸ List.mem_append_right _ List.mem_cons_self
    exact absurd listed (by decide)

/-- a symbol that goes on behind the second leader, but is the first one as a whole: its declaration is passed over, and the
registry is empty -/
theorem passed_over_behind_leader :
    let native : Native := fun _ => { returned := .word 0 }
    let library : Library := ⟨"lib", [("python_bind_x", native)], .missing⟩
    let options : RegistryOptions := ⟨["python_bind_x", "python_bind_"], none⟩
    let declaration := "python_bind_x::type(i64);type(i64)"
    Declaration.split? declaration = some ("python_bind_x", "type(i64);type(i64)".toList) ∧
      "python_bind_" ∈ options.leaders ∧ "python_bind_x" = "python_bind_" ++ "x" ∧
      ∃ r, build options library [declaration] = .ok r ∧ ¬ ∃ entry ∈ r.functions, entry.2.symbol = "python_bind_x" := by
  intro native library options declaration
  have split : Declaration.split? declaration = some ("python_bind_x", "type(i64);type(i64)".toList) := by cbv
  have nothing : (build options library [declaration]).map Registry.functions = .ok [] := by cbv
  refine ⟨split, by decide, by decide, ?_⟩
  cases built : build options library [declaration] with
  | error fault => rw [built] at nothing; cases nothing
  | ok r =>
    rw [built] at nothing
    have empty : r.functions = [] := Except.ok.inj nothing
    exact ⟨r, rfl, by simp [empty]⟩

end Registry

end NativeBridge
