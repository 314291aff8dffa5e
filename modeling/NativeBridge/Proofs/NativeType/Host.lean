/-
Native types that a signature can declare, and their values as the host sees them. Only wire values as they are have neither.

- `signature?`, `host`: the signature of a type, and the host values for its values.
- `induction_of_signature?`: induction over such types together with their signatures.
- `firstHole?_of_signature?`: the signature of a type tells everything.
-/
import NativeBridge.NativeType
import NativeBridge.Proofs.Codec.Fits

namespace NativeBridge

/-- a native key as a key of the host; a large one of 64 unsigned bits, which the host does not have, by its pattern -/
def KeyKind.host : (kind : KeyKind) → kind.Value → HostKey
  | .int _, v => .int (.wrap .i64 v.val)
  | .bool, b => .bool b
  | .text, s => .text s

namespace NativeType

mutual

/-- the signature that declares values of the type; a wire value, as it is, is of no declared type -/
def signature? : NativeType → Option Signature
  | int w => some (.owned (.primitive (.int w)))
  | float32 => some (.owned (.primitive .float32))
  | float64 => some (.owned (.primitive .float64))
  | bool => some (.owned (.primitive .bool))
  | text => some (.owned (.primitive .text))
  | wire => none
  | list elem => (signature? elem).map fun s => .owned (.list s)
  | tuple elems => (signatures? elems).map fun parts => .owned (.tuple parts)
  | map key value => (signature? value).map fun s => .owned (.dict key s)

/-- the signatures of several types -/
def signatures? : List NativeType → Option (List Signature)
  | [] => some []
  | t :: ts =>
    match signature? t, signatures? ts with
    | some s, some others => some (s :: others)
    | _, _ => none

end

mutual

/-- the value as the host sees it, of a type with a signature; integers as for `KeyKind.host` -/
def host : (t : NativeType) → t.Value → HostValue
  | int _, v => .int (.wrap .i64 v.val)
  | float32, x => .float x.widen
  | float64, x => .float x
  | bool, b => .bool b
  | text, s => .text s
  | wire, _ => .none
  | list elem, items => .list (items.map (host elem))
  | tuple elems, values => .tuple (hosts elems values)
  | map key value, entries => .dict (HostKey.dictionary (entries.map fun entry => (key.host entry.1, host value entry.2)))

/-- one host value for each value -/
def hosts : (ts : List NativeType) → Values ts → List HostValue
  | [], _ => []
  | t :: ts, (value, values) => host t value :: hosts ts values

end

variable {t : NativeType} {s : Signature}

/-- **Induction over native types with signatures**: the types of the parts come first, each with its signature. -/
theorem induction_of_signature? {P : NativeType → Signature → Prop}
    (int : ∀ w, P (.int w) (.owned (.primitive (.int w))))
    (float32 : P .float32 (.owned (.primitive .float32)))
    (float64 : P .float64 (.owned (.primitive .float64)))
    (bool : P .bool (.owned (.primitive .bool)))
    (text : P .text (.owned (.primitive .text)))
    (list : ∀ elem s, P elem s → P (.list elem) (.owned (.list s)))
    (tuple : ∀ elems parts, List.Forall₂ P elems parts → P (.tuple elems) (.owned (.tuple parts)))
    (map : ∀ key value s, P value s → P (.map key value) (.owned (.dict key s)))
    (told : t.signature? = some s) : P t s := by
  refine @NativeType.rec (fun t => ∀ s, t.signature? = some s → P t s)
    (fun ts => ∀ parts, signatures? ts = some parts → List.Forall₂ P ts parts) ?_ ?_ ?_ ?_ ?_ ?_ ?_ ?_ ?_ ?_ ?_ t s told
  · rintro w _ ⟨⟩
    exact int w
  · rintro _ ⟨⟩
    exact float32
  · rintro _ ⟨⟩
    exact float64
  · rintro _ ⟨⟩
    exact bool
  · rintro _ ⟨⟩
    exact text
  · rintro _ ⟨⟩
  · intro elem part s told
    obtain ⟨s, toldPart, rfl⟩ := Option.map_eq_some_iff.1 told
    exact list elem s (part s toldPart)
  · intro elems parts s told
    obtain ⟨signatures, toldParts, rfl⟩ := Option.map_eq_some_iff.1 told
    exact tuple elems signatures (parts signatures toldParts)
  · intro key value part s told
    obtain ⟨s, toldPart, rfl⟩ := Option.map_eq_some_iff.1 told
    exact map key value s (part s toldPart)
  · rintro _ ⟨⟩
    exact .nil
  · intro t ts first others parts told
    rw [signatures?] at told
    split at told
    · next s rest here there =>
      cases told
      exact .cons (first s here) (others rest there)
    · cases told

/-- The signature of a native type has no holes. -/
theorem firstHole?_of_signature? (told : t.signature? = some s) : s.firstHole? = none := by
  refine induction_of_signature? (P := fun _ s => s.firstHole? = none) (fun _ => rfl) rfl rfl rfl rfl ?_ ?_ ?_ told
  · intro elem s part
    exact Signature.firstHole?_list_iff.2 part
  · intro elems signatures parts
    apply Signature.firstHole?_tuple_iff.2
    exact forall_mem_of_forall₂ parts fun _ _ _ told => told
  · intro key value s part
    exact Signature.firstHole?_dict_iff.2 part

end NativeType

end NativeBridge
