/-
Documents: the values that a configuration is read from, whatever text they came from. Only texts and truth values mean
something to a setting, so numbers and dates are not told apart.
-/
namespace NativeBridge

/-- the value of a document -/
inductive Document where
  | null
  | flag (value : Bool)
  | text (value : String)
  /-- a number or a date -/
  | quantity
  | sequence (items : List Document)
  | table (entries : List (String × Document))
deriving Inhabited

namespace Document

/-- a truth value -/
def flag? : Document → Option Bool
  | flag b => some b
  | _ => none

/-- a text -/
def text? : Document → Option String
  | text s => some s
  | _ => none

/-- a sequence of texts -/
def texts? : Document → Option (List String)
  | sequence items => items.mapM text?
  | _ => none

/-- what may be missing is missing if it is null -/
def nullable {α : Type} (read : Document → Option α) : Document → Option (Option α)
  | null => some none
  | other => (read other).map some

/-- how a record is read from a sequence: the values of its fields in order -/
structure RecordForm where
  /-- the names of the fields -/
  fields : List String
  /-- how many of them a sequence has to give -/
  least : Nat

/-- the fields of a record, by name. A table has no other fields; a sequence has no more values than there are fields, unless
the surplus is passed over. -/
def record? (form : RecordForm) (surplus : Bool) : Document → Option (List (String × Document))
  | table entries => if entries.all fun entry => form.fields.contains entry.1 then some entries else none
  | sequence items =>
    if form.least ≤ items.length ∧ (surplus ∨ items.length ≤ form.fields.length) then some (form.fields.zip items)
    else none
  | _ => none

/-- a field of a record, or what stands for it if it is not given -/
def field {α : Type} (record : List (String × Document)) (name : String) (missing : α) (read : Document → Option α) :
    Option α :=
  match record.lookup name with
  | some value => read value
  | none => some missing

end Document

end NativeBridge
