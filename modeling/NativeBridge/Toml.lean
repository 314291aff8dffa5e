/-
TOML documents. A line holds a header, or a key with its value, or nothing, and may end with a comment. A header opens a
table, or one more table of a list, for the keys on the lines behind it.

- `Toml.read?`: the document of a text, if it is valid.
-/
import NativeBridge.Toml.Value

namespace NativeBridge.Toml

open Text

/-- what a line says -/
inductive Line where
  | pair (key : Key) (value : Document)
  | table (key : Key)
  | element (key : Key)

/-- reads a header up to its closing brackets, behind the opening ones -/
def header? (brackets : Nat) (s : List Char) : Option (Key × Shorter s) :=
  match key? s with
  | none => none
  | some (key, rest) => (marks? ']' brackets rest.1).map fun left => (key, rest.andRead left)

/-- reads what a line says -/
def line? (s : List Char) : Option (Line × Shorter s) :=
  match marks? '[' 2 s, marks? '[' 1 s with
  | some rest, _ => rest.followed ((header? 2 rest.1).map fun (key, left) => (.element key, left))
  | none, some rest => rest.followed ((header? 1 rest.1).map fun (key, left) => (.table key, left))
  | none, none =>
    match pairStart? s with
    | none => none
    | some (key, start) => start.followed ((value? deepest start.1).map fun (v, left) => (.pair key v, left))

/-- the table under way and the header that is open in it -/
structure Draft where
  table : Table := []
  header : List String := []

/-- the table with what one more line says -/
def Draft.add (draft : Draft) : Line → Option Draft
  | .pair key value => (draft.table.defineIn draft.header key value).map fun t => ⟨t, draft.header⟩
  | .table key => (draft.table.openTable key).map fun t => ⟨t, key.tables ++ [key.name]⟩
  | .element key => (draft.table.openElement key).map fun t => ⟨t, key.tables ++ [key.name]⟩

/-- reads what a line says, if it says anything -/
def Draft.read? (draft : Draft) (s : List Char) : Option (Draft × NoLonger s) :=
  match s.head? with
  | none | some '#' | some '\n' | some '\r' => some (draft, .all s)
  | _ =>
    match line? s with
    | none => none
    | some (line, left) => (draft.add line).map fun draft => (draft, left.weaken)

/-- reads all lines -/
def lines? (draft : Draft) (s : List Char) : Option Draft :=
  match draft.read? (skip s).1 with
  | none => none
  | some (draft, said) =>
    let afterSpaces := ((skip s).andThen said).andThen (skip said.1)
    let afterLine := afterSpaces.andThen (skipComment afterSpaces.1)
    if afterLine.1 = [] then some draft
    else
      match lineFeed? afterLine.1 with
      | some next =>
        let nextLine := afterLine.andRead next
        lines? draft nextLine.1
      | none => none
termination_by s.length
decreasing_by all_goals exact Shorter.length_lt _

/-- the text without the mark of its byte order -/
def withoutMark : List Char → List Char
  | '\ufeff' :: rest => rest
  | s => s

/-- the document of a text -/
def read? (text : String) : Option Document :=
  (lines? {} (withoutMark text.toList)).map fun draft => draft.table.document

end NativeBridge.Toml
