/-
Keys and values of TOML. Spaces and tabs may stand around every part of a key and of a table in braces; in brackets lines may
end and comments may stand as well. Neither goes deeper than `deepest`.

    key   = part { . part },  part = text on one line | bare
    value = text | true | false | number or date | [ { value , } ] | { [ key = value { , key = value } ] }
-/
import NativeBridge.Toml.Table
import NativeBridge.Toml.Text

namespace NativeBridge.Toml

open Text

/-- a character of a key without quotes -/
def isBare (c : Char) : Bool := c.isAlphanum || c == '-' || c == '_'

/-- how many parts a key may have, and how many brackets and braces a value may have inside each other -/
def deepest : Nat := 79

/-- what is left behind a comment, if there is one -/
def skipComment (s : List Char) : NoLonger s :=
  match mark? '#' s with
  | some rest => rest.weaken.andThen (.dropWhile isPlain rest.1)
  | none => .all s

/-- what is left behind spaces, tabs, line feeds and comments -/
def skipAll (s : List Char) : NoLonger s :=
  match mark? '#' (skipLines s).1 with
  | some rest =>
    let comment := ((skipLines s).andRead rest).andThen (.dropWhile isPlain rest.1)
    comment.weaken.andThen (skipAll comment.1)
  | none => skipLines s
termination_by s.length
decreasing_by all_goals exact Shorter.length_lt _

/-- reads a part of a key -/
def part? (s : List Char) : Option (String × Shorter s) :=
  match lineText? s with
  | some (text, rest) => some (String.ofList text, rest)
  | none =>
    match s with
    | [] => none
    | c :: rest =>
      if isBare c then
        some (String.ofList (c :: rest.takeWhile isBare), (Shorter.tail c rest).andThen (.dropWhile isBare rest))
      else none

/-- reads the parts of a key, with the spaces around them -/
def parts? (s : List Char) : Option (Key × Shorter s) :=
  match part? (skip s).1 with
  | none => none
  | some (name, part) =>
    let afterName := ((skip s).andRead part).andThen (skip part.1)
    match mark? '.' afterName.1 with
    | none => some (⟨[], name⟩, afterName)
    | some point =>
      let afterPoint := afterName.andRead point
      afterPoint.followed ((parts? afterPoint.1).map fun (key, rest) => (⟨name :: key.tables, key.name⟩, rest))
termination_by s.length
decreasing_by all_goals exact Shorter.length_lt _

/-- reads a key that does not go too deep, with the spaces around it -/
def key? (s : List Char) : Option (Key × Shorter s) :=
  (parts? s).filter fun (key, _) => key.tables.length < deepest

/-- the value of a word that is no text -/
def word? (s : List Char) : Option Document :=
  if s = ['t', 'r', 'u', 'e'] then some (.flag true)
  else if s = ['f', 'a', 'l', 's', 'e'] then some (.flag false)
  else if isQuantity s then some .quantity
  else none

/-- how far a word goes: one blank may stand between a date and a time -/
def wordLength (s : List Char) : Nat :=
  let first := s.takeWhile isQuantityChar
  match s.dropWhile isQuantityChar with
  | ' ' :: c :: rest =>
    if isDate first ∧ c.isDigit then first.length + 1 + ((c :: rest).takeWhile isQuantityChar).length else first.length
  | _ => first.length

/-- reads a key and the mark behind it, up to where its value begins -/
def pairStart? (s : List Char) : Option (Key × Shorter s) :=
  match key? s with
  | none => none
  | some (key, afterKey) =>
    match mark? '=' afterKey.1 with
    | none => none
    | some afterMark => some (key, (afterKey.andRead afterMark).andThen (skip afterMark.1))

mutual

/-- reads a value in which there is room for so many brackets and braces inside each other -/
def value? (room : Nat) (s : List Char) : Option (Document × Shorter s) :=
  match s with
  | [] => none
  | c :: rest =>
    let tail := Shorter.tail c rest
    if c = '[' ∧ 0 < room then tail.followed ((items? (room - 1) tail.1).map fun (items, left) => (.sequence items, left))
    else if c = '{' ∧ 0 < room then
      match mark? '}' (skip rest).1 with
      | some left => some (.table [], tail.andRead ((skip rest).andRead left))
      | none => tail.followed ((pairs? (room - 1) [] tail.1).map fun (t, left) => (t.document, left))
    else
      match text? (c :: rest) with
      | some (text, left) => some (.text (String.ofList text), left)
      | none =>
        let length := wordLength (c :: rest)
        (word? ((c :: rest).take length)).map fun v => (v, tail.andThen (.drop (length - 1) rest))
termination_by 2 * s.length + 0
decreasing_by
  · exact tail.turn_lt (by decide)
  · exact tail.turn_lt (by decide)

/-- reads values up to the closing bracket, behind the opening one or behind a comma -/
def items? (room : Nat) (s : List Char) : Option (List Document × Shorter s) :=
  match mark? ']' (skipAll s).1 with
  | some left => some ([], (skipAll s).andRead left)
  | none =>
    match value? room (skipAll s).1 with
    | none => none
    | some (v, value) =>
      let afterValue := ((skipAll s).andRead value).andThen (skipAll value.1)
      match mark? ']' afterValue.1, mark? ',' afterValue.1 with
      | some left, _ => some ([v], afterValue.andRead left)
      | none, some comma =>
        let afterComma := afterValue.andRead comma
        afterComma.followed ((items? room afterComma.1).map fun (items, left) => (v :: items, left))
      | none, none => none
termination_by 2 * s.length + 1
decreasing_by
  · exact (skipAll s).turn_lt (by decide)
  · exact afterComma.turn_lt (by decide)

/-- reads keys and values up to the closing brace into a table -/
def pairs? (room : Nat) (t : Table) (s : List Char) : Option (Table × Shorter s) :=
  match pairStart? s with
  | none => none
  | some (key, start) =>
    match value? room start.1 with
    | none => none
    | some (v, value) =>
      let afterValue := (start.andRead value).andThen (skip value.1)
      match t.define key v, mark? '}' afterValue.1, mark? ',' afterValue.1 with
      | some t, some left, _ => some (t, afterValue.andRead left)
      | some t, none, some comma =>
        let afterComma := afterValue.andRead comma
        afterComma.followed (pairs? room t afterComma.1)
      | _, _, _ => none
termination_by 2 * s.length + 0
decreasing_by
  · exact start.turn_lt (by decide)
  · exact afterComma.turn_lt (by decide)

end

end NativeBridge.Toml
