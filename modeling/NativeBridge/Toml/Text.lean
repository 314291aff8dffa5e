/-
Texts of TOML. There are four forms: with escapes or without, on one line or on several. On several lines the first line
feed does not count, a carriage return before a line feed does not count, and up to two quotes may stand alone. A
backslash at the end of a line takes the blanks and line feeds after it away.

Every reader of one form begins behind the opening quotes and ends behind the closing ones.
-/
import NativeBridge.Text.Progress
import NativeBridge.Toml.Quantity

namespace NativeBridge.Toml

open Text

/-- a space or tab -/
def isSpace (c : Char) : Bool := c == ' ' || c == '\t'

/-- a character that a text may hold as it is: a tab, or one that is no control character -/
def isPlain (c : Char) : Bool := c == '\t' || (0x20 ≤ c.toNat && c.toNat != 0x7F)

/-- what is left behind spaces and tabs -/
def skip (s : List Char) : NoLonger s := .dropWhile isSpace s

/-- reads a character that has to be here -/
def mark? (c : Char) (s : List Char) : Option (Shorter s) :=
  match s with
  | d :: rest => if d = c then some (.tail d rest) else none
  | [] => none

/-- reads the end of a line -/
def lineFeed? (s : List Char) : Option (Shorter s) :=
  match s with
  | [] => none
  | c :: rest =>
    if c = '\n' then some (.tail c rest)
    else if c = '\r' then (mark? '\n' rest).map (Shorter.tail c rest).andRead
    else none

/-- what is left behind spaces, tabs and line feeds -/
def skipLines (s : List Char) : NoLonger s :=
  match lineFeed? (skip s) with
  | some rest =>
    let line := (skip s).andRead rest
    line.weaken.andThen (skipLines line.1)
  | none => skip s
termination_by s.length
decreasing_by all_goals exact Shorter.length_lt _

/-- reads a character that is written as its number, in so many digits -/
def numbered? (digits : Nat) (s : List Char) : Option (Char × NoLonger s) :=
  let code := s.take digits
  let n := digitValue 16 code
  if code.length = digits ∧ code.all (isDigitOf 16) ∧ n.isValidChar then some (Char.ofNat n, .drop digits s)
  else none

/-- the character that a letter stands for behind a backslash -/
def letterEscape? : Char → Option Char
  | 'b' => some '\x08'
  | 't' => some '\t'
  | 'n' => some '\n'
  | 'f' => some '\x0c'
  | 'r' => some '\r'
  | '"' => some '"'
  | '\\' => some '\\'
  | _ => none

/-- reads an escape behind its backslash -/
def escape? (s : List Char) : Option (Char × Shorter s) :=
  match s with
  | [] => none
  | c :: rest =>
    match letterEscape? c with
    | some d => some (d, .tail c rest)
    | none =>
      let digits := if c = 'u' then 4 else 8
      if c = 'u' ∨ c = 'U' then
        (numbered? digits rest).map fun (d, left) => (d, (Shorter.tail c rest).andThen left)
      else none

/-- a character was read, and then the text behind it -/
def before {s : List Char} (c : Char) (first : Shorter s) (r : Option (List Char × Shorter first.1)) :
    Option (List Char × Shorter s) :=
  first.followed (r.map fun (text, rest) => (c :: text, rest))

/-- reads a text on one line with escapes -/
def basic? (s : List Char) : Option (List Char × Shorter s) :=
  match s with
  | [] => none
  | c :: rest =>
    let tail := Shorter.tail c rest
    if c = '"' then some ([], tail)
    else if c = '\\' then
      match escape? rest with
      | some (d, left) =>
        let first := tail.andRead left
        before d first (basic? first.1)
      | none => none
    else if isPlain c then before c tail (basic? tail.1)
    else none
termination_by s.length
decreasing_by all_goals exact Shorter.length_lt _

/-- reads a text on one line without escapes -/
def literal? (s : List Char) : Option (List Char × Shorter s) :=
  match s with
  | [] => none
  | c :: rest =>
    let tail := Shorter.tail c rest
    if c = '\'' then some ([], tail)
    else if isPlain c then before c tail (literal? rest)
    else none

/-- the end of a text on several lines: three quotes, with up to two before them that belong to the text -/
def closing? (quote : Char) (s : List Char) : Option (List Char × Shorter s) :=
  match s with
  | [] => none
  | c :: rest =>
    let count := ((c :: rest).takeWhile (· == quote)).length
    if 3 ≤ count then
      let more := min 5 count - 3
      some (List.replicate more quote, (Shorter.tail c rest).andThen (.drop (more + 2) rest))
    else none

/-- reads a text on several lines with escapes -/
def basicLines? (s : List Char) : Option (List Char × Shorter s) :=
  match closing? '"' s with
  | some done => some done
  | none =>
    match lineFeed? s with
    | some line =>
      before '\n' line (basicLines? line.1)
    | none =>
      match s with
      | [] => none
      | c :: rest =>
        let tail := Shorter.tail c rest
        if c = '\\' then
          match lineFeed? (skip rest) with
          | some line =>
            let first := (tail.andThen (skip rest)).andRead line
            let next := first.andThen (skipLines first.1)
            next.followed (basicLines? next.1)
          | none =>
            match escape? rest with
            | some (d, left) =>
              let first := tail.andRead left
              before d first (basicLines? first.1)
            | none => none
        else if isPlain c then before c tail (basicLines? tail.1)
        else none
termination_by s.length
decreasing_by all_goals exact Shorter.length_lt _

/-- reads a text on several lines without escapes -/
def literalLines? (s : List Char) : Option (List Char × Shorter s) :=
  match closing? '\'' s with
  | some done => some done
  | none =>
    match lineFeed? s with
    | some line =>
      before '\n' line (literalLines? line.1)
    | none =>
      match s with
      | [] => none
      | c :: rest =>
        let tail := Shorter.tail c rest
        if isPlain c then before c tail (literalLines? tail.1) else none
termination_by s.length
decreasing_by all_goals exact Shorter.length_lt _

/-- what is left behind a line feed right after the opening quotes -/
def skipFirstLineFeed (s : List Char) : NoLonger s :=
  match lineFeed? s with
  | some rest => rest.weaken
  | none => .all s

/-- reads a character that has to be here so many times -/
def marks? (mark : Char) (count : Nat) (s : List Char) : Option (Shorter s) :=
  match s with
  | [] => none
  | c :: rest =>
    if (c :: rest).take count = List.replicate count mark then
      some ((Shorter.tail c rest).andThen (.drop (count - 1) rest))
    else none

/-- reads a text on one line, with its opening quote -/
def lineText? (s : List Char) : Option (List Char × Shorter s) :=
  match marks? '"' 1 s, marks? '\'' 1 s with
  | some rest, _ => rest.followed (basic? rest.1)
  | none, some rest => rest.followed (literal? rest.1)
  | none, none => none

/-- reads a text of any form, with its opening quotes -/
def text? (s : List Char) : Option (List Char × Shorter s) :=
  match marks? '"' 3 s, marks? '\'' 3 s with
  | some rest, _ =>
    let start := rest.andThen (skipFirstLineFeed rest.1)
    start.followed (basicLines? start.1)
  | none, some rest =>
    let start := rest.andThen (skipFirstLineFeed rest.1)
    start.followed (literalLines? start.1)
  | none, none => lineText? s

end NativeBridge.Toml
