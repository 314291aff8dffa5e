/-
Declarations of native functions, one line each: the symbol, then a segment `type(...)` for every parameter, then one for
the result, separated by semicolons. An empty segment means no value.

- `closeParen_append`: what closes the open parentheses splits the text, and nothing is lost.
-/
import NativeBridge.Signature.Reader
import NativeBridge.Signature.Printer

namespace NativeBridge

/-- a native function as it is declared -/
structure Declaration where
  symbol : String
  params : List Signature
  result : Signature
deriving DecidableEq

namespace Declaration

open Reader Text

/-- what every segment begins with -/
def segmentMark : List Char := ['t', 'y', 'p', 'e', '(']

/-- the text before the first segment, and the rest -/
def cutAtSegment? : List Char → Option (List Char × List Char)
  | [] => none
  | c :: rest =>
    if segmentMark.isPrefixOf (c :: rest) then some ([], c :: rest)
    else (cutAtSegment? rest).map fun (head, segments) => (c :: head, segments)

/-- the text without a final `::` -/
def dropColons (s : List Char) : List Char := if [':', ':'].isSuffixOf s then s.take (s.length - 2) else s

/-- the symbol of a declaration, and its segments -/
def split? (text : String) : Option (String × List Char) :=
  (cutAtSegment? (trim text.toList)).map fun (head, segments) =>
    (String.ofList (trim (dropColons head)), segments)

/-- the fault of a declaration that is not understood as a whole -/
def notUnderstood (text : String) : Fault := .unsupportedType (trimmed text)

/-- the text up to the parenthesis that closes `depth + 1` open ones, and the text after it -/
def closeParen? (depth : Nat) : List Char → Option (List Char × List Char)
  | [] => none
  | c :: rest =>
    if c = '(' then (closeParen? (depth + 1) rest).map fun (inner, after) => (c :: inner, after)
    else if c = ')' then
      match depth with
      | 0 => some ([], rest)
      | depth + 1 => (closeParen? depth rest).map fun (inner, after) => (c :: inner, after)
    else (closeParen? depth rest).map fun (inner, after) => (c :: inner, after)

theorem closeParen_append {depth : Nat} {s inner after : List Char} (h : closeParen? depth s = some (inner, after)) :
    s = inner ++ ')' :: after := by
  fun_induction closeParen? depth s generalizing inner after with
  | case1 => simp at h
  | case2 depth rest ih =>
    obtain ⟨⟨i, a⟩, hr, he⟩ := Option.map_eq_some_iff.1 h
    obtain ⟨rfl, rfl⟩ := Prod.mk.inj he
    simp [ih hr]
  | case3 rest _ =>
    simp only [Option.some.injEq, Prod.mk.injEq] at h
    obtain ⟨rfl, rfl⟩ := h
    rfl
  | case4 rest _ depth ih =>
    obtain ⟨⟨i, a⟩, hr, he⟩ := Option.map_eq_some_iff.1 h
    obtain ⟨rfl, rfl⟩ := Prod.mk.inj he
    simp [ih hr]
  | case5 depth c rest _ _ ih =>
    obtain ⟨⟨i, a⟩, hr, he⟩ := Option.map_eq_some_iff.1 h
    obtain ⟨rfl, rfl⟩ := Prod.mk.inj he
    simp [ih hr]

/-- the text inside the segment that comes next, and what is left after it and one semicolon -/
def segment (s : List Char) : Except Fault (List Char × Shorter s) :=
  if h : segmentMark.isPrefixOf s then
    match e : closeParen? 0 (s.drop segmentMark.length) with
    | some (inner, after) =>
      have shorter : after.length < s.length := by
        have := congrArg List.length (closeParen_append e)
        simp only [List.length_append, List.length_cons, List.length_drop] at this
        omega
      match h : trimStart after with
      | ';' :: rest =>
        .ok (inner, ⟨rest, by
          have := length_trimStart_le after
          rw [h] at this
          simp only [List.length_cons] at this
          omega⟩)
      | rest => .ok (inner, ⟨rest, by have := length_trimStart_le after; rw [h] at this; omega⟩)
    | none => .error (.unsupportedType (String.ofList s))
  else .error (.unsupportedType (String.ofList s))

/-- the type a segment declares -/
def segmentType (inner : List Char) : Except Fault Signature :=
  if trim inner = [] then .ok (.owned .void) else Signature.read (String.ofList (trim inner))

/-- the types of all segments, in order -/
def segments (s : List Char) : Except Fault (List Signature) :=
  match h : trimStart s with
  | [] => .ok []
  | c :: cs => do
    let (inner, ⟨rest, shorter⟩) ← segment (c :: cs)
    let first ← segmentType inner
    have : rest.length < s.length := by have := length_trimStart_le s; rw [h] at this; omega
    let others ← segments rest
    .ok (first :: others)
termination_by s.length

/-- a symbol is a word that is not empty -/
def isSymbol (s : String) : Bool := s != "" && s.toList.all isWordChar

/-- reads a declaration; only the result may be without a value -/
def read (text : String) : Except Fault Declaration :=
  match split? text with
  | none => .error (notUnderstood text)
  | some (symbol, rest) =>
    if isSymbol symbol then do
      let types ← segments rest
      match types.getLast? with
      | none => .error (notUnderstood text)
      | some result =>
        if types.dropLast.any Signature.isVoid then .error (.unsupportedType "()")
        else .ok ⟨symbol, types.dropLast, result⟩
    else .error (notUnderstood text)

/-- the written form of a segment -/
def writtenSegment (s : Signature) : String := "type(" ++ s.written ++ ")"

/-- the written form of a declaration -/
def written (d : Declaration) : String :=
  d.symbol ++ "::" ++ String.join (d.params.map fun p => writtenSegment p ++ ";") ++ writtenSegment d.result

end Declaration

end NativeBridge
