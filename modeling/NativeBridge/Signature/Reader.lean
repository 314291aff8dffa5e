/-
Reading a signature from its written form. Blanks may stand before every token but `::`; words are read as far as they go.

    declaration = access base
    access      = nothing | & [' [word]] [mut] | * (mut | const)
    base        = ( list ) | path | List < declaration > | Dict < access path , declaration > | Tuple ( list )
    list        = nothing | declaration { , declaration } [,]
    path        = word { :: word }

A path means its last word. Inside brackets no declaration may be void; `()` is void and `(d)` is `d` itself. Every step
returns what is left of its input together with the fact that something was read, which is why reading ends.
-/
import NativeBridge.Signature
import NativeBridge.Text.Blank
import NativeBridge.Text.Progress

namespace NativeBridge.Reader

open Text

/-- a letter or digit of ASCII, or an underscore -/
def isWordChar (c : Char) : Bool := c.isAlphanum || c == '_'

/-- reads the character after any blanks -/
def char? (c : Char) (s : List Char) : Option (Shorter s) :=
  match trimStart s, length_trimStart_le s with
  | d :: _, h => if d = c then some (.ofTail h) else none
  | [], _ => none

/-- reads a word after any blanks, as far as it goes -/
def word? (s : List Char) : Option (List Char × Shorter s) :=
  match trimStart s, length_trimStart_le s with
  | c :: rest, h =>
    if isWordChar c then
      some (c :: rest.takeWhile isWordChar, (Shorter.ofTail h).andThen (.dropWhile isWordChar rest))
    else none
  | [], _ => none

/-- reads a keyword after any blanks; a longer word is not it -/
def keyword? (keyword : String) (s : List Char) : Option (Shorter s) :=
  match word? s with
  | some (word, rest) => if word = keyword.toList then some rest else none
  | none => none

/-- the fault of a token that does not belong here; where nothing is left, the whole text is to blame -/
def unexpected (source rest : List Char) : Fault :=
  .unsupportedType (String.ofList (if trim rest = [] then trim source else trim rest))

/-- reads the character that has to come -/
def expect (source : List Char) (c : Char) (s : List Char) : Except Fault (Shorter s) :=
  match char? c s with
  | some rest => .ok rest
  | none => .error (unexpected source s)

/-- reads the mark between two words of a path -/
def pathMark? (s : List Char) : Option (Shorter s) :=
  match s with
  | ':' :: ':' :: rest => some ((Shorter.tail ':' (':' :: rest)).andRead (.tail ':' rest))
  | _ => none

/-- reads a path and gives its last word -/
def path (source s : List Char) : Except Fault (String × Shorter s) :=
  match word? s with
  | none => .error (unexpected source s)
  | some (word, afterWord) =>
    match pathMark? afterWord.1 with
    | none => .ok (String.ofList word, afterWord)
    | some mark => do
      let afterMark := afterWord.andRead mark
      let (last, rest) ← path source afterMark.1
      .ok (last, afterMark.andRead rest)
termination_by s.length
decreasing_by all_goals exact Shorter.length_lt _

/-- reads a lifetime, if there is one; its name may be missing -/
def skipLifetime (s : List Char) : NoLonger s :=
  match char? '\'' s with
  | none => .all s
  | some afterTick =>
    match word? afterTick.1 with
    | some (_, rest) => (afterTick.andRead rest).weaken
    | none => afterTick.weaken

/-- reads an access; none written means that the value is owned -/
def access (source s : List Char) : Except Fault (Access × NoLonger s) :=
  match char? '&' s, char? '*' s with
  | some afterAmp, _ =>
    let afterLifetime := afterAmp.andThen (skipLifetime afterAmp.1)
    match keyword? "mut" afterLifetime.1 with
    | some rest => .ok (.borrowedMut, (afterLifetime.andRead rest).weaken)
    | none => .ok (.borrowed, afterLifetime.weaken)
  | none, some afterStar =>
    match keyword? "mut" afterStar.1, keyword? "const" afterStar.1 with
    | some rest, _ => .ok (.rawMut, (afterStar.andRead rest).weaken)
    | none, some rest => .ok (.rawConst, (afterStar.andRead rest).weaken)
    | none, none => .error (unexpected source afterStar)
  | none, none => .ok (.owned, .all s)

/-- the shape that a name without parts stands for -/
def named? (name : String) : Option Shape :=
  match IntWidth.ofName? name with
  | some w => some (.primitive (.int w))
  | none =>
    match name with
    | "f32" | "c_float" => some (.primitive .float32)
    | "f64" | "c_double" => some (.primitive .float64)
    | "bool" | "WireBool" => some (.primitive .bool)
    | "String" | "str" | "WireString" => some (.primitive .text)
    | "WireTuple" => some (.hole (some .tuple))
    | "WireList" => some (.list .word)
    | "WireDict" => some (.hole (some .dict))
    | "usize" | "size_t" => some (.hole none)
    | "void" => some .void
    | _ => none

/-- the key kind that a name stands for -/
def keyKind (name : String) : Except Fault KeyKind :=
  match KeyKind.ofName? name with
  | some kind => .ok kind
  | none => .error (.unsupportedType name)

mutual

/-- reads a declaration; a written access replaces the one inside parentheses -/
def declaration (source s : List Char) : Except Fault (Signature × Shorter s) := do
  let (outer, afterAccess) ← access source s
  let (signature, rest) ← base source afterAccess.1
  .ok (if outer = .owned then signature else { signature with access := outer }, afterAccess.andRead rest)
termination_by 4 * s.length + 1
decreasing_by exact afterAccess.turn_lt (by decide)

/-- reads a declaration inside brackets -/
def nested (source s : List Char) : Except Fault (Signature × Shorter s) := do
  let (signature, rest) ← declaration source s
  if signature.isVoid then .error (.unsupportedType "()") else .ok (signature, rest)
termination_by 4 * s.length + 2
decreasing_by exact (NoLonger.all s).turn_lt (by decide)

/-- reads a declaration without its access -/
def base (source s : List Char) : Except Fault (Signature × Shorter s) :=
  match char? '(' s with
  | some inner => do
    let (elems, trailing, rest) ← list source inner.1
    let signature : Signature :=
      match elems, trailing with
      | [], _ => .owned .void
      | [single], false => single
      | several, _ => .owned (.tuple several)
    .ok (signature, inner.andRead rest)
  | none => do
    let (name, afterName) ← path source s
    match char? '<' afterName.1 with
    | some mark =>
      let inner := afterName.andRead mark
      if name = "List" ∨ name = "WireList" then
        let (elem, afterElem) ← nested source inner.1
        let rest ← expect source '>' afterElem.1
        .ok (.owned (.list elem), (inner.andRead afterElem).andRead rest)
      else if name = "Dict" ∨ name = "WireDict" then
        let (_, keyStart) ← access source inner.1
        let (keyName, afterKey) ← path source keyStart.1
        let kind ← keyKind keyName
        let comma ← expect source ',' afterKey.1
        let valueStart := (inner.andRead (keyStart.andRead afterKey)).andRead comma
        let (value, afterValue) ← nested source valueStart.1
        let rest ← expect source '>' afterValue.1
        .ok (.owned (.dict kind value), (valueStart.andRead afterValue).andRead rest)
      else .error (.unsupportedType name)
    | none =>
      match if name = "Tuple" ∨ name = "WireTuple" then char? '(' afterName.1 else none with
      | some mark =>
        let inner := afterName.andRead mark
        let (elems, _, rest) ← list source inner.1
        .ok (.owned (.tuple elems), inner.andRead rest)
      | none =>
        match named? name with
        | some shape => .ok (.owned shape, afterName)
        | none => .error (.unsupportedType name)
termination_by 4 * s.length + 0
decreasing_by
  · exact inner.turn_lt (by decide)
  · exact inner.turn_lt (by decide)
  · exact valueStart.turn_lt (by decide)
  · exact inner.turn_lt (by decide)

/-- reads declarations up to the closing parenthesis; the flag tells that a comma stands before it -/
def list (source s : List Char) : Except Fault (List Signature × Bool × Shorter s) :=
  match char? ')' s with
  | some rest => .ok ([], false, rest)
  | none => do
    let (first, afterFirst) ← nested source s
    match char? ',' afterFirst.1 with
    | some comma =>
      let afterComma := afterFirst.andRead comma
      match char? ')' afterComma.1 with
      | some rest => .ok ([first], true, afterComma.andRead rest)
      | none =>
        let (others, trailing, rest) ← list source afterComma.1
        .ok (first :: others, trailing, afterComma.andRead rest)
    | none =>
      let rest ← expect source ')' afterFirst.1
      .ok ([first], false, afterFirst.andRead rest)
termination_by 4 * s.length + 3
decreasing_by
  · exact (NoLonger.all s).turn_lt (by decide)
  · exact afterComma.turn_lt (by decide)

end

end NativeBridge.Reader

namespace NativeBridge.Signature

/-- reads a signature that takes up the whole text -/
def read (text : String) : Except Fault Signature := do
  let (signature, rest) ← Reader.declaration text.toList text.toList
  if Text.trimStart rest.1 = [] then .ok signature
  else .error (.unsupportedType (String.ofList (Text.trim rest)))

end NativeBridge.Signature
