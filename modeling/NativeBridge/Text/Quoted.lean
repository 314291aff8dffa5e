/-
Quoted text, as messages show a string: in double quotes, with the quote, the backslash and the common controls escaped by
a letter and any other character without a shape of its own escaped by its code point: one without a printed form, one that
is ignored where it is not known, and a mark that attaches to the character before it.
-/
import NativeBridge.Text.DefaultIgnorable
import NativeBridge.Text.GraphemeExtend
import NativeBridge.Text.Unprintable

namespace NativeBridge.Text

/-- the letter that escapes the character after a backslash, if it has one -/
def letterEscape? : Char → Option Char
  | '\x00' => some '0'
  | '\t' => some 't'
  | '\n' => some 'n'
  | '\r' => some 'r'
  | '"' => some '"'
  | '\\' => some '\\'
  | _ => none

/-- a printable ASCII character; it needs no table -/
def isPlainAscii (c : Char) : Bool := 0x20 ≤ c.toNat && c.toNat < 0x7F

/-- a halfwidth sound mark: it belongs to the letter before it, but stands in a place of its own -/
def isHalfwidthSoundMark (c : Char) : Bool := c == '\uff9e' || c == '\uff9f'

/-- the character can be read in a text on its own -/
def hasShape (c : Char) : Bool :=
  isPlainAscii c || isHalfwidthSoundMark c || !(isGraphemeExtend c || isDefaultIgnorable c || isUnprintable c)

/-- one character of a quoted text -/
def quotedChar (c : Char) : List Char :=
  match letterEscape? c with
  | some letter => ['\\', letter]
  | none =>
    if hasShape c then [c]
    else ['\\', 'u', '\x7b'] ++ Nat.toDigits 16 c.toNat ++ ['\x7d']

/-- the text in quotes -/
def quoted (s : String) : String := String.ofList ('"' :: s.toList.flatMap quotedChar ++ ['"'])

end NativeBridge.Text
