/-
Numbers and dates of TOML, as far as they have to be told from what is none. Digits may be kept apart by single underscores;
a decimal number has no idle zero in front; integers have 64 bits, and a float above zero is not rounded to infinity.

    integer = [sign] decimal | 0x hex | 0o octal | 0b binary
    float   = [sign] decimal (. digits [exponent] | exponent) | [sign] (inf | nan)
    date    = yyyy-mm-dd [(T | blank) time [Z | (+ | -) hh:mm]] | time
    time    = hh:mm:ss [. digits]
-/
import NativeBridge.IntWidth

namespace NativeBridge.Toml

/-- digits, with single underscores between them -/
def isDigitRun (isDigit : Char → Bool) : List Char → Bool
  | [] => false
  | [c] => isDigit c
  | c :: '_' :: rest => isDigit c && isDigitRun isDigit rest
  | c :: rest => isDigit c && isDigitRun isDigit rest

/-- the value of a hexadecimal digit -/
def hexValue? (c : Char) : Option Nat :=
  if c.isDigit then some (c.toNat - '0'.toNat)
  else if 'a' ≤ c ∧ c ≤ 'f' then some (c.toNat - 'a'.toNat + 10)
  else if 'A' ≤ c ∧ c ≤ 'F' then some (c.toNat - 'A'.toNat + 10)
  else none

/-- a digit to a base up to sixteen -/
def isDigitOf (base : Nat) (c : Char) : Bool := (hexValue? c).any (· < base)

/-- the number that digits stand for; underscores do not count -/
def digitValue (base : Nat) (s : List Char) : Nat :=
  (s.filterMap hexValue?).foldl (fun n digit => base * n + digit) 0

/-- a sign and what follows it -/
def signed (s : List Char) : Bool × List Char :=
  match s with
  | '-' :: rest => (true, rest)
  | '+' :: rest => (false, rest)
  | s => (false, s)

/-- decimal digits without an idle zero -/
def isDecimal (s : List Char) : Bool :=
  match s with
  | ['0'] => true
  | '0' :: _ => false
  | s => isDigitRun (isDigitOf 10) s

/-- an integer of 64 bits -/
def isInteger (s : List Char) : Bool :=
  match s with
  | '0' :: 'x' :: digits => inBase 16 digits
  | '0' :: 'o' :: digits => inBase 8 digits
  | '0' :: 'b' :: digits => inBase 2 digits
  | s =>
    let (negative, digits) := signed s
    let n : Int := digitValue 10 digits
    isDecimal digits && decide (IntWidth.i64.Holds (if negative then -n else n))
where
  inBase (base : Nat) (digits : List Char) : Bool :=
    isDigitRun (isDigitOf base) digits && decide (IntWidth.i64.Holds (digitValue base digits))

/-- the exponent of a float -/
def isExponent (s : List Char) : Bool :=
  match s with
  | 'e' :: rest | 'E' :: rest => isDigitRun (isDigitOf 10) (signed rest).2
  | _ => false

/-- the mark of an exponent -/
def isExponentMark (c : Char) : Bool := c == 'e' || c == 'E'

/-- a decimal number that is not negative: the point stands before the first digit, which is no zero, and is then moved to
the right by so many places -/
structure Decimal where
  digits : List Char
  places : Int

namespace Decimal

/-- the number with these digits before and after the point, the point moved to the right -/
def ofParts (whole fraction : List Char) (moved : Int) : Decimal :=
  let whole := whole.filter (· != '_')
  let digits := whole ++ fraction.filter (· != '_')
  let idle := (digits.takeWhile (· == '0')).length
  ⟨digits.drop idle, whole.length - idle + moved⟩

/-- the least number that is rounded to an infinity in 64 bits: half a unit in the last place above the greatest float -/
def infinite : Nat := ((1 <<< 54) - 1) <<< 970

/-- the nearest float of 64 bits is an infinity; `infinite` has 309 digits -/
def isInfinite (n : Decimal) : Bool :=
  !n.digits.isEmpty && (decide (309 < n.places) || (n.places == 309 &&
    decide (infinite * Nat.pow 10 n.digits.length ≤ digitValue 10 n.digits * Nat.pow 10 309)))

end Decimal

/-- how far an exponent moves the point to the right -/
def exponentValue (s : List Char) : Int :=
  let (negative, digits) := signed (s.drop 1)
  if negative then -(digitValue 10 digits) else digitValue 10 digits

/-- reads a float in decimal notation, without its sign -/
def decimal? (s : List Char) : Option Decimal :=
  let whole := s.takeWhile fun c => !(c == '.' || isExponentMark c)
  let exponent := s.dropWhile fun c => !isExponentMark c
  let fraction := ((s.drop whole.length).takeWhile fun c => !isExponentMark c).drop 1
  let hasPoint := (s.drop whole.length).head? == some '.'
  if isDecimal whole ∧ (hasPoint ∨ exponent ≠ []) ∧ (hasPoint → isDigitRun (isDigitOf 10) fraction) ∧
      (exponent ≠ [] → isExponent exponent) then
    some (.ofParts whole fraction (exponentValue exponent))
  else none

/-- a float; one in decimal notation may be too small, but not too large -/
def isFloat (s : List Char) : Bool :=
  let (negative, s) := signed s
  s == ['i', 'n', 'f'] || s == ['n', 'a', 'n'] || (decimal? s).any fun n => negative || !n.isInfinite

/-- a number written with exactly so many digits -/
def fixed? (digits : List Char) : Option Nat :=
  if digits.all Char.isDigit then some (digitValue 10 digits) else none

/-- the number of days of a month -/
def daysOf (year month : Nat) : Nat :=
  match month with
  | 2 => if year % 4 = 0 ∧ (year % 100 ≠ 0 ∨ year % 400 = 0) then 29 else 28
  | 4 | 6 | 9 | 11 => 30
  | _ => 31

/-- a day of the calendar -/
def isDate (s : List Char) : Bool :=
  match s with
  | [y₁, y₂, y₃, y₄, '-', m₁, m₂, '-', d₁, d₂] =>
    match fixed? [y₁, y₂, y₃, y₄], fixed? [m₁, m₂], fixed? [d₁, d₂] with
    | some year, some month, some day =>
      decide (1 ≤ month ∧ month ≤ 12 ∧ 1 ≤ day ∧ day ≤ daysOf year month)
    | _, _, _ => false
  | _ => false

/-- hours and minutes -/
def isClock (h₁ h₂ m₁ m₂ : Char) : Bool :=
  (fixed? [h₁, h₂]).any (· ≤ 23) && (fixed? [m₁, m₂]).any (· ≤ 59)

/-- where the local time is, if it is told -/
def isOffset (s : List Char) : Bool :=
  match s with
  | [] | ['Z'] | ['z'] => true
  | [sign, h₁, h₂, ':', m₁, m₂] => (sign == '+' || sign == '-') && isClock h₁ h₂ m₁ m₂
  | _ => false

/-- a time of the day; a date may tell where it is -/
def isTime (afterDate : Bool) (s : List Char) : Bool :=
  match s with
  | h₁ :: h₂ :: ':' :: m₁ :: m₂ :: ':' :: s₁ :: s₂ :: rest =>
    let offset := match rest with
      | '.' :: digits => digits.dropWhile Char.isDigit
      | rest => rest
    let fraction := match rest with
      | '.' :: digits => (digits.head?).any Char.isDigit
      | _ => true
    isClock h₁ h₂ m₁ m₂ && (fixed? [s₁, s₂]).any (· ≤ 60) && fraction &&
      (if afterDate then isOffset offset else offset.isEmpty)
  | _ => false

/-- a date, a time, or both -/
def isMoment (s : List Char) : Bool :=
  isTime false s || isDate s ||
    (isDate (s.take 10) &&
      match s.drop 10 with
      | mark :: time => (mark == 'T' || mark == 't' || mark == ' ') && isTime true time
      | [] => false)

/-- a number or a date -/
def isQuantity (s : List Char) : Bool := isInteger s || isFloat s || isMoment s

/-- a character of a number or date -/
def isQuantityChar (c : Char) : Bool :=
  c.isAlphanum || c == '+' || c == '-' || c == '_' || c == '.' || c == ':'

end NativeBridge.Toml
