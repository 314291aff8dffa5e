/-
Bytes as text. Bytes that are not valid UTF-8 are read with a replacement character for each longest run of bytes that could
have begun a character but did not go on as one.
-/
namespace NativeBridge.Text

/-- the character that stands for what cannot be read -/
def replacement : Char := '\ufffd'

/-- the state between two bytes: between characters, or inside one with `left` more bytes to come, the next of which lies
between `low` and `high` -/
inductive Utf8State where
  | between
  | inside (value left : Nat) (low high : UInt8)

/-- reads the first byte of a character -/
def firstByte (b : UInt8) : List Char × Utf8State :=
  if b < 0x80 then ([Char.ofNat b.toNat], .between)
  else if 0xC2 ≤ b && b ≤ 0xDF then ([], .inside (b.toNat - 0xC0) 1 0x80 0xBF)
  else if b = 0xE0 then ([], .inside 0 2 0xA0 0xBF)
  else if b = 0xED then ([], .inside 0xD 2 0x80 0x9F)
  else if 0xE1 ≤ b && b ≤ 0xEF then ([], .inside (b.toNat - 0xE0) 2 0x80 0xBF)
  else if b = 0xF0 then ([], .inside 0 3 0x90 0xBF)
  else if 0xF1 ≤ b && b ≤ 0xF3 then ([], .inside (b.toNat - 0xF0) 3 0x80 0xBF)
  else if b = 0xF4 then ([], .inside 4 3 0x80 0x8F)
  else ([replacement], .between)

/-- reads one byte; a byte that does not go on with a character begins the next one -/
def nextByte (state : Utf8State) (b : UInt8) : List Char × Utf8State :=
  match state with
  | .between => firstByte b
  | .inside value left low high =>
    if low ≤ b && b ≤ high then
      let value := value * 64 + (b.toNat - 0x80)
      if left ≤ 1 then ([Char.ofNat value], .between) else ([], .inside value (left - 1) 0x80 0xBF)
    else
      let (chars, state) := firstByte b
      (replacement :: chars, state)

/-- reads bytes from a state on -/
def readFrom (state : Utf8State) : List UInt8 → List Char
  | [] =>
    match state with
    | .between => []
    | .inside .. => [replacement]
  | b :: rest =>
    let (chars, state) := nextByte state b
    chars ++ readFrom state rest

/-- the text of the bytes, with replacement characters where they are not valid -/
def readLossy (bytes : List UInt8) : String := String.ofList (readFrom .between bytes)

end NativeBridge.Text
