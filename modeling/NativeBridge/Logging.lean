/-
What is logged. A level is written as its name, in letters of either case, or as its number; blanks around it do not count,
and any other text stands for the ordinary level.
-/
import NativeBridge.Environment
import NativeBridge.Settings

namespace NativeBridge

/-- the levels, from few to many messages -/
inductive LogLevel where
  | error
  | warn
  | info
  | debug
  | trace
deriving DecidableEq, Repr

namespace LogLevel

/-- the name of a level -/
def name : LogLevel → String
  | error => "ERROR"
  | warn => "WARN"
  | info => "INFO"
  | debug => "DEBUG"
  | trace => "TRACE"

/-- the level with a number -/
def ofNumber? : Nat → Option LogLevel
  | 1 => some error
  | 2 => some warn
  | 3 => some info
  | 4 => some debug
  | 5 => some trace
  | _ => none

/-- the number that digits stand for, behind at most one plus sign -/
def number? (s : List Char) : Option Nat :=
  let digits := if s.head? = some '+' then s.tail else s
  if digits ≠ [] ∧ digits.all Char.isDigit then
    some (digits.foldl (fun n c => 10 * n + (c.toNat - '0'.toNat)) 0)
  else none

/-- the level that a text names, without blanks around it -/
def ofText? (s : String) : Option LogLevel :=
  match (number? s.toList).bind ofNumber? with
  | some level => some level
  | none => [error, warn, info, debug, trace].find? fun level => s.map Char.toUpper = level.name

/-- the level that a text stands for -/
def ofText (s : String) : LogLevel := (ofText? (Text.trimmed s)).getD .info

end LogLevel

/-- how messages are logged -/
structure Logging where
  level : LogLevel
  /-- as objects, one a line -/
  json : Bool
deriving DecidableEq, Repr

namespace Logging

/-- as the settings say -/
def ofSettings (s : LoggingSettings) : Logging := ⟨.ofText s.level, s.json⟩

/-- as the environment says -/
def ofEnvironment (env : Environment) : Logging :=
  ⟨((env.get? "BINDWIRE_LOG_LEVEL").map LogLevel.ofText).getD .info, (env.get? "BINDWIRE_LOG_JSON").isSome⟩

end Logging

end NativeBridge
