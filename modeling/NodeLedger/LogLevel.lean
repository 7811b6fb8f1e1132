import NodeLedger.Text.Quoted
import NodeLedger.Text.UpperCase

/-!
# Log levels

- `LogLevel`: the levels that messages are logged at.
- `threshold`: the number of the level that a name asks for, in any case. An unknown name asks for
  the level of ordinary messages; two names of something else are refused.
- `logLayout`: how a log line is laid out.
-/

namespace NodeLedger

/-- The level of a message. -/
inductive LogLevel where
  | debug
  | info
  | warning
  | error
  deriving Repr, DecidableEq

/-- The name of a level. -/
def LogLevel.name : LogLevel → String
  | debug => "DEBUG"
  | info => "INFO"
  | warning => "WARNING"
  | error => "ERROR"

/-- The layout of a log line. -/
def logLayout : String := "%(asctime)s %(levelname)s %(name)s: %(message)s"

/-- A name that stands for something other than a level. -/
inductive LevelFault where
  /-- The name stands for a text that is no level. -/
  | unknownText (text : String)
  /-- The name stands for something that is neither a number nor a text. -/
  | notANumber
  deriving Repr, DecidableEq

/-- The wording of a fault. -/
def LevelFault.message : LevelFault → String
  | unknownText text => s!"Unknown level: {Text.quote text}"
  | notANumber => "Level not an integer or a valid string"

/-- The number of the level that a name asks for. -/
def threshold (name : String) : Except LevelFault Nat :=
  match Text.upper name with
  | "CRITICAL" | "FATAL" => .ok 50
  | "ERROR" => .ok 40
  | "WARNING" | "WARN" => .ok 30
  | "INFO" => .ok 20
  | "DEBUG" => .ok 10
  | "NOTSET" => .ok 0
  | "BASIC_FORMAT" => .error (.unknownText "%(levelname)s:%(name)s:%(message)s")
  | "_STYLES" => .error .notANumber
  | _ => .ok 20

end NodeLedger
