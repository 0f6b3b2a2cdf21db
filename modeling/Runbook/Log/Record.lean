/-
  Log records: who says what, and how grave it is.
-/
import Runbook.Text.Letters

namespace Runbook.Log

/-- The gravity of a record.  As a threshold, `notSet` leaves the decision to the surroundings. -/
inductive Level where
  | notSet
  | debug
  | info
  | warning
  | error
  | critical
  deriving DecidableEq, Repr

namespace Level

/-- The number of a level; graver levels have larger numbers. -/
def number : Level → Nat
  | notSet => 0
  | debug => 10
  | info => 20
  | warning => 30
  | error => 40
  | critical => 50

/-- The name of a level. -/
def name : Level → String
  | notSet => "NOTSET"
  | debug => "DEBUG"
  | info => "INFO"
  | warning => "WARNING"
  | error => "ERROR"
  | critical => "CRITICAL"

/-- The name of a level in small letters. -/
def label (l : Level) : String := Text.lowerWord l.name

/-- The level of a name in capitals; two levels have a second name. -/
def ofName? (s : String) : Option Level :=
  match s with
  | "NOTSET" => some notSet
  | "DEBUG" => some debug
  | "INFO" => some info
  | "WARNING" | "WARN" => some warning
  | "ERROR" => some error
  | "CRITICAL" | "FATAL" => some critical
  | _ => none

end Level

/-- A log record. -/
structure Record where
  logger : String
  level : Level
  message : String
  deriving DecidableEq

/-- The logger above all others of the program. -/
def rootLogger : String := "yesod"

/-- The logger of a part of the program or of a host. -/
def loggerOf (part : String) : String := rootLogger ++ "." ++ part

/-- The parser's logger. -/
def parserLogger : String := loggerOf "parser"

/-- The logger of runs that have none of their own. -/
def runnerLogger : String := loggerOf "runner"

/-- The logger of registries that have none of their own. -/
def registryLogger : String := loggerOf "registry"

/-- The logger of measurements. -/
def utilsLogger : String := loggerOf "utils"

/-- Whether a logger is the program's or below it. -/
def isBelowRoot (logger : String) : Bool :=
  logger = rootLogger || (rootLogger ++ ".").toList.isPrefixOf logger.toList

end Runbook.Log
