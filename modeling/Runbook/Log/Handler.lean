/-
  The state of logging.

  Handlers stand in the order in which they were added.  `configure` takes out the
  program's own ones, adds a new one and then sets the threshold, which fails on an
  unknown level and leaves the old threshold.  Handlers of the host show nothing
  here.  A record is written by every handler of the program if its logger is the
  program's and its level reaches the threshold.
-/
import Runbook.Log.Line
import Runbook.Text.Quoted

namespace Runbook.Log

/-- A handler: one of the program's, with its label and its format, or one of the host's. -/
inductive Handler where
  | own (label : String) (format : Format)
  | foreign
  deriving DecidableEq

namespace Handler

/-- Whether a handler is the program's. -/
def isOwn : Handler → Bool
  | own _ _ => true
  | foreign => false

/-- What a handler writes of a line at a time. -/
def written (timestamp : String) (l : Line) : Handler → String
  | own label format => l.written format label timestamp
  | foreign => ""

@[simp] theorem isOwn_own (label : String) (format : Format) : (own label format).isOwn = true := rfl

@[simp] theorem isOwn_foreign : foreign.isOwn = false := rfl

@[simp] theorem written_own (timestamp label : String) (format : Format) (l : Line) :
    (own label format).written timestamp l = l.written format label timestamp := rfl

@[simp] theorem written_foreign (timestamp : String) (l : Line) :
    foreign.written timestamp l = "" := rfl

end Handler

/-- The state of logging. -/
structure State where
  handlers : List Handler
  threshold : Level
  deriving DecidableEq

namespace State

/-- The state at the start. -/
def initial : State := ⟨[], .notSet⟩

/-- The number of handlers. -/
def handlerCount (s : State) : Nat := s.handlers.length

/-- Adds a handler. -/
def addHandler (s : State) (h : Handler) : State := { s with handlers := s.handlers ++ [h] }

/-- Adds a handler of the host. -/
def addForeign (s : State) : State := s.addHandler .foreign

/-- Takes the program's handlers out. -/
def withoutOwn (s : State) : State := { s with handlers := s.handlers.filter (!·.isOwn) }

/-- Replaces the program's handlers by one and sets the threshold.  A level that is unknown, here
returned in capitals, leaves the threshold as it is. -/
def configure (s : State) (label level : String) (format : Format) : State × Except String Level :=
  let s := s.withoutOwn.addHandler (.own label format)
  let name := Text.upper level
  match Level.ofName? name with
  | none => (s, .error name)
  | some l => ({ s with threshold := l }, .ok l)

/-- The threshold that holds: without one of its own, that of the surroundings, a warning. -/
def effective (s : State) : Level := if s.threshold = .notSet then .warning else s.threshold

/-- Whether a record of a logger and a level is made at all.  Loggers that are not the program's
have the threshold of the surroundings. -/
def isEnabled (s : State) (logger : String) (level : Level) : Bool :=
  let threshold := if isBelowRoot logger then s.effective else .warning
  threshold.number ≤ level.number

/-- What is written of a line at a time. -/
def written (s : State) (timestamp : String) (l : Line) : String :=
  if isBelowRoot l.record.logger && s.isEnabled l.record.logger l.record.level then
    String.join (s.handlers.map (·.written timestamp l))
  else ""

/-- What is written of records, one after another. -/
def lines (s : State) (timestamp : String) (records : List Record) : String :=
  String.join (records.map fun r => s.written timestamp (.ofRecord r))

end State

/-- The wording of an unknown level. -/
def unknownLevelMessage (name : String) : String := "Unknown level: " ++ Text.quoted name

/-! ## Calls of a logger -/

/-- A logger that speaks for a component. -/
structure Adapter where
  logger : String
  component : String
  deriving DecidableEq

/-- The logger of a host, for a component or for none. -/
def Adapter.ofHost (name : String) (component : Option String) : Adapter :=
  ⟨loggerOf name, (component.filter (· ≠ "")).getD defaultComponent⟩

/-- The same logger for another component. -/
def Adapter.child (a : Adapter) (component : String) : Adapter := { a with component := component }

/-- A call of a logger: a template with its values, further fields, and an exception. -/
structure Call where
  level : Level
  template : String
  values : List Value
  extra : List (String × String)
  exception : Option Exception

/-- The fields that every record has already. -/
def reservedFields : List String :=
  ["name", "msg", "args", "levelname", "levelno", "pathname", "filename", "module", "exc_info",
    "exc_text", "stack_info", "lineno", "funcName", "created", "msecs", "relativeCreated",
    "thread", "threadName", "processName", "process", "message", "asctime"]

/-- The wording of a field that would be overwritten. -/
def overwriteMessage (field : String) : String :=
  s!"Attempt to overwrite {Text.quoted field} in LogRecord"

/-- The value of a field, the last of several. -/
def fieldOf? (fields : List (String × String)) (name : String) : Option String :=
  (fields.reverse.find? (·.1 = name)).map Prod.snd

/-- What a call writes, or the reserved field that it would overwrite.  A message whose values do not
fit its template is not written. -/
def State.log (s : State) (timestamp logger : String) (component : Option String) (c : Call) :
    Except String String :=
  if !s.isEnabled logger c.level then .ok ""
  else
    match c.extra.find? fun (name, _) => name ∈ reservedFields with
    | some (name, _) => .error name
    | none =>
      match fill? c.template c.values with
      | none => .ok ""
      | some message =>
        let speaker := (fieldOf? c.extra "component").getD (component.getD defaultComponent)
        .ok (s.written timestamp ⟨⟨logger, c.level, message⟩, speaker, c.exception⟩)

end Runbook.Log
