/-
  Log records in writing.

  A line shows the label of the program, the component that speaks, the time, the
  level and the message, as text or as one JSON object; an exception is shown
  after the text, or as a field.  Components are texts.
-/
import Runbook.Json.Printer
import Runbook.Log.Record
import Runbook.Log.Template

namespace Runbook.Log

/-- The two ways to write a line. -/
inductive Format where
  | text
  | json
  deriving DecidableEq, Repr

/-- The format of a name; every name but one means text. -/
def Format.ofName (s : String) : Format := if s = "json" then json else text

/-- The component of a record that names none. -/
def defaultComponent : String := "root"

/-- An exception: its class and what it says. -/
structure Exception where
  kind : String
  message : String
  deriving DecidableEq

/-- The class of the exceptions whose message is a key, which they quote. -/
def keyFault : String := "KeyError"

/-- An exception of a class, made with a message. -/
def Exception.ofMessage (kind message : String) : Exception :=
  ⟨kind, if kind = keyFault then Text.quoted message else message⟩

/-- An exception in writing. -/
def Exception.text (e : Exception) : String :=
  if e.message = "" then e.kind else e.kind ++ ": " ++ e.message

/-- A record with all that is written of it. -/
structure Line where
  record : Record
  component : String
  exception : Option Exception

/-- The line of a record that has no component and no exception. -/
def Line.ofRecord (r : Record) : Line := ⟨r, defaultComponent, none⟩

/-- A line as text. -/
def Line.text (label timestamp : String) (l : Line) : String :=
  s!"[{label}:{l.component}] {timestamp} {l.record.level.label}: {l.record.message}" ++
    match l.exception with
    | none => ""
    | some e => "\n" ++ e.text

/-- A line as a JSON object.  It is assumed of the library that makes it that it runs its processors in
the order in which they are listed, each on the fields that the ones before it have left, and that
these fields are then written as JSON: the label and the component, the logger, the level and the time
come first, the exception after them, and the message, which is renamed, last. -/
def Line.json (label timestamp : String) (l : Line) : Json :=
  let exception := match l.exception with
    | none => []
    | some e => [("exception", Json.str e.text)]
  .obj <|
    [("prefix", .str label), ("component", .str l.component), ("logger", .str l.record.logger),
      ("level", .str l.record.level.label), ("timestamp", .str timestamp)] ++
    exception ++ [("message", .str l.record.message)]

/-- A line in writing, with its line end. -/
def Line.written (format : Format) (label timestamp : String) (l : Line) : String :=
  (match format with
    | .text => l.text label timestamp
    | .json => (l.json label timestamp).write .line) ++ "\n"

end Runbook.Log
