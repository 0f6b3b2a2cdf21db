/-
  The settings, and what their fields accept.

  Each field reads a value that was given for it, from a caller or from the text
  of a variable.  A value that a field does not accept has a `Mismatch`.

  What the program leaves to others is a parameter, the `Library`: which
  assignments the text of a file makes, how a file is loaded into the process
  variables, in which of its sources the value of a field is found, and from which
  values texts, paths and truth values are read.
-/
import Runbook.Host.Disk
import Runbook.Log.Line
import Runbook.Settings.Environment
import Runbook.Text.Utf8

namespace Runbook

namespace Settings

/-- The fields. -/
inductive Field where
  | name
  | app
  | logLevel
  | logFormat
  | workingDir
  | showTimings
  deriving DecidableEq, Repr

/-- Every field. -/
def Field.all : List Field := [name, app, logLevel, logFormat, workingDir, showTimings]

/-- The name of a field. -/
def Field.key : Field → String
  | name => "name"
  | app => "app"
  | logLevel => "log_level"
  | logFormat => "log_format"
  | workingDir => "working_dir"
  | showTimings => "show_timings"

/-- Why a value is not accepted. -/
inductive Mismatch where
  | notText
  | undecodable
  | notAnOption
  | notAPath
  | notBooleanText
  | notBoolean
  deriving DecidableEq, Repr

/-- The name of a mismatch. -/
def Mismatch.name : Mismatch → String
  | notText => "string_type"
  | undecodable => "string_unicode"
  | notAnOption => "literal_error"
  | notAPath => "path_type"
  | notBooleanText => "bool_parsing"
  | notBoolean => "bool_type"

/-- The fields that were given values that they do not accept. -/
abbrev Invalid := List (Field × Mismatch)

/-- Why settings cannot be read: values that their fields do not accept, a file that is no text, a
path that cannot be followed, or a variable that cannot be set. -/
inductive LoadError where
  | invalid (fields : Invalid)
  | undecodable (e : Text.Utf8.DecodeError)
  | unreachable (fault : PathFault)
  | unassignable (fault : VariableFault)

/-! ## Libraries -/

/-- What is left to libraries. -/
structure Library where
  /-- The assignments of a text, in order: a name, and a value if it has one. -/
  assignments : List Char → List (String × Option String)
  /-- Sets the process variables that the bytes of a file assign, over the values that they have. -/
  load : Environment → List UInt8 → Environment × Except LoadError Unit
  /-- The value of a field, from what a caller gives, the process variables and the text of a file. -/
  given : List (String × Value) → Environment → List Char → Field → Option Value
  /-- Reads a text. -/
  readText : Value → Except Mismatch String
  /-- Reads a path, or nothing. -/
  readPath : Value → Except Mismatch (Option String)
  /-- Reads a truth value. -/
  readBoolean : Value → Except Mismatch Bool

/-! ## Reading values -/

/-- A text, or nothing. -/
def Library.readOptionalText (l : Library) : Value → Except Mismatch (Option String)
  | .null => .ok none
  | v => (l.readText v).map some

/-- The levels that can be set. -/
def levels : List Log.Level := [.debug, .info, .warning, .error]

/-- A level, by its name in any case or one of two short forms. -/
def readLevel (v : Value) : Except Mismatch Log.Level :=
  let text := Log.shown v
  let name := match Text.lowerWord text with
    | "warn" => "WARNING"
    | "err" => "ERROR"
    | _ => Text.upper text
  match levels.find? (·.name = name) with
  | some l => .ok l
  | none => .error .notAnOption

/-- The name of a format. -/
def formatName : Log.Format → String
  | .text => "text"
  | .json => "json"

/-- A format, by its name in any case. -/
def readFormat (v : Value) : Except Mismatch Log.Format :=
  match [Log.Format.text, .json].find? (formatName · = Text.lowerWord (Log.shown v)) with
  | some f => .ok f
  | none => .error .notAnOption

/-- A path without the parts that do not count: empty ones, `.`, and all but one leading slash,
unless there are exactly two. -/
def normalizePath (path : String) : String :=
  let slashes := (path.toList.takeWhile (· = '/')).length
  let root := if slashes = 0 then "" else if slashes = 2 then "//" else "/"
  let parts := Path.parts path
  if root = "" ∧ parts.isEmpty then "." else root ++ "/".intercalate parts

end Settings

/-- The settings of a program. -/
structure Settings where
  name : String
  app : Option String
  logLevel : Log.Level
  logFormat : Log.Format
  workingDir : Option String
  showTimings : Bool
  deriving DecidableEq

namespace Settings

/-- The settings when nothing is set. -/
def defaults : Settings := ⟨"yesod", none, .info, .text, none, true⟩

/-- The values of settings, field by field. -/
def values (s : Settings) : List (Field × Value) :=
  let text (o : Option String) : Value := (o.map .str).getD .null
  [(.name, .str s.name), (.app, text s.app), (.logLevel, .str s.logLevel.name),
    (.logFormat, .str (formatName s.logFormat)), (.workingDir, text s.workingDir),
    (.showTimings, .bool s.showTimings)]

/-- A field's value: the default if none was given. -/
def fieldValue {α : Type} (given : Field → Option Value) (field : Field) (default : α)
    (read : Value → Except Mismatch α) : Except Mismatch α :=
  match given field with
  | none => .ok default
  | some v => read v

/-- The settings of given values, or every mismatch. -/
def ofValues (l : Library) (given : Field → Option Value) : Except Invalid Settings :=
  let name := fieldValue given .name defaults.name l.readText
  let app := fieldValue given .app defaults.app l.readOptionalText
  let logLevel := fieldValue given .logLevel defaults.logLevel readLevel
  let logFormat := fieldValue given .logFormat defaults.logFormat readFormat
  let workingDir := fieldValue given .workingDir defaults.workingDir l.readPath
  let showTimings := fieldValue given .showTimings defaults.showTimings l.readBoolean
  let mismatch {α : Type} (field : Field) : Except Mismatch α → Invalid
    | .ok _ => []
    | .error m => [(field, m)]
  match name, app, logLevel, logFormat, workingDir, showTimings with
  | .ok name, .ok app, .ok logLevel, .ok logFormat, .ok workingDir, .ok showTimings =>
    .ok ⟨name, app, logLevel, logFormat, workingDir, showTimings⟩
  | _, _, _, _, _, _ =>
    .error (mismatch .name name ++ mismatch .app app ++ mismatch .logLevel logLevel ++
      mismatch .logFormat logFormat ++ mismatch .workingDir workingDir ++
      mismatch .showTimings showTimings)

end Settings

end Runbook
