/-
  Statements: what a program says, apart from how it is written.

  A statement calls a command and may keep its result in a variable.  Its
  arguments are literals and references to variables; the named ones form a
  table, so each key has one value.  `Statement.form` is the plain written form
  of a statement, with one space before each argument, and `Statement.text` the
  text of that form.
-/
import Runbook.Table
import Runbook.Script.Quote

namespace Runbook.Script

/-- The value of an argument: a text as it stands, or the value of a variable. -/
inductive Argument where
  | literal (value : String)
  | reference (name : String)
  deriving DecidableEq

/-- A call of a command. -/
structure Command where
  name : String
  positional : List Argument
  named : Table String Argument
  deriving DecidableEq

/-- A statement: a command, and the variable that its result is assigned to, if any. -/
structure Statement where
  target : Option String
  command : Command
  deriving DecidableEq

/-! ## The written form -/

/-- The word of an argument's value. -/
def Argument.word : Argument → Source.Word
  | literal value => wordFor value.toList
  | reference name => .reference name.toList

/-- The arguments of a command in writing, positional ones first. -/
def Command.arguments (c : Command) : List Source.Argument :=
  c.positional.map (fun a => ⟨none, a.word⟩) ++
    c.named.entries.map fun (key, a) => ⟨some key.toList, a.word⟩

/-- The plain form of a command. -/
def Command.form (c : Command) : Source.Call :=
  ⟨[], c.name.toList, c.arguments.map (([' '], ·)), []⟩

/-- The plain form of a statement. -/
def Statement.form (s : Statement) : Source.Statement :=
  ⟨s.target.map fun name => (name.toList, []), s.command.form⟩

/-- A command in writing. -/
def Command.text (c : Command) : String := String.ofList c.form.text

/-- A statement in writing. -/
def Statement.text (s : Statement) : String := String.ofList s.form.text

end Runbook.Script
