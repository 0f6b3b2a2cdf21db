/-
  The commands of a host.

  A registry holds definitions under names, in the order of first registration.
  A definition is an action with what the help text says about it; one whose
  `returns` is not empty must be assigned to a variable.
-/
import Runbook.Host.Action
import Runbook.Log.Record

namespace Runbook

/-- A command: its action and its description. -/
structure Definition where
  action : Action
  description : Option String
  arguments : List String
  returns : Option String

/-- The definition of an action that is described piece by piece; its arguments may be left out. -/
def Definition.ofAction (action : Action) (description : Option String)
    (arguments : Option (List String)) (returns : Option String) : Definition :=
  ⟨action, description, arguments.getD [], returns⟩

/-- The contract of a command that returns a value, if it has one. -/
def Definition.contract? (d : Definition) : Option String := d.returns.filter (· ≠ "")

/-- The commands of a host, by name. -/
abbrev Registry := Table String Definition

namespace Registry

/-- The record of a registration under a name that is taken. -/
def overwriting (logger name : String) : Log.Record :=
  ⟨logger, .warning, s!"Overwriting existing command: {name}"⟩

/-- Registers a command.  One of the same name is overwritten, in its place, with a warning. -/
def register (logger : String) (r : Registry) (name : String) (d : Definition) :
    Registry × List Log.Record :=
  (r.insert name d, if r.contains name then [overwriting logger name] else [])

/-- Registers an action as a command. -/
def registerAction (logger : String) (r : Registry) (name : String) (action : Action)
    (description : Option String) (arguments : Option (List String)) (returns : Option String) :
    Registry × List Log.Record :=
  r.register logger name (.ofAction action description arguments returns)

/-- The help text of a command. -/
def helpOf (name : String) (d : Definition) : List String :=
  let line (indent : String) : Option String → List String
    | some s => if s = "" then [] else [indent ++ s]
    | none => []
  ["  " ++ name] ++ line "    " d.description ++
    (if d.arguments.isEmpty then [] else
      "    ARGUMENTS:" :: d.arguments.map ("    * " ++ ·)) ++
    line "    RETURNS: " d.returns

/-- The help text of a registry. -/
def help (r : Registry) (program : String) : String :=
  let usage := s!"Usage: ./{program}/x <command1> [arg1:value] [arg2:value] <command2> ..."
  "\n".intercalate <|
    [usage, "", "Available commands:"] ++ r.entries.flatMap fun (name, d) => helpOf name d

end Registry

end Runbook
