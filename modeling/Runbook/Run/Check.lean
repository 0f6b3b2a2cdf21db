/-
  What can be told about statements before they run.

  `check` finds every statement whose command is not registered and every bare
  one whose command returns a value.  It looks at no variable and runs nothing.
-/
import Runbook.Host.Registry
import Runbook.Script.Parse

namespace Runbook.Run

open Script (Statement)

/-- What is wrong with a statement. -/
inductive Problem where
  | unknownCommand
  | missingAssignment (returns : String)
  deriving DecidableEq

/-- A problem of the statement at an index. -/
structure Issue where
  problem : Problem
  index : Nat
  command : String
  deriving DecidableEq

/-- The wording of an issue. -/
def Issue.message (i : Issue) : String :=
  match i.problem with
  | .unknownCommand => s!"Unknown command: '{i.command}'"
  | .missingAssignment returns =>
    s!"Command '{i.command}' returns a value and must be assigned to a variable\n" ++
    s!"  Expected: varname:({i.command} ...) or _:({i.command} ...) to ignore the return value\n" ++
    s!"  Returns: {returns}"

/-- The issue of a statement at an index, if it has one. -/
def issueOf? (registry : Registry) (index : Nat) (s : Statement) : Option Issue :=
  match registry.find? s.command.name with
  | none => some ⟨.unknownCommand, index, s.command.name⟩
  | some d =>
    match d.contract?, s.target with
    | some returns, none => some ⟨.missingAssignment returns, index, s.command.name⟩
    | _, _ => none

/-- The issues of statements, the first of which has a given index. -/
def checkFrom (registry : Registry) : (index : Nat) → List Statement → List Issue
  | _, [] => []
  | index, s :: ss => (issueOf? registry index s).toList ++ checkFrom registry (index + 1) ss

/-- The issues of statements, in order. -/
def check (registry : Registry) (statements : List Statement) : List Issue :=
  checkFrom registry 0 statements

/-- The wording of a failed check. -/
def failureMessage (issues : List Issue) : String :=
  "Validation failed: " ++ "; ".intercalate (issues.map Issue.message)

end Runbook.Run
