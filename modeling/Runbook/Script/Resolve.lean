/-
  The arguments that a command receives.

  A literal is passed verbatim and a reference as the text of the variable's
  value.  A command resolves if all its references are defined; if not, the
  first undefined one is reported, positional arguments before named ones.
  `Operand` lets a host hand over a value where an argument is expected, which
  is refused.
-/
import Runbook.Script.Statement
import Runbook.Value.Stringify

namespace Runbook

/-- The values of variables, in the order in which they got their first value. -/
abbrev Bindings := Table String Value

/-- The arguments of a command as its action receives them. -/
structure Arguments where
  positional : List String
  named : Table String String
  deriving DecidableEq

namespace Script

/-- The name that an argument refers to, if it has no value. -/
def Argument.undefined? (bindings : Bindings) : Argument → Option String
  | literal _ => none
  | reference name => if bindings.contains name then none else some name

/-- The text of an argument; empty for a name without a value. -/
def Argument.resolved (bindings : Bindings) : Argument → String
  | literal value => value
  | reference name => ((bindings.find? name).map Value.stringify).getD ""

/-- The first name in a command's arguments that has no value. -/
def Command.undefined? (bindings : Bindings) (c : Command) : Option String :=
  (c.positional ++ c.named.values).findSome? (·.undefined? bindings)

/-- The arguments of a command, or the first name without a value. -/
def Command.resolve (bindings : Bindings) (c : Command) : Except String Arguments :=
  match c.undefined? bindings with
  | some name => .error name
  | none =>
    .ok ⟨c.positional.map (·.resolved bindings), c.named.map fun _ a => a.resolved bindings⟩

/-- The wording of a reference to a name without a value. -/
def undefinedMessage (name : String) : String := s!"Variable '{name}' is not defined"

/-! ## Operands that need not be arguments -/

/-- What a host puts where an argument is expected. -/
inductive Operand where
  | argument (a : Argument)
  | value (v : Value)

/-- Why an operand does not resolve. -/
inductive OperandFault where
  | undefined (name : String)
  | notAnArgument (v : Value)

/-- What is wrong with an operand. -/
def Operand.fault? (bindings : Bindings) : Operand → Option OperandFault
  | argument a => (a.undefined? bindings).map .undefined
  | value v => some (.notAnArgument v)

/-- The text of an operand; empty for one that is refused. -/
def Operand.resolved (bindings : Bindings) : Operand → String
  | argument a => a.resolved bindings
  | value _ => ""

/-- The arguments that operands make, or what is wrong with the first that is refused. -/
def resolveOperands (bindings : Bindings) (positional : List Operand)
    (named : Table String Operand) : Except OperandFault Arguments :=
  match (positional ++ named.values).findSome? (·.fault? bindings) with
  | some fault => .error fault
  | none => .ok ⟨positional.map (·.resolved bindings), named.map fun _ o => o.resolved bindings⟩

/-- The wording of a fault. -/
def OperandFault.message : OperandFault → String
  | undefined name => undefinedMessage name
  | notAnArgument v => s!"Unknown argument type: {v.display}"

end Script

end Runbook
