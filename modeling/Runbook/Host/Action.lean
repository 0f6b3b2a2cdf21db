/-
  Actions: what a host does when a command is called.

  An action gets the arguments of the call and the host's state, and replies
  with an outcome, the time that it took and the state that it leaves.  It may
  return a value, fail with a fault, or abort the whole run.

  The clock counts nanoseconds.  Times are taken from its readings, which are
  doubles, and so are the differences and the products that are made of them.
-/
import Runbook.Decimal.Rounded
import Runbook.Host.Disk
import Runbook.Script.Resolve

namespace Runbook

/-- What a host's actions can see and change: the current directory, how often each of them was
called, a journal of calls, and what was printed. -/
structure Host where
  directory : Place
  counts : Table Nat Nat
  journal : List (String × Arguments)
  printed : String

/-- The state of a host that has done nothing. -/
def Host.initial : Host := ⟨.root, .empty, [], ""⟩

/-- Prints a text and a line end. -/
def Host.printLine (h : Host) (text : String) : Host := { h with printed := h.printed ++ text ++ "\n" }

/-- The nanoseconds of a millisecond. -/
def millisecond : Nat := 1000000

/-- The reading of a clock that has counted some nanoseconds: a double, in seconds. -/
def reading (clock : Nat) : Rat := Decimal.nearestDouble (clock / 1000000000)

/-- The milliseconds between two readings of a clock.  The difference is a double, and so is the
product. -/
def elapsed (start stop : Nat) : Rat :=
  Decimal.nearestDouble (Decimal.nearestDouble (reading stop - reading start) * 1000)

/-- A host and its clock, in nanoseconds. -/
structure World where
  clock : Nat
  host : Host

/-- The world before anything happens. -/
def World.initial : World := ⟨0, .initial⟩

/-- Why an action failed: a fault of a common kind, or any `other`, whose kind has a name. -/
inductive Fault where
  | runtime (message : String)
  | invalid (message : String)
  | missingKey (key : String)
  | system (message : String)
  | undefinedVariable (name : String)
  | noArgument
  | path (fault : PathFault)
  | other (kind message : String)

/-- The wording of a fault. -/
def Fault.message : Fault → String
  | runtime message | invalid message | system message | other _ message => message
  | missingKey key => Text.quoted key
  | undefinedVariable name => Script.undefinedMessage name
  | noArgument => "list index out of range"
  | path fault => fault.message

/-- How a call ends. -/
inductive Outcome where
  | returned (v : Value)
  | raised (f : Fault)
  | aborted (message : String)

/-- The answer of an action: its outcome, the nanoseconds that it took, and the host's state
afterwards. -/
structure Reply where
  outcome : Outcome
  took : Nat
  host : Host

/-- What a command does. -/
abbrev Action := Disk → Arguments → Host → Reply

end Runbook
