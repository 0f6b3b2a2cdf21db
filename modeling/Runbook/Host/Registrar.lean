/-
  Registries that hand out copies.

  A registrar registers commands in a table of its own, and copies that table for
  whoever asks.  Every table is kept in a place, so a change of a copy is a change in
  the copy's place, whatever that is.
-/
import Runbook.Host.Registry

namespace Runbook

/-- A registry with all tables that it made: the place of its own one, and the places of the copies
that it handed out, in this order. -/
structure Registrar where
  logger : String
  tables : List Registry
  own : Nat
  copies : List Nat

namespace Registrar

/-- The registrar without commands. -/
def initial (logger : String) : Registrar := ⟨logger, [.empty], 0, []⟩

/-- The table in a place. -/
def table (r : Registrar) (place : Nat) : Registry := r.tables[place]?.getD .empty

/-- Puts a table in a place. -/
def setTable (r : Registrar) (place : Nat) (t : Registry) : Registrar :=
  { r with tables := r.tables.set place t }

/-- The commands that are registered. -/
def registry (r : Registrar) : Registry := r.table r.own

/-- Registers a command. -/
def register (r : Registrar) (name : String) (d : Definition) : Registrar × List Log.Record :=
  let (t, records) := r.registry.register r.logger name d
  (r.setTable r.own t, records)

/-- Registers an action as a command. -/
def registerAction (r : Registrar) (name : String) (action : Action) (description : Option String)
    (arguments : Option (List String)) (returns : Option String) : Registrar × List Log.Record :=
  let (t, records) := r.registry.registerAction r.logger name action description arguments returns
  (r.setTable r.own t, records)

/-- Hands out a copy of the commands, in a new place. -/
def copy (r : Registrar) : Registrar :=
  { r with tables := r.tables ++ [r.registry], copies := r.copies ++ [r.tables.length] }

/-- Changes one of the copies that were handed out. -/
def changeCopy (r : Registrar) (i : Nat) (change : Registry → Registry) : Registrar :=
  match r.copies[i]? with
  | none => r
  | some place => r.setTable place (change (r.table place))

/-- Removes all commands from a copy. -/
def emptyCopy (r : Registrar) (i : Nat) : Registrar := r.changeCopy i fun _ => .empty

end Registrar

end Runbook
