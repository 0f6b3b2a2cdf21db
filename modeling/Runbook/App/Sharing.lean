/-
  Applications that are given a registry.

  Every registry is kept in a place.  An application that is given a registry with
  commands has its registry in the place of that one, so what is registered on either
  side is registered for both.  One that is given an empty registry makes one of its
  own, in another place.
-/
import Runbook.App.Basic

namespace Runbook

/-- An application and the registry that it was given: the registries in their places, the place of
the application's and the place of the one that was given.  Of `base` all but its registry counts. -/
structure Sharing where
  base : App
  tables : List Registry
  own : Nat
  given : Nat

namespace Sharing

/-- The registry in a place. -/
def table (s : Sharing) (place : Nat) : Registry := s.tables[place]?.getD .empty

/-- Puts a registry in a place. -/
def setTable (s : Sharing) (place : Nat) (r : Registry) : Sharing :=
  { s with tables := s.tables.set place r }

/-- The application, with the registry in its place. -/
def app (s : Sharing) : App := { s.base with registry := s.table s.own }

/-- The registry that was given. -/
def outside (s : Sharing) : Registry := s.table s.given

/-- Gives a registry to an application; an empty one is not taken. -/
def ofApp (app : App) (outside : Registry) : Sharing :=
  if outside.entries.isEmpty then ⟨app, [outside, app.registry], 1, 0⟩
  else ⟨{ app with registryLogger := Log.registryLogger }, [outside], 0, 0⟩

/-- Registers a command through the application. -/
def register (s : Sharing) (name : String) (d : Definition) : Sharing × List Log.Record :=
  let (app, records) := s.app.register name d
  (s.setTable s.own app.registry, records)

/-- Registers an action as a command through the application. -/
def registerAction (s : Sharing) (name : String) (action : Action) (description : Option String)
    (arguments : Option (List String)) (returns : Option String) : Sharing × List Log.Record :=
  let (app, records) := s.app.registerAction name action description arguments returns
  (s.setTable s.own app.registry, records)

/-- Registers a command in the registry that was given. -/
def registerOutside (s : Sharing) (name : String) (d : Definition) : Sharing × List Log.Record :=
  let (outside, records) := s.outside.register Log.registryLogger name d
  (s.setTable s.given outside, records)

/-- Registers an action as a command in the registry that was given. -/
def registerActionOutside (s : Sharing) (name : String) (action : Action)
    (description : Option String) (arguments : Option (List String)) (returns : Option String) :
    Sharing × List Log.Record :=
  let (outside, records) :=
    s.outside.registerAction Log.registryLogger name action description arguments returns
  (s.setTable s.given outside, records)

end Sharing

end Runbook
