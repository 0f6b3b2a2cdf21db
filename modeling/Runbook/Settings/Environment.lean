/-
  The process variables.

  A variable has a name and a text.  Not every pair can be set: no null character
  may be in either, and a name has characters, none of them an equals sign.
  `assign` sets one variable after another and stops at the first that cannot be
  set, with those before it set.

  * `find?_set`: **setting a variable changes what is found under its name alone**;
  * `assign_append`: assigning one list and then another is assigning both.
-/
import Runbook.Table

namespace Runbook.Settings

/-- The process variables, in the order in which they were first set. -/
abbrev Environment := Table String String

/-- Why a variable cannot be set. -/
inductive VariableFault where
  | nullCharacter
  | equalsSign
  | noName
  deriving DecidableEq, Repr

/-- The wording of a fault. -/
def VariableFault.message : VariableFault → String
  | nullCharacter => "embedded null byte"
  | equalsSign => "illegal environment variable name"
  | noName => "[Errno 22] Invalid argument"

namespace Environment

/-- What is wrong with a name and a text, if anything is. -/
def faultOf? (name text : String) : Option VariableFault :=
  if '\x00' ∈ name.toList ∨ '\x00' ∈ text.toList then some .nullCharacter
  else if '=' ∈ name.toList then some .equalsSign
  else if name = "" then some .noName
  else none

/-- Sets a variable. -/
def set (e : Environment) (name text : String) : Except VariableFault Environment :=
  match faultOf? name text with
  | some fault => .error fault
  | none => .ok (e.insert name text)

/-- Sets variables, up to the first that cannot be set. -/
def assign (e : Environment) : List (String × String) → Environment × Except VariableFault Unit
  | [] => (e, .ok ())
  | (name, text) :: rest =>
    match Environment.set e name text with
    | .error fault => (e, .error fault)
    | .ok e => assign e rest

theorem find?_set {e e' : Environment} {name text : String} (h : Environment.set e name text = .ok e')
    (x : String) : e'.find? x = if x = name then some text else e.find? x := by
  unfold Environment.set at h
  split at h
  · cases h
  · cases h; exact e.find?_insert name x text

theorem assign_append (e : Environment) (s t : List (String × String)) :
    assign e (s ++ t) =
      match assign e s with
      | (e, .error fault) => (e, .error fault)
      | (e, .ok ()) => assign e t := by
  induction s generalizing e with
  | nil => rfl
  | cons a s ih =>
    obtain ⟨name, text⟩ := a
    simp only [List.cons_append, assign]
    split
    · rfl
    · exact ih _

end Environment

end Runbook.Settings
