/-
  Finding the host that the command line is to work with.

  A target names a module and one of its members, with a colon in between.
  Modules are given by name; loading one gives its members, of which some are
  applications, and may log something, also if the target then fails.  The code of
  a module may crash while it is loaded.  Besides, every directory is a module
  without members of its own; its directories are modules inside it.
-/
import Runbook.App.Basic

namespace Runbook.Cli

/-- A member of a module: an application, or a value of some other type. -/
inductive Member where
  | app (a : App)
  | other (typeName : String)

/-- The members of a module by name, of which the first of a name counts. -/
abbrev Members := List (String × Member)

/-- How the code of a module fails while it is loaded: the kind of the fault, its wording, and whether
a load is prepared for faults of this kind.  Any other ends the program. -/
structure Crash where
  kind : String
  message : String
  expected : Bool
  deriving DecidableEq

/-- A module that a target can name: what loading it under the settings gives and logs, and how its
code fails meanwhile, if it does. -/
structure Module where
  name : String
  load : Settings → Members × List Log.Record
  crash : Settings → Option Crash := fun _ => none

/-- Why a target does not load. -/
inductive TargetFault where
  | malformed (target : String)
  | noModule (name : String)
  | notAPackage (parent name : String)
  | relativeName (name : String)
  | noMember (owner member : String)
  | notAnApp (target typeName : String)
  | crashed (c : Crash)
  deriving DecidableEq

/-- The wording of a fault. -/
def TargetFault.message : TargetFault → String
  | malformed target => "Expected MODULE:ATTRIBUTE, got " ++ Text.quoted target
  | noModule name => "No module named " ++ Text.quoted name
  | notAPackage parent name =>
    s!"No module named {Text.quoted name}; {Text.quoted parent} is not a package"
  | relativeName name =>
    "the 'package' argument is required to perform a relative import for " ++ Text.quoted name
  | noMember owner member => s!"module '{owner}' has no attribute '{member}'"
  | notAnApp target typeName => s!"{target} is {typeName}, not Yesod"
  | crashed c => c.message

/-- The crash that a fault is, if a load is not prepared for it. -/
def TargetFault.unexpected? : TargetFault → Option Crash
  | crashed c => if c.expected then none else some c
  | _ => none

/-! ## Members that are no applications -/

/-- Members of one type. -/
def membersOfType (typeName : String) (names : List String) : Members :=
  names.map (·, .other typeName)

/-- The members that every module has. -/
def commonMembers : Members :=
  membersOfType "str" ["__name__", "__package__"] ++
  membersOfType "dict" ["__dict__", "__annotations__"] ++
  [("__class__", .other "type"), ("__spec__", .other "ModuleSpec")] ++
  membersOfType "method-wrapper"
    ["__init__", "__delattr__", "__eq__", "__ge__", "__getattribute__", "__gt__", "__hash__",
      "__le__", "__lt__", "__ne__", "__repr__", "__setattr__", "__str__"] ++
  membersOfType "builtin_function_or_method"
    ["__dir__", "__format__", "__getstate__", "__init_subclass__", "__new__", "__reduce__",
      "__reduce_ex__", "__sizeof__", "__subclasshook__"]

/-- The members of a documented module that was read from a file. -/
def fileMembers : Members :=
  membersOfType "str" ["__doc__", "__file__", "__cached__"] ++
  [("__builtins__", .other "dict"), ("__loader__", .other "SourceFileLoader")]

/-- The members of a directory. -/
def directoryMembers : Members :=
  membersOfType "NoneType" ["__doc__", "__file__"] ++
  [("__path__", .other "_NamespacePath"), ("__loader__", .other "NamespaceLoader")]

/-! ## Loading -/

/-- Splits a target at its first colon; both parts must have characters. -/
def splitTarget (target : String) : Except TargetFault (String × String) :=
  let cs := target.toList
  let name := String.ofList (cs.takeWhile (· ≠ ':'))
  let member := String.ofList ((cs.dropWhile (· ≠ ':')).drop 1)
  if name = "" ∨ member = "" then .error (.malformed target) else .ok (name, member)

/-- A name with dots between its parts. -/
def dotted (parts : List String) : String := ".".intercalate parts

/-- The names on the way to a name, shortest first, and the name itself. -/
def stagesOf (parts : List String) : List (List String) :=
  (List.range parts.length).map fun n => parts.take (n + 1)

/-- The members of a directory below the root, by the parts of its name.  Each of its stages must be
a directory. -/
def directoryAt (disk : Disk) (parts : List String) : Except TargetFault Members :=
  match (stagesOf parts).find? fun names => { Place.root with names } ∉ disk.directories with
  | some names => .error (.noModule (dotted names))
  | none => .ok directoryMembers

/-- Loads the module of a name: what is logged meanwhile, and its members.  One that is no directory
has no modules inside it, but is loaded before these are looked for. -/
def loadModule (modules : List Module) (disk : Disk) (settings : Settings) (name : String) :
    List Log.Record × Except TargetFault Members :=
  match name.splitOn "." with
  | [] => ([], .error (.noModule name))
  | "" :: _ :: _ => ([], .error (.relativeName name))
  | first :: inner =>
    match modules.find? (·.name = first) with
    | none => ([], directoryAt disk (first :: inner))
    | some m =>
      let (members, records) := m.load settings
      match m.crash settings, inner with
      | some c, _ => (records, .error (.crashed c))
      | none, [] => (records, .ok members)
      | none, part :: _ => (records, .error (.notAPackage first (dotted [first, part])))

/-- The application that a target names among the members of its module. -/
def appAmong (members : Members) (target name member : String) : Except TargetFault App :=
  match (members ++ commonMembers).lookup member with
  | none => .error (.noMember name member)
  | some (.other typeName) => .error (.notAnApp target typeName)
  | some (.app app) => .ok app

/-- The application of a target, and what is logged on the way to it. -/
def loadApp (modules : List Module) (disk : Disk) (settings : Settings) (target : String) :
    List Log.Record × Except TargetFault App :=
  match splitTarget target with
  | .error fault => ([], .error fault)
  | .ok (name, member) =>
    let (records, members) := loadModule modules disk settings name
    (records, members.bind fun members => appAmong members target name member)

end Runbook.Cli
