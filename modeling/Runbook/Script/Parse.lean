/-
  From the written form to statements.

  A quoted word is read without its escapes.  Positional arguments keep their
  order; of a key that is written more than once the last occurrence counts,
  and `duplicates` tells where the others stand.  `parse` reads a source text, and
  `notices` is what is logged of it: every repeated key, and how many statements
  were read; of the empty text nothing.
-/
import Runbook.Log.Record
import Runbook.Script.Statement
import Runbook.Source.Node

namespace Runbook.Script

open Source (Location SyntaxError)

/-! ## Statements of a form -/

/-- The value of a word. -/
def Argument.ofWord : Source.Word → Argument
  | .reference name => .reference (String.ofList name)
  | .quoted body => .literal (String.ofList (unescape body))
  | .bare text => .literal (String.ofList text)

/-- The positional arguments among written ones. -/
def positionalOf (arguments : List Source.Argument) : List Argument :=
  arguments.filterMap fun a => match a.key with
    | none => some (.ofWord a.word)
    | some _ => none

/-- Takes one more written argument into a table of named ones. -/
def addNamed (named : Table String Argument) (a : Source.Argument) : Table String Argument :=
  match a.key with
  | none => named
  | some key => named.push (String.ofList key) (.ofWord a.word)

/-- The named arguments among written ones, in the order of each key's last occurrence. -/
def namedOf (arguments : List Source.Argument) : Table String Argument :=
  arguments.foldl addNamed .empty

/-- The command of a written call. -/
def Command.ofForm (c : Source.Call) : Command :=
  let arguments := c.arguments.map Prod.snd
  ⟨String.ofList c.name, positionalOf arguments, namedOf arguments⟩

/-- The statement of a written one. -/
def Statement.ofForm (s : Source.Statement) : Statement :=
  ⟨s.target.map fun (name, _) => String.ofList name, .ofForm s.call⟩

/-- The statements of a written program. -/
def statementsOf (p : Source.Program) : List Statement :=
  p.statements.map fun (s, _) => .ofForm s

/-! ## Repeated keys -/

/-- A named argument whose key an earlier argument of the command has already. -/
structure Duplicate where
  key : String
  command : String
  location : Location
  deriving DecidableEq

/-- The repeated keys among placed arguments, given the keys before them. -/
def duplicatesAmong (command : String) (seen : List (List Char)) :
    List (Location × Source.Argument) → List Duplicate
  | [] => []
  | (l, a) :: arguments =>
    match a.key with
    | none => duplicatesAmong command seen arguments
    | some key =>
      let later := duplicatesAmong command (key :: seen) arguments
      if seen.contains key then ⟨String.ofList key, command, l⟩ :: later else later

/-- The repeated keys of a program, in the order of the text. -/
def duplicatesOf (p : Source.Program) : List Duplicate :=
  p.places.flatMap fun (l, s) =>
    duplicatesAmong (String.ofList s.call.name) [] (s.call.places (s.callLocation l))

/-! ## Parsing -/

/-- The statements of a source text, in order. -/
def parse (source : String) : Except SyntaxError (List Statement) :=
  (Source.Program.ofSource source).map statementsOf

/-! ## Notices -/

/-- The record of a repeated key. -/
def Duplicate.record (d : Duplicate) : Log.Record :=
  ⟨Log.parserLogger, .debug,
    s!"Duplicate argument '{d.key}' in ({d.command} ...) at line {d.location.line}, column {d.location.column}"⟩

/-- The record of a number of statements. -/
def parsed (logger : String) (count : Nat) : Log.Record :=
  ⟨logger, .debug, s!"Parsed {count} statement(s)"⟩

/-- The records of parsing a source text. -/
def notices (source : String) : List Log.Record :=
  if source = "" then []
  else
    match Source.Program.ofSource source with
    | .error _ => []
    | .ok p =>
      (duplicatesOf p).map Duplicate.record ++ [parsed Log.parserLogger p.statements.length]

end Runbook.Script
