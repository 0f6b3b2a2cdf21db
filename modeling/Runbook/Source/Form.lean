/-
  The written form of a program: its parts with the layout between them.

  A program is a list of statements; a statement is a command in parentheses,
  after a variable's name and a colon if its result is kept; a command has a
  name and arguments; an argument is a word, after a key and a colon if it is
  named.  A form keeps every character of the text, and `text` writes it back.
-/

namespace Runbook.Source

/-- A word: a reference to a variable, a quoted text (kept between its quotes as it is written, with
its escapes), or a bare text. -/
inductive Word where
  | reference (name : List Char)
  | quoted (body : List Char)
  | bare (text : List Char)
  deriving DecidableEq

/-- An argument, with its key if it is named. -/
structure Argument where
  key : Option (List Char)
  word : Word
  deriving DecidableEq

/-- A command in its parentheses.  Each argument comes with the layout before it. -/
structure Call where
  opening : List Char
  name : List Char
  arguments : List (List Char × Argument)
  closing : List Char
  deriving DecidableEq

/-- A statement.  The target is the variable that takes the result, with the layout after its
colon. -/
structure Statement where
  target : Option (List Char × List Char)
  call : Call
  deriving DecidableEq

/-- A program.  Each statement comes with the layout after it. -/
structure Program where
  leading : List Char
  statements : List (Statement × List Char)
  deriving DecidableEq

/-! ## Writing a form -/

/-- The text of a word. -/
def Word.text : Word → List Char
  | reference name => '$' :: name
  | quoted body => '"' :: (body ++ ['"'])
  | bare text => text

/-- The text of an argument. -/
def Argument.text (a : Argument) : List Char :=
  match a.key with
  | none => a.word.text
  | some key => key ++ ':' :: a.word.text

/-- The text of a list of arguments, each after its layout. -/
def argumentsText (arguments : List (List Char × Argument)) : List Char :=
  arguments.flatMap fun (layout, a) => layout ++ a.text

/-- The text of a command. -/
def Call.text (c : Call) : List Char :=
  '(' :: (c.opening ++ c.name ++ argumentsText c.arguments ++ c.closing ++ [')'])

/-- The text of a statement. -/
def Statement.text (s : Statement) : List Char :=
  match s.target with
  | none => s.call.text
  | some (name, layout) => name ++ ':' :: (layout ++ s.call.text)

/-- The text of a list of statements, each before its layout. -/
def statementsText (statements : List (Statement × List Char)) : List Char :=
  statements.flatMap fun (s, layout) => s.text ++ layout

/-- The text of a program. -/
def Program.text (p : Program) : List Char := p.leading ++ statementsText p.statements

/-- The text of a command is never empty. -/
theorem Call.text_ne_nil (c : Call) : c.text ≠ [] := by simp [Call.text]

/-- The text of a statement is never empty. -/
theorem Statement.text_ne_nil (s : Statement) : s.text ≠ [] := by
  unfold Statement.text
  split
  · exact s.call.text_ne_nil
  · simp

end Runbook.Source
