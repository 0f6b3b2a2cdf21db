/-
  What can be wrong with a source text, and where.

  A place in a text is told as a reader counts, in lines and columns from one:
  `Location.next` is the place after a character, `Location.after` the place
  after a text, and `Location.ofOffset` the place of an offset.

  A `Failure` is what a reader was looking for and the text that it found
  instead; in the whole source it becomes a `SyntaxError` with a location.
-/
import Runbook.Text.Quoted

namespace Runbook.Source

/-! ## Places -/

/-- A place in a text.  Only the line feed ends a line. -/
structure Location where
  line : Nat
  column : Nat
  deriving DecidableEq, Repr

namespace Location

/-- The place of the first character. -/
def start : Location := ⟨1, 1⟩

instance : Inhabited Location := ⟨start⟩

/-- The place after a character that stands at `l`. -/
def next (l : Location) (c : Char) : Location :=
  if c = '\n' then ⟨l.line + 1, 1⟩ else ⟨l.line, l.column + 1⟩

/-- The place after a text that starts at `l`. -/
def after (l : Location) (text : List Char) : Location := text.foldl next l

theorem after_append (l : Location) (s t : List Char) : l.after (s ++ t) = (l.after s).after t :=
  List.foldl_append ..

/-- The place of an offset; offsets past the end go on in the last line. -/
def ofOffset (source : List Char) (offset : Nat) : Location :=
  let l := start.after (source.take offset)
  { l with column := l.column + (offset - source.length) }

end Location

/-! ## Errors -/

/-- What was expected where reading stopped. -/
inductive Expected where
  | statement
  | colon
  | openParen
  | commandName
  | closeParen
  | argument
  | variableName
  | closingQuote
  deriving DecidableEq, Repr

/-- The expectation in words. -/
def Expected.message : Expected → String
  | statement => "Expected '(' or a variable assignment"
  | colon => "Expected ':' after variable name"
  | openParen => "Expected '('"
  | commandName => "Expected command name"
  | closeParen => "Expected ')' to close command"
  | argument => "Expected argument or ')'"
  | variableName => "Expected variable name after '$'"
  | closingQuote => "Unterminated string"

/-- A failed reading: the expectation and the text that is left at that point. -/
structure Failure where
  expected : Expected
  rest : List Char
  deriving DecidableEq

/-- Malformed source: the expectation, the character found (none at the end of the text) and the
place. -/
structure SyntaxError where
  expected : Expected
  found : Option Char
  location : Location
  deriving DecidableEq

/-- The error of a failure in a source: its offset is where the text that is left begins. -/
def Failure.locate (source : List Char) (f : Failure) : SyntaxError :=
  ⟨f.expected, f.rest.head?, .ofOffset source (source.length - f.rest.length)⟩

namespace SyntaxError

/-- What was expected and what stands there instead. -/
def detail (e : SyntaxError) : String :=
  let found := match e.found with
    | none => "end of input"
    | some c => Text.quoted (String.singleton c)
  e.expected.message ++ ", found " ++ found

/-- The whole error text. -/
def message (e : SyntaxError) : String :=
  s!"Failed to parse command: {e.detail} at line {e.location.line}, column {e.location.column}"

end SyntaxError

end Runbook.Source
