/-
  Environment files.

  A file assigns values to names, one assignment after another: an optional
  `export`, a name, an equals sign and a value, bare or in quotes.  A name
  without an equals sign gets no value.  Comments begin with `#`.  What is not an
  assignment is skipped to the end of its line.  `assignments` lists the
  assignments of a file; `resolve` fills in the values of `$\{name}` in them, and
  `load` puts them into the process variables.
-/
import Runbook.Settings.Environment
import Runbook.Text.Basic

namespace Runbook.Settings

namespace EnvFile

open Text (isSpace isInlineSpace)

/-! ## Values -/

/-- The character that an escape in single quotes stands for. -/
def singleEscape? : Char → Option Char
  | '\\' => some '\\'
  | '\'' => some '\''
  | _ => none

/-- The character that an escape in double quotes stands for. -/
def doubleEscape? : Char → Option Char
  | '\\' => some '\\'
  | '\'' => some '\''
  | '"' => some '"'
  | 'a' => some '\x07'
  | 'b' => some '\x08'
  | 'f' => some '\x0c'
  | 'n' => some '\n'
  | 'r' => some '\r'
  | 't' => some '\t'
  | 'v' => some '\x0b'
  | _ => none

/-- Replaces escapes by what they stand for; a backslash before any other character stays. -/
def unescape (escape? : Char → Option Char) : List Char → List Char
  | '\\' :: c :: cs =>
    match escape? c with
    | some d => d :: unescape escape? cs
    | none => '\\' :: unescape escape? (c :: cs)
  | c :: cs => c :: unescape escape? cs
  | [] => []

/-- A bare value up to its comment, which begins with a `#` after white space.  The flag says whether
white space came just before. -/
def withoutComment (afterSpace : Bool) : List Char → List Char
  | [] => []
  | c :: cs => if afterSpace && c = '#' then [] else c :: withoutComment (isSpace c) cs

/-- Whether a character ends a line. -/
def isLineEnd (c : Char) : Bool := c = '\r' || c = '\n'

/-- Reads a value; fails on a quote that is not closed.  The flag says whether white space came just
before. -/
def readValue (afterSpace : Bool) : List Char → Option (List Char × List Char)
  | '\'' :: cs =>
    (Text.splitDelimited '\'' cs).map fun (body, rest) => (unescape singleEscape? body, rest)
  | '"' :: cs =>
    (Text.splitDelimited '"' cs).map fun (body, rest) => (unescape doubleEscape? body, rest)
  | cs =>
    let line := cs.takeWhile (!isLineEnd ·)
    some (Text.trimEnd (withoutComment afterSpace line), cs.dropWhile (!isLineEnd ·))

/-! ## Assignments -/

/-- An assignment.  A comment has no name, and a name alone has no value. -/
structure Entry where
  name : Option (List Char)
  value : Option (List Char)
  deriving DecidableEq

/-- Drops `export` and the white space after it. -/
def skipExport (cs : List Char) : List Char :=
  match cs with
  | 'e' :: 'x' :: 'p' :: 'o' :: 'r' :: 't' :: rest =>
    if (rest.takeWhile isInlineSpace).isEmpty then cs else rest.dropWhile isInlineSpace
  | cs => cs

/-- Whether a character can be part of a bare name. -/
def isNameChar (c : Char) : Bool := c ≠ '=' && c ≠ '#' && !isSpace c

/-- Reads a name, in single quotes or bare; a comment begins where none is. -/
def readName : List Char → Option (Option (List Char) × List Char)
  | '#' :: cs => some (none, '#' :: cs)
  | '\'' :: cs =>
    match cs.takeWhile (· ≠ '\''), cs.dropWhile (· ≠ '\'') with
    | [], _ | _, [] => none
    | name, _ :: rest => some (some name, rest)
  | cs =>
    match cs.takeWhile isNameChar with
    | [] => none
    | name => some (some name, cs.dropWhile isNameChar)

/-- Drops white space and a comment at the end of a line, and the line end. -/
def finishLine (cs : List Char) : Option (List Char) :=
  let afterComment := match cs.dropWhile isInlineSpace with
    | '#' :: cs => cs.dropWhile (!isLineEnd ·)
    | _ => cs
  match afterComment.dropWhile isInlineSpace with
  | [] => some []
  | '\r' :: '\n' :: cs => some cs
  | c :: cs => if isLineEnd c then some cs else none

/-- Drops the rest of a line. -/
def skipLine (cs : List Char) : List Char := (cs.dropWhile (!isLineEnd ·)).drop 1

/-- Reads an assignment, or skips what is none. -/
def readEntry (cs : List Char) : Option Entry × List Char :=
  let cs := skipExport (cs.dropWhile isSpace)
  match readName cs with
  | none => (none, skipLine cs)
  | some (name, cs) =>
    match cs.dropWhile isInlineSpace with
    | '=' :: cs =>
      let afterSpace := !(cs.takeWhile isInlineSpace).isEmpty
      let cs := cs.dropWhile isInlineSpace
      match readValue afterSpace cs with
      | none => (none, skipLine cs)
      | some (value, cs) =>
        match finishLine cs with
        | none => (none, skipLine cs)
        | some rest => (some ⟨name, some value⟩, rest)
    | cs =>
      match finishLine cs with
      | none => (none, skipLine cs)
      | some rest => (some ⟨name, none⟩, rest)

/-- The assignments of a text, in order.  Each takes at least one character. -/
def entries (cs : List Char) : List (String × Option String) :=
  if (cs.dropWhile isSpace).isEmpty then []
  else
    let (entry, rest) := readEntry cs
    let later := if rest.length < cs.length then entries rest else []
    match entry with
    | some ⟨some name, value⟩ => (String.ofList name, value.map String.ofList) :: later
    | _ => later
  termination_by cs.length

/-- The mark that a file may begin with, which is no part of its text. -/
def byteOrderMark : Char := '\uFEFF'

/-- The assignments of a file, in order. -/
def assignments : List Char → List (String × Option String)
  | [] => []
  | c :: cs => entries (if c = byteOrderMark then cs else c :: cs)

/-! ## References to variables -/

/-- Fills references to variables in; one without a value takes the default after `:-`, or nothing.
-/
def interpolate (lookup : String → Option String) (cs : List Char) : List Char :=
  match cs with
  | '$' :: '\x7b' :: cs =>
    let name := cs.takeWhile fun c => c ≠ '\x7d' && c ≠ ':'
    let value (fallback : List Char) : List Char :=
      ((lookup (String.ofList name)).map String.toList).getD fallback
    match h : cs.dropWhile fun c => c ≠ '\x7d' && c ≠ ':' with
    | '\x7d' :: rest =>
      have : rest.length < cs.length := by
        have hle : (cs.dropWhile fun c => c ≠ '\x7d' && c ≠ ':').length ≤ cs.length :=
          (List.dropWhile_sublist _).length_le
        rw [h] at hle
        exact hle
      value [] ++ interpolate lookup rest
    | ':' :: '-' :: more =>
      match h' : more.dropWhile (· ≠ '\x7d') with
      | _ :: rest =>
        have : rest.length < cs.length := by
          have hle : (cs.dropWhile fun c => c ≠ '\x7d' && c ≠ ':').length ≤ cs.length :=
            (List.dropWhile_sublist _).length_le
          have hle' : (more.dropWhile (· ≠ '\x7d')).length ≤ more.length :=
            (List.dropWhile_sublist _).length_le
          rw [h] at hle
          rw [h'] at hle'
          simp only [List.length_cons] at hle hle'
          omega
        value (more.takeWhile (· ≠ '\x7d')) ++ interpolate lookup rest
      | [] => '$' :: interpolate lookup ('\x7b' :: cs)
    | _ => '$' :: interpolate lookup ('\x7b' :: cs)
  | c :: cs => c :: interpolate lookup cs
  | [] => []
  termination_by cs.length

/-- The values of a file's names in an environment.  A reference sees the assignments before it,
then the environment; a name whose last assignment has no value has none. -/
def resolve (environment : Environment) (entries : List (String × Option String)) :
    Table String (Option String) :=
  entries.foldl
    (fun values (name, value) =>
      let lookup (x : String) : Option String :=
        match values.find? x with
        | some v => some (v.getD "")
        | none => environment.find? x
      values.insert name
        (value.map fun v => String.ofList (interpolate lookup v.toList)))
    .empty

/-- Sets the variables that a file gives values, up to the first that cannot be set. -/
def load (environment : Environment) (text : List Char) :
    Environment × Except VariableFault Unit :=
  environment.assign <|
    (resolve environment (assignments text)).entries.filterMap fun (name, value) =>
      value.map (name, ·)

end EnvFile

end Runbook.Settings
