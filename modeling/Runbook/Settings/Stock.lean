/-
  A library for the settings.

  A field takes the value that a caller gives for it, else that of its process
  variable, else that of its variable in a file.  Names are compared without regard
  to case: the first that a caller gives counts, and the last variable.  The
  assignments of a file are put into the process variables unless one of these
  forbids it.
-/
import Runbook.Settings.EnvFile
import Runbook.Settings.Sources

namespace Runbook.Settings

namespace Stock

/-! ## Where values are found -/

/-- The value that is given for a field. -/
def given (arguments : List (String × Value)) (environment : Environment)
    (file : Table String (Option String)) (field : Field) : Option Value :=
  match firstNamed? arguments field.key with
  | some v => some v
  | none =>
    match lastNamed? environment.entries field.word with
    | some s => some (.str s)
    | none => ((lastNamed? file.entries field.word).bind id).map .str

/-! ## Loading files -/

/-- The variable that forbids to put the assignments of files into the process variables. -/
def forbiddingVariable : String := "PYTHON_DOTENV_DISABLED"

/-- The values with which it does. -/
def forbiddingWords : List String := ["1", "true", "t", "yes", "y"]

/-- Whether assignments of files may not be put into the process variables. -/
def forbidsFiles (environment : Environment) : Bool :=
  match environment.find? forbiddingVariable with
  | none => false
  | some s => Text.foldedWord s ∈ forbiddingWords

/-- Puts the assignments of a file into the process variables. -/
def load (environment : Environment) (bytes : List UInt8) : Environment × Except LoadError Unit :=
  if forbidsFiles environment then (environment, .ok ())
  else
    match decodeText bytes with
    | .error e => (environment, .error (.undecodable e))
    | .ok text =>
      let (environment, result) := EnvFile.load environment text
      (environment, result.mapError .unassignable)

/-! ## Reading values -/

/-- A text, or bytes that encode one. -/
def readText : Value → Except Mismatch String
  | .str s => .ok s
  | .bytes bytes =>
    match Text.Utf8.decode bytes with
    | .ok cs => .ok (String.ofList cs)
    | .error _ => .error .undecodable
  | _ => .error .notText

/-- A path, or nothing. -/
def readPath : Value → Except Mismatch (Option String)
  | .null => .ok none
  | .str s => .ok (some (normalizePath s))
  | _ => .error .notAPath

/-- The texts that mean true and false, in small letters. -/
def booleanWords : List String × List String :=
  (["1", "true", "t", "yes", "y", "on"], ["0", "false", "f", "no", "n", "off"])

/-- A truth value from a text, in any case. -/
def booleanOfText (s : String) : Except Mismatch Bool :=
  let word := String.ofList (s.toList.map Char.toLower)
  if word ∈ booleanWords.1 then .ok true
  else if word ∈ booleanWords.2 then .ok false
  else .error .notBooleanText

/-- Whether a number has a word of 64 bits. -/
def fitsWord (i : Int) : Bool := -Nat.pow 2 63 ≤ i && i < Nat.pow 2 63

/-- Whether a double is whole and lies strictly between the bounds of the words of 64 bits. -/
def isWholeWord (x : Float) : Bool :=
  let bound : Float := Float.ofNat (Nat.pow 2 63)
  x.floor == x && -bound < x && x < bound

/-- A truth value: itself, a text that means one or the bytes of such a text, or the number zero or
one.  Numbers that no word holds and fractions mean nothing at all. -/
def readBoolean : Value → Except Mismatch Bool
  | .bool b => .ok b
  | .str s => booleanOfText s
  | .bytes bytes =>
    match Text.Utf8.decode bytes with
    | .ok cs => booleanOfText (String.ofList cs)
    | .error _ => .error .notBooleanText
  | .int i =>
    if i = 0 then .ok false
    else if i = 1 then .ok true
    else if fitsWord i then .error .notBooleanText
    else .error .notBoolean
  | .float x =>
    if x == 0.0 then .ok false
    else if x == 1.0 then .ok true
    else if isWholeWord x then .error .notBooleanText
    else .error .notBoolean
  | _ => .error .notBoolean

end Stock

/-- The library. -/
def Library.stock : Library where
  assignments := EnvFile.assignments
  load := Stock.load
  given arguments environment text :=
    Stock.given arguments environment (EnvFile.resolve environment (EnvFile.assignments text))
  readText := Stock.readText
  readPath := Stock.readPath
  readBoolean := Stock.readBoolean

end Runbook.Settings
