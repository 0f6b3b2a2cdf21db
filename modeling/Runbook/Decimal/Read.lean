/-
  Decimal texts read as doubles.

  A decimal text is a sign, digits with a point, and an exponent; an underscore
  may stand between two digits, and `inf`, `infinity` and `nan` are read in any
  case.  The digits may be those of any script, and white space may stand around
  them.  The double is the nearest to the decimal.
-/
import Runbook.Text.Basic

namespace Runbook.Decimal

/-- The number that a list of decimal digits writes. -/
def digitsValue (cs : List Char) : Nat := cs.foldl (fun n c => 10 * n + (c.toNat - 48)) 0

/-- The double nearest to `digits * 10 ^ exponent`.  Far outside the range of the doubles the
answer does not depend on the exponent's size. -/
def nearest (digits : Nat) (exponent : Int) : Float :=
  let size : Int := (Nat.toDigits 10 digits).length
  if digits = 0 ∨ exponent + size < -400 then 0.0
  else if 400 < exponent + size then 1.0 / 0.0
  else if exponent < 0 then Float.ofScientific digits true exponent.natAbs
  else Float.ofScientific digits false exponent.natAbs

/-- Reads an exponent: an optional sign and digits. -/
def readExponent (cs : List Char) : Option Int :=
  let (negative, ds) := match cs with
    | '-' :: ds => (true, ds)
    | '+' :: ds => (false, ds)
    | ds => (false, ds)
  if ds.isEmpty || !ds.all Char.isDigit then none
  else some (if negative then -(digitsValue ds : Int) else digitsValue ds)

/-- Reads an unsigned decimal. -/
def readUnsigned (cs : List Char) : Option Float :=
  let whole := cs.takeWhile Char.isDigit
  let rest := cs.dropWhile Char.isDigit
  let (fraction, rest) := match rest with
    | '.' :: cs => (cs.takeWhile Char.isDigit, cs.dropWhile Char.isDigit)
    | cs => ([], cs)
  if whole.isEmpty && fraction.isEmpty then none
  else
    let exponent := match rest with
      | [] => some 0
      | 'e' :: cs | 'E' :: cs => readExponent cs
      | _ => none
    exponent.map fun e => nearest (digitsValue (whole ++ fraction)) (e - fraction.length)

/-- Drops every underscore that stands between two digits. -/
def withoutSeparators : List Char → List Char
  | c :: '_' :: d :: cs =>
    if c.isDigit && d.isDigit then c :: withoutSeparators (d :: cs)
    else c :: '_' :: withoutSeparators (d :: cs)
  | c :: cs => c :: withoutSeparators cs
  | [] => []

/-- Reads a double from a decimal text. -/
def read? (s : String) : Option Float :=
  let (negative, cs) := match withoutSeparators (Text.asciiDigits (Text.trim s.toList)) with
    | '-' :: cs => (true, cs)
    | '+' :: cs => (false, cs)
    | cs => (false, cs)
  let word := String.ofList (cs.map Char.toLower)
  let size :=
    if word = "inf" ∨ word = "infinity" then some (1.0 / 0.0)
    else if word = "nan" then some (0.0 / 0.0)
    else readUnsigned cs
  size.map fun x => if negative then -x else x

end Runbook.Decimal
