/-
  Reading JSON documents.

  `read?` accepts the standard grammar, and the names of the doubles without
  digits; the fields of objects keep their order.  A number with a point or an
  exponent is a double, every other a whole number.
-/
import Runbook.Decimal.Read
import Runbook.Json.Basic

namespace Runbook.Json

/-- Drops the blanks at the front. -/
def skipBlanks (cs : List Char) : List Char :=
  cs.dropWhile fun c => c = ' ' || c = '\t' || c = '\n' || c = '\r'

/-- Drops a word from the front. -/
def dropWord? : (word cs : List Char) → Option (List Char)
  | [], cs => some cs
  | _ :: _, [] => none
  | w :: ws, c :: cs => if w = c then dropWord? ws cs else none

/-! ## Strings -/

/-- The value of a hexadecimal digit. -/
def hexValue? (c : Char) : Option Nat :=
  if '0' ≤ c ∧ c ≤ '9' then some (c.toNat - 48)
  else if 'a' ≤ c ∧ c ≤ 'f' then some (c.toNat - 87)
  else if 'A' ≤ c ∧ c ≤ 'F' then some (c.toNat - 55)
  else none

/-- Reads four hexadecimal digits. -/
def readUnit? : List Char → Option (Nat × List Char)
  | a :: b :: c :: d :: cs => do
    let a ← hexValue? a
    let b ← hexValue? b
    let c ← hexValue? c
    let d ← hexValue? d
    some (((a * 16 + b) * 16 + c) * 16 + d, cs)
  | _ => none

/-- Reads a character after `\u`: one unit, or a high and a low one. -/
def readCodePoint? (cs : List Char) : Option (Char × List Char) := do
  let (high, cs) ← readUnit? cs
  if 0xD800 ≤ high ∧ high < 0xDC00 then
    let cs ← dropWord? ['\\', 'u'] cs
    let (low, cs) ← readUnit? cs
    if 0xDC00 ≤ low ∧ low < 0xE000 then
      some (Char.ofNat (0x10000 + (high - 0xD800) * 0x400 + (low - 0xDC00)), cs)
    else none
  else if 0xDC00 ≤ high ∧ high < 0xE000 then none
  else some (Char.ofNat high, cs)

/-- The character that a letter stands for after a backslash. -/
def unescapeLetter? : Char → Option Char
  | '"' => some '"'
  | '\\' => some '\\'
  | '/' => some '/'
  | 'b' => some '\x08'
  | 'f' => some '\x0c'
  | 'n' => some '\n'
  | 'r' => some '\r'
  | 't' => some '\t'
  | _ => none

/-- Reads the rest of a string, with its closing quote. -/
def readString? : (fuel : Nat) → List Char → Option (List Char × List Char)
  | 0, _ => none
  | _, [] => none
  | fuel + 1, '\\' :: 'u' :: cs => do
    let (c, cs) ← readCodePoint? cs
    let (s, cs) ← readString? fuel cs
    some (c :: s, cs)
  | fuel + 1, '\\' :: c :: cs => do
    let c ← unescapeLetter? c
    let (s, cs) ← readString? fuel cs
    some (c :: s, cs)
  | fuel + 1, c :: cs =>
    if c = '"' then some ([], cs)
    else if c.toNat < 0x20 ∨ c = '\\' then none
    else do
      let (s, cs) ← readString? fuel cs
      some (c :: s, cs)

/-! ## Numbers -/

/-- A character that can be part of a number. -/
def isNumberChar (c : Char) : Bool :=
  c.isDigit || c = '-' || c = '+' || c = '.' || c = 'e' || c = 'E'

/-- The number of a text. -/
def number? (text : List Char) : Option Json :=
  if text.any (fun c => c = '.' || c = 'e' || c = 'E') then
    (Decimal.read? (String.ofList text)).map float
  else (String.ofList text).toInt?.map int

/-! ## Documents -/

mutual

/-- Reads a document. -/
def readValue? : (fuel : Nat) → List Char → Option (Json × List Char)
  | 0, _ => none
  | fuel + 1, cs =>
    match skipBlanks cs with
    | [] => none
    | '"' :: cs => (readString? (fuel + 1) cs).map fun (s, cs) => (str (String.ofList s), cs)
    | '[' :: cs =>
      match skipBlanks cs with
      | ']' :: cs => some (arr [], cs)
      | cs => (readItems? fuel cs).map fun (items, cs) => (arr items, cs)
    | '{' :: cs =>
      match skipBlanks cs with
      | '}' :: cs => some (obj [], cs)
      | cs => (readFields? fuel cs).map fun (fields, cs) => (obj fields, cs)
    | 'n' :: cs => (dropWord? "ull".toList cs).map (null, ·)
    | 't' :: cs => (dropWord? "rue".toList cs).map (bool true, ·)
    | 'f' :: cs => (dropWord? "alse".toList cs).map (bool false, ·)
    | 'N' :: cs => (dropWord? "aN".toList cs).map (float (0.0 / 0.0), ·)
    | 'I' :: cs => (dropWord? "nfinity".toList cs).map (float (1.0 / 0.0), ·)
    | '-' :: 'I' :: cs => (dropWord? "nfinity".toList cs).map (float (-1.0 / 0.0), ·)
    | cs => (number? (cs.takeWhile isNumberChar)).map (·, cs.dropWhile isNumberChar)

/-- Reads the items of an array, at least one, and its closing bracket. -/
def readItems? : (fuel : Nat) → List Char → Option (List Json × List Char)
  | 0, _ => none
  | fuel + 1, cs => do
    let (j, cs) ← readValue? fuel cs
    match skipBlanks cs with
    | ',' :: cs =>
      let (js, cs) ← readItems? fuel cs
      some (j :: js, cs)
    | ']' :: cs => some ([j], cs)
    | _ => none

/-- Reads the fields of an object, at least one, and its closing brace. -/
def readFields? : (fuel : Nat) → List Char → Option (List (String × Json) × List Char)
  | 0, _ => none
  | fuel + 1, cs => do
    let cs ← dropWord? ['"'] (skipBlanks cs)
    let (k, cs) ← readString? (fuel + 1) cs
    let cs ← dropWord? [':'] (skipBlanks cs)
    let (j, cs) ← readValue? fuel cs
    match skipBlanks cs with
    | ',' :: cs =>
      let (fields, cs) ← readFields? fuel cs
      some ((String.ofList k, j) :: fields, cs)
    | '}' :: cs => some ([(String.ofList k, j)], cs)
    | _ => none

end

/-- Reads a document that is the whole text, blanks around it apart. -/
def read? (s : String) : Option Json := do
  let cs := s.toList
  let (j, rest) ← readValue? (2 * cs.length + 2) cs
  if (skipBlanks rest).isEmpty then some j else none

end Runbook.Json
