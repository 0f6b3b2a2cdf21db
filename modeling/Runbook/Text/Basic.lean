/-
  Texts as lists of characters.

  * white space (`isSpace`) and decimal digits (`isDecimalDigit`), as version 14 of
    the character standard has them;
  * `unifyLineEnds` leaves line feeds only where a text has line feeds, carriage
    returns, or both in a row at the ends of its lines;
  * `splitDelimited` finds the end of a text between quotes, which may hold its own
    quote after a backslash;
  * `replaceAll` puts one text in the place of another.
-/

namespace Runbook.Text

/-! ## White space -/

/-- The ranges of white space outside ASCII, both ends included. -/
def wideBlanks : List (Nat × Nat) :=
  [(0x85, 0x85), (0xA0, 0xA0), (0x1680, 0x1680), (0x2000, 0x200A), (0x2028, 0x2029),
    (0x202F, 0x202F), (0x205F, 0x205F), (0x3000, 0x3000)]

/-- White space of any kind: blanks, line ends and separators. -/
def isSpace (c : Char) : Bool :=
  let n := c.toNat
  n = 0x20 || (0x09 ≤ n && n ≤ 0x0D) || (0x1C ≤ n && n ≤ 0x1F) ||
    wideBlanks.any fun (lo, hi) => lo ≤ n && n ≤ hi

/-- Everything that Char.isWhitespace accepts is white space. -/
theorem isSpace_of_isWhitespace {c : Char} (h : c.isWhitespace = true) : isSpace c = true := by
  simp only [Char.isWhitespace, Bool.or_eq_true, decide_eq_true_eq] at h
  rcases h with ((rfl | rfl) | rfl) | rfl <;> rfl

/-- White space within a line. -/
def isInlineSpace (c : Char) : Bool := isSpace c && c ≠ '\r' && c ≠ '\n'

/-- A text without the white space at its end. -/
def trimEnd (cs : List Char) : List Char := (cs.reverse.dropWhile isSpace).reverse

/-- A text without the white space around it. -/
def trim (cs : List Char) : List Char := trimEnd (cs.dropWhile isSpace)

/-! ## Decimal digits

The digits of a script stand in a row, from its zero to its nine. -/

/-- The zeros of all scripts. -/
def zeros : List Nat := [
    0x30, 0x660, 0x6F0, 0x7C0, 0x966, 0x9E6, 0xA66, 0xAE6, 0xB66, 0xBE6, 0xC66, 0xCE6, 0xD66,
    0xDE6, 0xE50, 0xED0, 0xF20, 0x1040, 0x1090, 0x17E0, 0x1810, 0x1946, 0x19D0, 0x1A80, 0x1A90,
    0x1B50, 0x1BB0, 0x1C40, 0x1C50, 0xA620, 0xA8D0, 0xA900, 0xA9D0, 0xA9F0, 0xAA50, 0xABF0,
    0xFF10, 0x104A0, 0x10D30, 0x11066, 0x110F0, 0x11136, 0x111D0, 0x112F0, 0x11450, 0x114D0,
    0x11650, 0x116C0, 0x11730, 0x118E0, 0x11950, 0x11C50, 0x11D50, 0x11DA0, 0x16A60, 0x16AC0,
    0x16B50, 0x1D7CE, 0x1D7D8, 0x1D7E2, 0x1D7EC, 0x1D7F6, 0x1E140, 0x1E2F0, 0x1E950, 0x1FBF0
  ]

/-- The value of a digit of any script. -/
def digitValue? (c : Char) : Option Nat :=
  (zeros.find? fun z => z ≤ c.toNat && c.toNat ≤ z + 9).map (c.toNat - ·)

/-- Whether a character is a digit of any script. -/
def isDecimalDigit (c : Char) : Bool := (digitValue? c).isSome

/-- A text with the digits of all scripts in ASCII. -/
def asciiDigits (cs : List Char) : List Char :=
  cs.map fun c => ((digitValue? c).map Nat.digitChar).getD c

/-- Everything that Char.isDigit accepts is a digit. -/
theorem isDecimalDigit_of_isDigit {c : Char} (h : c.isDigit = true) : isDecimalDigit c = true := by
  simp only [Char.isDigit, Bool.and_eq_true, decide_eq_true_eq] at h
  have h₁ : 0x30 ≤ c.toNat := h.1
  have h₂ : c.toNat ≤ 0x30 + 9 := h.2
  simp [isDecimalDigit, digitValue?, zeros, h₁, h₂]

/-! ## Line ends -/

/-- A text whose lines all end in a line feed. -/
def unifyLineEnds : List Char → List Char
  | '\r' :: '\n' :: cs => '\n' :: unifyLineEnds cs
  | c :: cs => (if c = '\r' then '\n' else c) :: unifyLineEnds cs
  | [] => []

/-- No carriage return is left. -/
theorem not_mem_unifyLineEnds (cs : List Char) : '\r' ∉ unifyLineEnds cs := by
  fun_induction unifyLineEnds cs with
  | case1 cs ih => simp [ih]
  | case2 c cs _ ih => by_cases h : c = '\r' <;> simp [h, ih, eq_comm]
  | case3 => simp

/-- A text without carriage returns stays as it is. -/
theorem unifyLineEnds_eq_self {cs : List Char} (h : '\r' ∉ cs) : unifyLineEnds cs = cs := by
  fun_induction unifyLineEnds cs with
  | case1 cs => simp at h
  | case2 c cs _ ih =>
    obtain ⟨hc, hcs⟩ := not_or.1 (mt List.mem_cons.2 h)
    rw [if_neg (Ne.symm hc), ih hcs]
  | case3 => rfl

/-! ## Texts between quotes

A backslash pairs with whatever character follows it, so that a text ends at the first quote that no
backslash pairs with. -/

/-- Splits after an opening quote: the body up to the first quote that no backslash pairs with, and
the rest after that quote. -/
def splitDelimited (quote : Char) : List Char → Option (List Char × List Char)
  | [] => none
  | '\\' :: c :: cs => (splitDelimited quote cs).map fun (body, rest) => ('\\' :: c :: body, rest)
  | c :: cs =>
    if c = quote then some ([], cs)
    else (splitDelimited quote cs).map fun (body, rest) => (c :: body, rest)

theorem splitDelimited_append {quote : Char} {cs body rest : List Char}
    (h : splitDelimited quote cs = some (body, rest)) : body ++ quote :: rest = cs := by
  fun_induction splitDelimited quote cs generalizing body rest with
  | case1 => cases h
  | case2 c cs ih =>
    obtain ⟨⟨b, r⟩, hb, e⟩ := Option.map_eq_some_iff.1 h
    cases e; simpa using ih hb
  | case3 cs _ => cases h; rfl
  | case4 c cs _ _ ih =>
    obtain ⟨⟨b, r⟩, hb, e⟩ := Option.map_eq_some_iff.1 h
    cases e; simpa using ih hb

/-! ## Replacement -/

/-- A text with every `old` in it replaced by `new`, from the left; the flag counts the characters
of an `old` that are still to be passed over. -/
def replaceFrom (old new : List Char) : (passed : Nat) → List Char → List Char
  | _, [] => []
  | passed + 1, _ :: cs => replaceFrom old new passed cs
  | 0, c :: cs =>
    if old.isPrefixOf (c :: cs) then new ++ replaceFrom old new (old.length - 1) cs
    else c :: replaceFrom old new 0 cs

/-- A text with every `old` in it, which is not empty, replaced by `new`. -/
def replaceAll (old new : String) (s : String) : String :=
  String.ofList (replaceFrom old.toList new.toList 0 s.toList)

end Runbook.Text
