/-
  The characters of a source text, and the layout between its parts.

  A name holds `isNameChar`, the name of a command also colons
  (`isCommandChar`), and a bare word everything but blanks and the marks that
  structure a command (`isBareChar`).  Every name is a bare word
  (`isBareChar_of_isNameChar`), and no bare word holds a blank
  (`isBlank_eq_false_of_isBareChar`).

  Layout says nothing.  It is any sequence of blanks, line continuations (a backslash before a
  line end) and comments (from `//` to the end of the line).  `splitLayout`
  takes the longest layout off the front of a text; `splitLayout_append` says
  that nothing is lost.
-/

namespace Runbook.Source

/-! ## Characters -/

/-- A character of a variable's or an argument's name: an ASCII letter or digit, `_` or `-`. -/
def isNameChar (c : Char) : Bool := c.isAlphanum || c = '_' || c = '-'

/-- A character of a command's name. -/
def isCommandChar (c : Char) : Bool := isNameChar c || c = ':'

/-- The characters that separate: space, tab, carriage return and line feed. -/
def isBlank (c : Char) : Bool := c = ' ' || c = '\t' || c = '\r' || c = '\n'

/-- A character of a bare word. -/
def isBareChar (c : Char) : Bool :=
  !isBlank c && c ≠ ':' && c ≠ '(' && c ≠ ')' && c ≠ '$'

theorem isBareChar_of_isNameChar {c : Char} (h : isNameChar c = true) : isBareChar c = true := by
  have ne : ∀ d : Char, isNameChar d = false → c ≠ d := fun d hd e => by
    rw [e, hd] at h; exact Bool.noConfusion h
  simp [isBareChar, isBlank, ne ' ' rfl, ne '\t' rfl, ne '\r' rfl, ne '\n' rfl, ne ':' rfl,
    ne '(' rfl, ne ')' rfl, ne '$' rfl]

theorem isBlank_eq_false_of_isBareChar {c : Char} (h : isBareChar c = true) :
    isBlank c = false := by
  simp only [isBareChar, Bool.and_eq_true, Bool.not_eq_true'] at h
  exact h.1.1.1.1

/-! ## Layout -/

/-- The longest layout at the front of a text, and what follows it.  The flag says that the text
begins inside a comment, which lasts until the line feed. -/
def splitLayoutFrom : (inComment : Bool) → List Char → List Char × List Char
  | _, [] => ([], [])
  | true, c :: cs =>
    let (layout, rest) := splitLayoutFrom (c ≠ '\n') cs
    (c :: layout, rest)
  | false, '\\' :: '\n' :: cs =>
    let (layout, rest) := splitLayoutFrom false cs
    ('\\' :: '\n' :: layout, rest)
  | false, '\\' :: '\r' :: '\n' :: cs =>
    let (layout, rest) := splitLayoutFrom false cs
    ('\\' :: '\r' :: '\n' :: layout, rest)
  | false, '/' :: '/' :: cs =>
    let (layout, rest) := splitLayoutFrom true cs
    ('/' :: '/' :: layout, rest)
  | false, c :: cs =>
    if isBlank c then
      let (layout, rest) := splitLayoutFrom false cs
      (c :: layout, rest)
    else ([], c :: cs)

/-- The longest layout at the front of a text, and what follows it. -/
def splitLayout (cs : List Char) : List Char × List Char := splitLayoutFrom false cs

theorem splitLayoutFrom_append (b : Bool) (cs : List Char) :
    (splitLayoutFrom b cs).1 ++ (splitLayoutFrom b cs).2 = cs := by
  fun_induction splitLayoutFrom b cs <;> simp_all

/-- **Layout and rest make up the text.** -/
theorem splitLayout_append (cs : List Char) : (splitLayout cs).1 ++ (splitLayout cs).2 = cs :=
  splitLayoutFrom_append false cs

theorem length_splitLayout_le (cs : List Char) : (splitLayout cs).2.length ≤ cs.length := by
  have h := congrArg List.length (splitLayout_append cs)
  rw [List.length_append] at h
  omega

end Runbook.Source
