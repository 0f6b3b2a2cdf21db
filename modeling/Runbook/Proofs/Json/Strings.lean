/-
  Strings of documents, written and read back.

  * `readUnit?_hexDigits` and `readCodePoint?_escapeUnits`: numeric escapes are read
    as the character that they stand for;
  * `readString?_escapeChar`: so is everything that a character is written as;
  * `readString?_append`: **a written string is read back, whatever follows it**;
  * `escapeString_inj`: so two written strings differ where the strings do;
  * `escapedUnits_inj`: and two written texts where their 16-bit units do;
  * `Style.Shows`: what a style tells of texts.
-/
import Runbook.Json.Printer
import Runbook.Json.Reader

namespace Runbook.Json

open Text (hexDigit hexDigits)

/-! ## Numeric escapes -/

theorem hexValue?_hexDigit : ∀ n < 16, hexValue? (hexDigit n) = some n := by decide

theorem readUnit?_hexDigits {n : Nat} (h : n < 0x10000) (rest : List Char) :
    readUnit? (hexDigits 4 n ++ rest) = some (n, rest) := by
  have hdigit (k : Nat) : hexValue? (hexDigit (k % 16)) = some (k % 16) :=
    hexValue?_hexDigit _ (Nat.mod_lt _ (by decide))
  have hvalue : ((n / 16 / 16 / 16 % 16 * 16 + n / 16 / 16 % 16) * 16 + n / 16 % 16) * 16 + n % 16 =
      n := by omega
  simp only [hexDigits, List.nil_append, List.cons_append, readUnit?, hdigit,
    Option.bind_eq_bind, Option.bind_some, hvalue]

theorem toNat_cases (c : Char) :
    c.toNat < 0xD800 ∨ 0xDFFF < c.toNat ∧ c.toNat < 0x110000 := c.valid

theorem readCodePoint?_unit {c : Char} (h : c.toNat < 0x10000) (rest : List Char) :
    readCodePoint? (hexDigits 4 c.toNat ++ rest) = some (c, rest) := by
  have hc := toNat_cases c
  have hhigh : ¬ (0xD800 ≤ c.toNat ∧ c.toNat < 0xDC00) := by omega
  have hlow : ¬ (0xDC00 ≤ c.toNat ∧ c.toNat < 0xE000) := by omega
  simp [readCodePoint?, readUnit?_hexDigits h, hhigh, hlow]

theorem readCodePoint?_pair {c : Char} (high low : Nat) (hh : 0xD800 ≤ high ∧ high < 0xDC00)
    (hl : 0xDC00 ≤ low ∧ low < 0xE000)
    (hc : 0x10000 + (high - 0xD800) * 0x400 + (low - 0xDC00) = c.toNat) (rest : List Char) :
    readCodePoint? (hexDigits 4 high ++ '\\' :: 'u' :: (hexDigits 4 low ++ rest)) =
      some (c, rest) := by
  have hhigh : high < 0x10000 := by omega
  have hlow : low < 0x10000 := by omega
  rw [readCodePoint?, readUnit?_hexDigits hhigh]
  simp only [Option.bind_eq_bind, Option.bind_some, hh, and_self, if_true, dropWord?,
    readUnit?_hexDigits hlow, hl, hc, Char.ofNat_toNat]

theorem readCodePoint?_escapeUnits (c : Char) (rest : List Char) :
    ∃ cs, escapeUnits c ++ rest = '\\' :: 'u' :: cs ∧ readCodePoint? cs = some (c, rest) := by
  have hc := toNat_cases c
  unfold escapeUnits Text.units
  by_cases h : c.toNat < 0x10000
  · rw [if_pos h, List.flatMap_singleton]
    exact ⟨_, List.cons_append, readCodePoint?_unit h rest⟩
  · rw [if_neg h]
    refine ⟨_, ?_, readCodePoint?_pair (0xD800 + (c.toNat - 0x10000) / 0x400)
      (0xDC00 + (c.toNat - 0x10000) % 0x400) (by omega) (by omega) (by omega) rest⟩
    simp [escapeUnit]

/-! ## Characters and strings -/

theorem readString?_letter {l c : Char} (h : unescapeLetter? l = some c) (fuel : Nat)
    (rest : List Char) : readString? (fuel + 1) ('\\' :: l :: rest) =
      (readString? fuel rest).map fun p => (c :: p.1, p.2) := by
  have hu : l ≠ 'u' := by rintro rfl; cases h
  cases hr : readString? fuel rest <;> simp [readString?, h, hr]

/-- What a character is written as is read as that character. -/
theorem readString?_escapeChar (ascii : Bool) (c : Char) (fuel : Nat) (rest : List Char) :
    readString? (fuel + 1) (escapeChar ascii c ++ rest) =
      (readString? fuel rest).map fun p => (c :: p.1, p.2) := by
  unfold escapeChar
  by_cases hquote : c = '"' ∨ c = '\\'
  · rw [if_pos hquote]
    rcases hquote with rfl | rfl <;> exact readString?_letter rfl fuel rest
  rw [if_neg hquote]
  -- the characters with letters of their own
  iterate 5
    split
    · next h => subst h; exact readString?_letter rfl fuel rest
  split
  · obtain ⟨cs, hcs, hread⟩ := readCodePoint?_escapeUnits c rest
    rw [hcs]
    cases hr : readString? fuel rest <;> simp [readString?, hread, hr]
  · next hunit =>
    obtain ⟨hq, hb⟩ := not_or.1 hquote
    obtain ⟨hcontrol, -⟩ := not_or.1 hunit
    rw [List.singleton_append]
    cases hr : readString? fuel rest <;> simp [readString?, hq, hb, hcontrol, hr]

/-- **A written string is read back**, up to its closing quote. -/
theorem readString?_append (ascii : Bool) (rest : List Char) : ∀ (s : List Char) (fuel : Nat),
    s.length < fuel →
      readString? fuel (s.flatMap (escapeChar ascii) ++ '"' :: rest) = some (s, rest)
  | s, 0, h => absurd h (Nat.not_lt_zero _)
  | [], fuel + 1, _ => by simp [readString?]
  | c :: s, fuel + 1, h => by
    rw [List.flatMap_cons, List.append_assoc, readString?_escapeChar,
      readString?_append ascii rest s fuel (Nat.lt_of_succ_lt_succ h)]
    rfl

/-- **Two escaped strings with a quote after them are the same text only if the strings are.** -/
theorem escapeString_inj {ascii : Bool} {s t : String} {r r' : List Char}
    (h : escapeString ascii s ++ '"' :: r = escapeString ascii t ++ '"' :: r') : s = t ∧ r = r' := by
  have hread := congrArg (readString? (s.toList.length + t.toList.length + 1)) h
  rw [escapeString, escapeString, readString?_append ascii r _ _ (by omega),
    readString?_append ascii r' _ _ (by omega)] at hread
  obtain ⟨hs, hr⟩ := Prod.mk.inj (Option.some.inj hread)
  exact ⟨String.toList_inj.1 hs, hr⟩

/-! ## Texts with surrogates -/

open Text (CodePoint)

/-- The 16-bit units of a text. -/
def unitsOf (s : List CodePoint) : List Nat := s.flatMap fun p => Text.units p.val

/-- A unit of a text, in ASCII. -/
def escapedUnit (u : Nat) : List Char := if h : u < 0x110000 then escapePoint ⟨u, h⟩ else []

/-- Reads a unit of a text. -/
def readEscapedUnit? : List Char → Option (Nat × List Char)
  | '\\' :: 'u' :: cs => readUnit? cs
  | '\\' :: c :: cs => (unescapeLetter? c).map fun c => (c.toNat, cs)
  | c :: cs => some (c.toNat, cs)
  | [] => none

theorem char?_eq_some {p : CodePoint} {c : Char} (h : p.char? = some c) : c.toNat = p.val := by
  by_cases hvalid : p.val.isValidChar
  · rw [CodePoint.char?, dif_pos hvalid] at h
    cases h
    rfl
  · rw [CodePoint.char?, dif_neg hvalid] at h
    cases h

theorem lt_of_mem_units {n u : Nat} (hn : n < 0x110000) (hu : u ∈ Text.units n) : u < 0x10000 := by
  unfold Text.units at hu
  split at hu
  · next h => cases List.mem_singleton.1 hu; exact h
  · simp only [List.mem_cons, List.not_mem_nil, or_false] at hu
    omega

theorem lt_of_mem_unitsOf {s : List CodePoint} : ∀ u ∈ unitsOf s, u < 0x10000 := by
  intro u hu
  obtain ⟨p, -, hp⟩ := List.mem_flatMap.1 hu
  exact lt_of_mem_units p.isLt hp

/-- A surrogate is written as its number. -/
theorem escapedUnit_of_surrogate {u : Nat} (hl : 0xD800 ≤ u) (hu : u < 0xE000) :
    escapedUnit u = escapeUnit u := by
  have hlt : u < 0x110000 := by omega
  have hchar : CodePoint.char? ⟨u, hlt⟩ = none := by
    have hvalid : ¬ u.isValidChar := by
      unfold Nat.isValidChar
      omega
    rw [CodePoint.char?, dif_neg hvalid]
  rw [escapedUnit, dif_pos hlt, escapePoint, hchar]

/-- A character beyond the first plane is written as its units. -/
theorem escapeChar_of_large {c : Char} (h : 0x10000 ≤ c.toNat) :
    escapeChar true c = escapeUnits c := by
  have hne (d : Char) (hd : d.toNat < 0x10000) : c ≠ d := by
    rintro rfl
    omega
  have hlarge : c.toNat < 0x20 ∨ true = true ∧ 0x7E < c.toNat := .inr ⟨rfl, by omega⟩
  rw [escapeChar, if_neg (not_or.2 ⟨hne _ (by decide), hne _ (by decide)⟩),
    if_neg (hne _ (by decide)), if_neg (hne _ (by decide)), if_neg (hne _ (by decide)),
    if_neg (hne _ (by decide)), if_neg (hne _ (by decide)), if_pos hlarge]

/-- A code point is written as its units are. -/
theorem escapePoint_eq (p : CodePoint) :
    escapePoint p = (Text.units p.val).flatMap escapedUnit := by
  have hp := p.isLt
  unfold Text.units
  by_cases h : p.val < 0x10000
  · rw [if_pos h, List.flatMap_singleton, escapedUnit, dif_pos hp]
  · -- a pair of surrogates, and no character is written so in another way
    have hvalid : p.val.isValidChar := .inr ⟨by omega, hp⟩
    have hchar : p.char? = some (Char.ofNatAux p.val hvalid) := by
      rw [CodePoint.char?, dif_pos hvalid]
    have hnat : (Char.ofNatAux p.val hvalid).toNat = p.val := char?_eq_some hchar
    have hescape : escapePoint p = escapeUnits (Char.ofNatAux p.val hvalid) := by
      rw [escapePoint, hchar]
      exact escapeChar_of_large (by omega)
    rw [hescape, escapeUnits, hnat, Text.units, if_neg h]
    simp only [List.flatMap_cons, List.flatMap_nil, List.append_nil]
    rw [escapedUnit_of_surrogate (by omega) (by omega), escapedUnit_of_surrogate (by omega) (by omega)]

/-- A text is written as its units are. -/
theorem flatMap_escapePoint (s : List CodePoint) :
    s.flatMap escapePoint = (unitsOf s).flatMap escapedUnit := by
  rw [unitsOf, List.flatMap_assoc]
  exact congrArg s.flatMap (funext escapePoint_eq)

/-- A unit that is written is read back, whatever follows it. -/
theorem readEscapedUnit?_append {u : Nat} (hu : u < 0x10000) (rest : List Char) :
    readEscapedUnit? (escapedUnit u ++ rest) = some (u, rest) := by
  have hnumber : readEscapedUnit? (escapeUnit u ++ rest) = some (u, rest) :=
    readUnit?_hexDigits hu rest
  by_cases hsurrogate : 0xD800 ≤ u ∧ u < 0xE000
  · rwa [escapedUnit_of_surrogate hsurrogate.1 hsurrogate.2]
  have hlt : u < 0x110000 := by omega
  have hvalid : u.isValidChar := by
    unfold Nat.isValidChar
    omega
  have hchar : CodePoint.char? ⟨u, hlt⟩ = some (Char.ofNatAux u hvalid) := by
    rw [CodePoint.char?, dif_pos hvalid]
  have hnat : (Char.ofNatAux u hvalid).toNat = u := char?_eq_some hchar
  generalize Char.ofNatAux u hvalid = c at hchar hnat
  rw [escapedUnit, dif_pos hlt, escapePoint, hchar]
  dsimp only
  subst hnat
  unfold escapeChar
  split
  · next hquote => rcases hquote with rfl | rfl <;> rfl
  next hquote =>
    -- the characters with letters of their own
    iterate 5
      split
      · next h => subst h; rfl
    split
    · rw [escapeUnits, Text.units, if_pos hu, List.flatMap_singleton]
      exact hnumber
    · have hne : c ≠ '\\' := fun h => hquote (.inr h)
      rw [List.singleton_append]
      unfold readEscapedUnit?
      split <;> first | rfl | simp_all

theorem escapedUnit_append_ne {u : Nat} (hu : u < 0x10000) (rest r : List Char) :
    escapedUnit u ++ rest ≠ '"' :: r := by
  intro h
  have hread := readEscapedUnit?_append hu rest
  rw [h] at hread
  -- only the quote is read there, which is written with a backslash
  cases hread
  exact absurd (List.cons.inj h).1 (by decide)

/-- **Written units with a quote after them are the same text only if the units are.** -/
theorem escapedUnits_inj {r r' : List Char} : ∀ {us vs : List Nat},
    (∀ u ∈ us, u < 0x10000) → (∀ v ∈ vs, v < 0x10000) →
      us.flatMap escapedUnit ++ '"' :: r = vs.flatMap escapedUnit ++ '"' :: r' → us = vs ∧ r = r'
  | [], [], _, _, h => ⟨rfl, (List.cons.inj h).2⟩
  | [], v :: vs, _, hv, h => by
    rw [List.flatMap_cons, List.append_assoc] at h
    exact absurd h.symm (escapedUnit_append_ne (hv v List.mem_cons_self) _ _)
  | u :: us, [], hu, _, h => by
    rw [List.flatMap_cons, List.append_assoc] at h
    exact absurd h (escapedUnit_append_ne (hu u List.mem_cons_self) _ _)
  | u :: us, v :: vs, hu, hv, h => by
    rw [List.flatMap_cons, List.flatMap_cons, List.append_assoc, List.append_assoc] at h
    have hread := congrArg readEscapedUnit? h
    rw [readEscapedUnit?_append (hu u List.mem_cons_self),
      readEscapedUnit?_append (hv v List.mem_cons_self)] at hread
    obtain ⟨rfl, hrest⟩ := Prod.mk.inj (Option.some.inj hread)
    obtain ⟨rfl, hr⟩ :=
      escapedUnits_inj (fun w hw => hu w (.tail _ hw)) (fun w hw => hv w (.tail _ hw)) hrest
    exact ⟨rfl, hr⟩

/-! ## Styles -/

/-- A style spells texts alike if they look alike, and only then: where a written text ends shows in
it, and what it looks like. -/
structure Style.Shows {τ ν : Type} (style : Style τ) (view : τ → ν) : Prop where
  told {s t : τ} {r r' : List Char} :
    style.spell s ++ '"' :: r = style.spell t ++ '"' :: r' → view s = view t ∧ r = r'
  alike {s t : τ} : view s = view t → style.spell s = style.spell t

theorem writeText_append {τ : Type} (style : Style τ) (s : τ) (rest : List Char) :
    writeText style s ++ rest = '"' :: (style.spell s ++ '"' :: rest) := by
  simp [writeText]

theorem Style.Shows.writeText_append_inj {τ ν : Type} {style : Style τ} {view : τ → ν}
    (hv : style.Shows view) {s t : τ} {r r' : List Char}
    (h : writeText style s ++ r = writeText style t ++ r') : view s = view t ∧ r = r' := by
  rw [writeText_append, writeText_append] at h
  exact hv.told (List.cons.inj h).2

/-- Strings are told. -/
theorem shows_id {style : Style} {ascii : Bool} (h : style.spell = escapeString ascii) :
    style.Shows id where
  told heq := by
    rw [h] at heq
    exact escapeString_inj heq
  alike hst := congrArg style.spell hst

/-- **Of texts with surrogates the units are told.** -/
theorem shows_unitsOf : (Style.compact : Style (List CodePoint)).Shows unitsOf where
  told {s t r r'} heq := by
    have heq : s.flatMap escapePoint ++ '"' :: r = t.flatMap escapePoint ++ '"' :: r' := heq
    rw [flatMap_escapePoint, flatMap_escapePoint] at heq
    exact escapedUnits_inj lt_of_mem_unitsOf lt_of_mem_unitsOf heq
  alike {s t} hst := by
    show s.flatMap escapePoint = t.flatMap escapePoint
    rw [flatMap_escapePoint, flatMap_escapePoint, hst]

end Runbook.Json
