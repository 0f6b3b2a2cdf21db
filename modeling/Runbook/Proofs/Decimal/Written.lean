/-
  The texts of doubles.

  A double with digits is written as a `Numeral`: digits, signs, a point and an `e`,
  with a point or with an `e` and a sign.  The others have names, which no numeral is.

  * `numeral_written`: a double is written as a numeral, or by a name of its style;
  * `written_eq_written`: **two doubles that have one text in one style have one text
    in every style**, if its names are proper.
-/
import Runbook.Decimal.Written

namespace Runbook.Decimal

/-! ## Numerals -/

/-- A character of a numeral. -/
def isNumeralChar (c : Char) : Bool := c.isDigit || c = '.' || c = 'e' || c = '+' || c = '-'

/-- The text of a double with digits. -/
structure Numeral (cs : List Char) : Prop where
  chars : ∀ c ∈ cs, isNumeralChar c = true
  mark : '.' ∈ cs ∨ 'e' ∈ cs ∧ ('+' ∈ cs ∨ '-' ∈ cs)

theorem Numeral.cons_minus {cs : List Char} (h : Numeral cs) : Numeral ('-' :: cs) := by
  refine ⟨List.forall_mem_cons.2 ⟨rfl, h.chars⟩, ?_⟩
  rcases h.mark with hp | ⟨he, hs⟩
  · exact .inl (.tail _ hp)
  · exact .inr ⟨.tail _ he, hs.imp (.tail _) (.tail _)⟩

section
variable {digits : List Char}

theorem isNumeralChar_of_isDigit (h : ∀ c ∈ digits, c.isDigit = true) :
    ∀ c ∈ digits, isNumeralChar c = true := by
  intro c hc
  simp [isNumeralChar, h c hc]

theorem isDigit_zeros (n : Nat) : ∀ c ∈ zeros n, c.isDigit = true := by
  intro c hc
  rw [List.eq_of_mem_replicate hc]
  rfl

theorem isDigit_toDigits (n : Nat) : ∀ c ∈ Nat.toDigits 10 n, c.isDigit = true :=
  fun _ hc => Nat.isDigit_of_mem_toDigits (by decide) (by decide) hc

theorem isDigit_withoutTrailingZeros (h : ∀ c ∈ digits, c.isDigit = true) :
    ∀ c ∈ withoutTrailingZeros digits, c.isDigit = true := by
  intro c hc
  have hc := (List.dropWhile_sublist _).subset (List.mem_reverse.1 hc)
  exact h c (List.mem_reverse.1 hc)

theorem numeral_positional (h : ∀ c ∈ digits, c.isDigit = true) (point : Int) :
    Numeral (positional digits point) := by
  have hd := isNumeralChar_of_isDigit h
  have hz (n : Nat) := isNumeralChar_of_isDigit (isDigit_zeros n)
  have hpoint : isNumeralChar '.' = true := rfl
  have hzero : isNumeralChar '0' = true := rfl
  unfold positional
  split
  · refine ⟨?_, .inl (by simp)⟩
    simp only [List.forall_mem_cons, List.forall_mem_append]
    exact ⟨hzero, hpoint, hz _, hd⟩
  · split
    · refine ⟨?_, .inl (by simp)⟩
      simp only [List.forall_mem_cons, List.forall_mem_append]
      exact ⟨⟨hd, hz _⟩, hpoint, hzero, by simp⟩
    · refine ⟨?_, .inl (by simp)⟩
      simp only [List.forall_mem_cons, List.forall_mem_append]
      exact ⟨fun c hc => hd c (List.mem_of_mem_take hc), hpoint,
        fun c hc => hd c (List.mem_of_mem_drop hc)⟩

theorem numeral_exponential (h : ∀ c ∈ digits, c.isDigit = true) (exponent : Int) :
    Numeral (exponential digits exponent) := by
  have hd := isNumeralChar_of_isDigit h
  have hz (n : Nat) := isNumeralChar_of_isDigit (isDigit_zeros n)
  have hsize (n : Nat) := isNumeralChar_of_isDigit (isDigit_toDigits n)
  have he : isNumeralChar 'e' = true := rfl
  have hsign : isNumeralChar (if exponent < 0 then '-' else '+') = true := by split <;> rfl
  unfold exponential
  refine ⟨?_, .inr ⟨by simp, ?_⟩⟩
  · simp only [List.forall_mem_cons, List.forall_mem_append]
    refine ⟨?_, he, hsign, hz _, hsize _⟩
    split
    · next d e ds =>
      simp only [List.forall_mem_cons] at hd ⊢
      exact ⟨hd.1, rfl, hd.2⟩
    · exact hd
  · by_cases hn : exponent < 0
    · exact .inr (by simp [hn])
    · exact .inl (by simp [hn])

theorem numeral_scaled (s : Scaled) : Numeral s.written := by
  have hd := isDigit_withoutTrailingZeros (isDigit_toDigits s.digits)
  unfold Scaled.written
  dsimp only
  split
  · exact numeral_positional hd _
  · exact numeral_exponential hd _

end

/-! ## Doubles -/

/-- Names of the doubles without digits that tell these apart, and from all others. -/
structure Style.Proper (style : Style) : Prop where
  nan : ∃ c ∈ style.nan.toList, isNumeralChar c = false
  infinity : ∃ c ∈ style.infinity.toList, isNumeralChar c = false
  nan_ne : style.nan ≠ style.infinity ∧ style.nan ≠ "-" ++ style.infinity

theorem proper_display : Style.display.Proper :=
  ⟨⟨'n', by decide, rfl⟩, ⟨'i', by decide, rfl⟩, by decide⟩

theorem proper_json : Style.json.Proper :=
  ⟨⟨'N', by decide, rfl⟩, ⟨'I', by decide, rfl⟩, by decide⟩

namespace Double

theorem numeral_finite (style : Style) (negative : Bool) (mantissa : Nat) (exponent : Int) :
    Numeral ((finite negative mantissa exponent).written style).toList := by
  have hsize : Numeral (if mantissa = 0 then "0.0"
      else String.ofList (shortest mantissa exponent).written).toList := by
    split
    · exact ⟨List.all_eq_true.1 rfl, .inl (by decide)⟩
    · rw [String.toList_ofList]
      exact numeral_scaled _
  cases negative with
  | false => exact hsize
  | true => simpa [written] using hsize.cons_minus

/-- Infinities have no numerals. -/
theorem exists_mem_infinite {style : Style} (hs : style.Proper) (negative : Bool) :
    ∃ c ∈ ((infinite negative).written style).toList, isNumeralChar c = false := by
  obtain ⟨c, hc, hn⟩ := hs.infinity
  refine ⟨c, ?_, hn⟩
  cases negative with
  | false => exact hc
  | true => simp [written, hc]

theorem ne_of_numeral {s t : String} (hs : Numeral s.toList)
    (ht : ∃ c ∈ t.toList, isNumeralChar c = false) : t ≠ s := by
  rintro rfl
  obtain ⟨c, hc, hn⟩ := ht
  rw [hs.chars c hc] at hn
  cases hn

theorem infinite_inj {style : Style} {m n : Bool}
    (h : (infinite m).written style = (infinite n).written style) : m = n := by
  have hlength := congrArg String.length h
  cases m <;> cases n <;> simp [written] at hlength ⊢

/-- **A text that two doubles share in a style with proper names they share in every style.** -/
theorem written_eq_written {style : Style} (hs : style.Proper) {x y : Double}
    (h : x.written style = y.written style) (style' : Style) :
    x.written style' = y.written style' := by
  have hnan (n : Bool) : nan.written style ≠ (infinite n).written style := by
    cases n with
    | false => exact hs.nan_ne.1
    | true => exact hs.nan_ne.2
  cases x with
  | nan =>
    cases y with
    | nan => rfl
    | infinite n => exact absurd h (hnan n)
    | finite n m e => exact absurd h (ne_of_numeral (numeral_finite style n m e) hs.nan)
  | infinite n =>
    cases y with
    | nan => exact absurd h.symm (hnan n)
    | infinite n' => rw [infinite_inj h]
    | finite n' m e =>
      exact absurd h (ne_of_numeral (numeral_finite style n' m e) (exists_mem_infinite hs n))
  | finite n m e =>
    cases y with
    | nan => exact absurd h.symm (ne_of_numeral (numeral_finite style n m e) hs.nan)
    | infinite n' =>
      exact absurd h.symm (ne_of_numeral (numeral_finite style n m e) (exists_mem_infinite hs n'))
    -- Digits are written alike in every style.
    | finite n' m' e' => exact h

end Double

theorem written_eq_written_iff {s t : Style} (hs : s.Proper) (ht : t.Proper) {x y : Float} :
    written s x = written s y ↔ written t x = written t y :=
  ⟨fun h => Double.written_eq_written hs h t, fun h => Double.written_eq_written ht h s⟩

end Runbook.Decimal
