/-
  Numerals read back.

  The numeral of a double is a sign, digits, a fraction and an exponent, of which only
  the digits must be there.  A text of this shape is read: nothing in it is taken for
  white space, for a digit of another script, for a separator or for a name.

  * `unsigned_scaled`: a decimal that is not zero is written in this shape;
  * `read?_of_unsigned`: **a text of this shape is read**, with a sign as the opposite;
  * `written_finite` and `read?_written_finite`: so is the text of every double with
    digits.
-/
import Mathlib.Data.List.TakeWhile
import Runbook.Decimal.Read
import Runbook.Proofs.Decimal.Shortest
import Runbook.Proofs.Decimal.Written

namespace Runbook.Decimal

/-! ## The shape of numerals -/

/-- Digits, at least one. -/
def Digits (cs : List Char) : Prop := cs ≠ [] ∧ ∀ c ∈ cs, c.isDigit = true

/-- The digits after a point, if there is one. -/
inductive Fraction : List Char → Prop
  | none : Fraction []
  | point {digits : List Char} : (∀ c ∈ digits, c.isDigit = true) → Fraction ('.' :: digits)

/-- A sign and digits after an `e`, if there is one. -/
inductive Exponent : List Char → Prop
  | none : Exponent []
  | mark {sign : Char} {digits : List Char} :
      sign = '+' ∨ sign = '-' → Digits digits → Exponent ('e' :: sign :: digits)

/-- A numeral without its sign. -/
inductive Unsigned : List Char → Prop
  | intro {whole fraction exponent : List Char} : Digits whole → Fraction fraction →
      Exponent exponent → Unsigned (whole ++ (fraction ++ exponent))

theorem Unsigned.exists_cons {cs : List Char} (h : Unsigned cs) :
    ∃ d ds, cs = d :: ds ∧ d.isDigit = true := by
  obtain ⟨⟨hne, hd⟩, -, -⟩ := h
  obtain ⟨d, ds, rfl⟩ := List.exists_cons_of_ne_nil hne
  exact ⟨d, _, rfl, hd d (by simp)⟩

section
variable {digits : List Char}

theorem unsigned_positional (h : ∀ c ∈ digits, c.isDigit = true) (point : Int) :
    Unsigned (positional digits point) := by
  unfold positional
  split
  · have hfraction : ∀ c ∈ zeros (-point).toNat ++ digits, c.isDigit = true :=
      List.forall_mem_append.2 ⟨isDigit_zeros _, h⟩
    have hwhole : Digits ['0'] := ⟨by simp, List.forall_mem_singleton.2 rfl⟩
    simpa using Unsigned.intro hwhole (.point hfraction) .none
  · next hpoint =>
    split
    · next hlength =>
      have hwhole : Digits (digits ++ zeros (point.toNat - digits.length)) := by
        refine ⟨fun hnil => ?_, List.forall_mem_append.2 ⟨h, isDigit_zeros _⟩⟩
        have := congrArg List.length hnil
        simp only [List.length_append, zeros, List.length_replicate, List.length_nil] at this
        omega
      have hfraction : Fraction ['.', '0'] := .point (List.forall_mem_singleton.2 rfl)
      simpa using Unsigned.intro hwhole hfraction .none
    · next hlength =>
      have hwhole : Digits (digits.take point.toNat) := by
        refine ⟨fun hnil => ?_, fun c hc => h c (List.mem_of_mem_take hc)⟩
        have := congrArg List.length hnil
        simp only [List.length_take, List.length_nil] at this
        omega
      have hfraction : Fraction ('.' :: digits.drop point.toNat) :=
        .point fun c hc => h c (List.mem_of_mem_drop hc)
      simpa using Unsigned.intro hwhole hfraction .none

theorem unsigned_exponential (h : Digits digits) (exponent : Int) :
    Unsigned (exponential digits exponent) := by
  obtain ⟨hne, hd⟩ := h
  have hexponent : Exponent ('e' :: (if exponent < 0 then '-' else '+') ::
      (zeros (2 - (Nat.toDigits 10 exponent.natAbs).length) ++
        Nat.toDigits 10 exponent.natAbs)) := by
    refine .mark (by split <;> simp) ⟨by simp, ?_⟩
    exact List.forall_mem_append.2 ⟨isDigit_zeros _, isDigit_toDigits _⟩
  unfold exponential
  match digits with
  | [] => exact absurd rfl hne
  | [d] => exact .intro ⟨hne, hd⟩ .none hexponent
  | d :: e :: ds =>
    obtain ⟨hfirst, hrest⟩ := List.forall_mem_cons.1 hd
    have hwhole : Digits [d] := ⟨by simp, by simpa using hfirst⟩
    simpa using Unsigned.intro hwhole (.point hrest) hexponent

end

/-- The digits of a number that is not zero are not all zeros. -/
theorem withoutTrailingZeros_ne_nil {n : Nat} (h : n ≠ 0) :
    withoutTrailingZeros (Nat.toDigits 10 n) ≠ [] := by
  intro hnil
  have hzeros : ∀ c ∈ Nat.toDigits 10 n, c = '0' := by
    intro c hc
    have hall := List.dropWhile_eq_nil_iff.1 (List.reverse_eq_nil_iff.1 hnil)
    simpa using hall c (List.mem_reverse.2 hc)
  have hvalue : ∀ cs : List Char, (∀ c ∈ cs, c = '0') → Nat.ofDigitChars 10 cs 0 = 0 := by
    intro cs hcs
    induction cs with
    | nil => rfl
    | cons c cs ih =>
      obtain ⟨rfl, hrest⟩ := List.forall_mem_cons.1 hcs
      rw [Nat.ofDigitChars_cons]
      exact ih hrest
  exact h (by rw [← hvalue _ hzeros, Nat.ofDigitChars_toDigits (by decide) (by decide)])

/-- A decimal that is not zero is written as a numeral. -/
theorem unsigned_scaled {s : Scaled} (h : s.digits ≠ 0) : Unsigned s.written := by
  have hd := isDigit_withoutTrailingZeros (isDigit_toDigits s.digits)
  unfold Scaled.written
  dsimp only
  split
  · exact unsigned_positional hd _
  · exact unsigned_exponential ⟨withoutTrailingZeros_ne_nil h, hd⟩ _

/-! ## Reading numerals -/

/-- What a class of characters takes off the front, if what follows does not go on with it. -/
theorem takeWhile_append_of_head {p : Char → Bool} {cs rest : List Char}
    (h : ∀ c ∈ cs, p c = true) (hr : ∀ c ∈ rest.head?, p c = false) :
    (cs ++ rest).takeWhile p = cs ∧ (cs ++ rest).dropWhile p = rest := by
  rw [List.takeWhile_append_of_pos h, List.dropWhile_append_of_pos h]
  cases rest with
  | nil => simp
  | cons c rest => simp [hr c rfl]

theorem exists_readExponent {sign : Char} {digits : List Char} (hs : sign = '+' ∨ sign = '-')
    (hd : Digits digits) : ∃ e, readExponent (sign :: digits) = some e := by
  have hne : digits.isEmpty = false := by simpa using hd.1
  have hall : digits.all Char.isDigit = true := List.all_eq_true.2 hd.2
  rcases hs with rfl | rfl <;> simp [readExponent, hne, hall]

theorem exists_readUnsigned {cs : List Char} (h : Unsigned cs) : ∃ x, readUnsigned cs = some x := by
  obtain @⟨whole, fraction, exponent, hwhole, hf, he⟩ := h
  have hexponent : ∀ c ∈ exponent.head?, c.isDigit = false := by cases he <;> simp
  have hrest : ∀ c ∈ (fraction ++ exponent).head?, c.isDigit = false := by
    cases hf with
    | none => exact hexponent
    | point => simp
  have hne : whole.isEmpty = false := List.isEmpty_eq_false_iff.2 hwhole.1
  obtain ⟨htake, hdrop⟩ := takeWhile_append_of_head hwhole.2 hrest
  unfold readUnsigned
  simp only [htake, hdrop, hne, Bool.false_and, Bool.false_eq_true, if_false]
  cases hf with
  | none =>
    cases he with
    | none => exact ⟨_, rfl⟩
    | mark hs hd =>
      obtain ⟨e, hread⟩ := exists_readExponent hs hd
      simp [hread]
  | point hf =>
    obtain ⟨htake', hdrop'⟩ := takeWhile_append_of_head hf hexponent
    simp only [List.cons_append, htake', hdrop']
    cases he with
    | none => exact ⟨_, rfl⟩
    | mark hs hd =>
      obtain ⟨e, hread⟩ := exists_readExponent hs hd
      simp [hread]

/-- A numeral holds nothing that reading changes. -/
theorem plain_of_isNumeralChar {c : Char} (h : isNumeralChar c = true) :
    Text.isSpace c = false ∧ ((Text.digitValue? c).map Nat.digitChar).getD c = c ∧ c ≠ '_' ∧
      c.toLower = c := by
  have hascii : c.toNat < 128 := by
    simp only [isNumeralChar, Bool.or_eq_true, decide_eq_true_eq] at h
    rcases h with (((hd | rfl) | rfl) | rfl) | rfl
    · exact Nat.lt_of_le_of_lt (Char.isDigit_iff_toNat.1 hd).2 (by decide)
    all_goals decide
  have hall : ∀ n < 128, isNumeralChar (Char.ofNat n) = true →
      Text.isSpace (Char.ofNat n) = false ∧
        ((Text.digitValue? (Char.ofNat n)).map Nat.digitChar).getD (Char.ofNat n) = Char.ofNat n ∧
        Char.ofNat n ≠ '_' ∧ (Char.ofNat n).toLower = Char.ofNat n := by
    decide +kernel
  have hc := hall c.toNat hascii
  rw [Char.ofNat_toNat] at hc
  exact hc h

theorem trim_of_not_isSpace {cs : List Char} (h : ∀ c ∈ cs, Text.isSpace c = false) :
    Text.trim cs = cs := by
  have hdrop {ds : List Char} (hds : ∀ c ∈ ds, Text.isSpace c = false) :
      ds.dropWhile Text.isSpace = ds := by
    cases ds with
    | nil => rfl
    | cons d ds => simp [hds d (by simp)]
  rw [Text.trim, hdrop h, Text.trimEnd, hdrop fun c hc => h c (List.mem_reverse.1 hc),
    List.reverse_reverse]

theorem withoutSeparators_of_not_mem {cs : List Char} (h : '_' ∉ cs) :
    withoutSeparators cs = cs := by
  fun_induction withoutSeparators cs <;> simp_all

theorem cleaned_of_isNumeralChar {cs : List Char} (h : ∀ c ∈ cs, isNumeralChar c = true) :
    withoutSeparators (Text.asciiDigits (Text.trim cs)) = cs := by
  have hascii : Text.asciiDigits cs = cs := by
    rw [Text.asciiDigits, List.map_congr_left fun c hc => (plain_of_isNumeralChar (h c hc)).2.1,
      List.map_id']
  rw [trim_of_not_isSpace fun c hc => (plain_of_isNumeralChar (h c hc)).1, hascii,
    withoutSeparators_of_not_mem fun hm => (plain_of_isNumeralChar (h _ hm)).2.2.1 rfl]

theorem Unsigned.isNumeralChar {cs : List Char} (h : Unsigned cs) :
    ∀ c ∈ cs, isNumeralChar c = true := by
  obtain @⟨whole, fraction, exponent, hwhole, hf, he⟩ := h
  refine List.forall_mem_append.2 ⟨isNumeralChar_of_isDigit hwhole.2,
    List.forall_mem_append.2 ⟨?_, ?_⟩⟩
  · cases hf with
    | none => simp
    | point hd => exact List.forall_mem_cons.2 ⟨rfl, isNumeralChar_of_isDigit hd⟩
  · cases he with
    | none => simp
    | mark hs hd =>
      refine List.forall_mem_cons.2 ⟨rfl, List.forall_mem_cons.2 ⟨?_, isNumeralChar_of_isDigit hd.2⟩⟩
      rcases hs with rfl | rfl <;> rfl

/-- **A numeral is read**, with a sign as the opposite. -/
theorem read?_of_unsigned {cs : List Char} (h : Unsigned cs) : ∃ x,
    read? (String.ofList cs) = some x ∧ read? (String.ofList ('-' :: cs)) = some (-x) := by
  obtain ⟨x, hx⟩ := exists_readUnsigned h
  obtain ⟨d, ds, rfl, hd⟩ := h.exists_cons
  have hlower : (d :: ds).map Char.toLower = d :: ds := by
    rw [List.map_congr_left fun c hc => (plain_of_isNumeralChar (h.isNumeralChar c hc)).2.2.2,
      List.map_id']
  have hname (name : String) (hhead : ∀ c ∈ name.toList.head?, c.isDigit = false) :
      String.ofList ((d :: ds).map Char.toLower) ≠ name := by
    rintro rfl
    rw [hlower, String.toList_ofList] at hhead
    exact absurd hd (by simp [hhead d rfl])
  have hinf : ¬ (String.ofList ((d :: ds).map Char.toLower) = "inf" ∨
      String.ofList ((d :: ds).map Char.toLower) = "infinity") :=
    not_or.2 ⟨hname _ (by simp), hname _ (by simp)⟩
  have hnan : String.ofList ((d :: ds).map Char.toLower) ≠ "nan" := hname _ (by simp)
  have hminus : ∀ c ∈ '-' :: d :: ds, isNumeralChar c = true :=
    List.forall_mem_cons.2 ⟨rfl, h.isNumeralChar⟩
  refine ⟨x, ?_, ?_⟩
  · rw [read?, String.toList_ofList, cleaned_of_isNumeralChar h.isNumeralChar]
    split
    · next heq =>
      split at heq
      · next hsign => cases hsign; cases hd
      · next hsign => cases hsign; cases hd
      · cases heq
        simp only [hinf, hnan, if_false, hx]
        rfl
  · rw [read?, String.toList_ofList, cleaned_of_isNumeralChar hminus]
    simp only [hinf, hnan, if_false, hx]
    rfl

/-- The text of a double with digits is a numeral, after a sign if it is negative. -/
theorem written_finite (style : Style) (negative : Bool) (mantissa : Nat) (exponent : Int) :
    ∃ cs, Unsigned cs ∧ (Double.finite negative mantissa exponent).written style =
      String.ofList (if negative then '-' :: cs else cs) := by
  have hsize : ∃ cs, Unsigned cs ∧ (if mantissa = 0 then "0.0"
      else String.ofList (shortest mantissa exponent).written) = String.ofList cs := by
    by_cases hm : mantissa = 0
    · have hwhole : Digits ['0'] := ⟨by simp, List.forall_mem_singleton.2 rfl⟩
      have hfraction : Fraction ['.', '0'] := .point (List.forall_mem_singleton.2 rfl)
      refine ⟨_, .intro hwhole hfraction .none, ?_⟩
      rw [if_pos hm]
      rfl
    · exact ⟨_, unsigned_scaled (shortest_digits_ne_zero hm exponent), by rw [if_neg hm]⟩
  obtain ⟨cs, hcs, htext⟩ := hsize
  refine ⟨cs, hcs, ?_⟩
  cases negative with
  | false => exact htext
  | true =>
    rw [Double.written]
    simp only [htext, if_true]
    exact (@String.ofList_append ['-'] cs).symm

/-- The text of a double with digits is read. -/
theorem read?_written_finite (style : Style) (negative : Bool) (mantissa : Nat) (exponent : Int) :
    ∃ x, read? ((Double.finite negative mantissa exponent).written style) = some x := by
  obtain ⟨cs, hcs, htext⟩ := written_finite style negative mantissa exponent
  obtain ⟨x, hx, hminus⟩ := read?_of_unsigned hcs
  rw [htext]
  cases negative with
  | false => exact ⟨x, hx⟩
  | true => exact ⟨-x, hminus⟩

end Runbook.Decimal
