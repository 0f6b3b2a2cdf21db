/-
  Documents read back.

  Reading a written document gives the document, except that of a double there is only
  its text: what is read is the double that the text is read as.  Blanks are skipped
  where a style puts them.

  * `readValue?_token`: a token is read up to where it ends;
  * `read_row`: a row is read if its values are read one after another;
  * `reads_of_readable`: a value is read at every depth, whatever follows it;
  * `read?_write`: **a document is read back**, in any style that sets its commas and
    colons.
-/
import Mathlib
import Runbook.Proofs.Decimal.Read
import Runbook.Proofs.Json.Unambiguous

namespace Runbook

/-- The double that the text of a double is read as. -/
def Decimal.readBack (x : Float) : Float :=
  match Double.ofFloat x with
  | .nan => 0.0 / 0.0
  | .infinite negative => if negative then -1.0 / 0.0 else 1.0 / 0.0
  | .finite .. => (read? (written .json x)).getD x

namespace Json

mutual

/-- The document with every double as its text is read. -/
def readBack : Json → Json
  | float x => float (Decimal.readBack x)
  | arr items => arr (readBackItems items)
  | obj fields => obj (readBackFields fields)
  | j => j

/-- `readBack` of every item. -/
def readBackItems : List Json → List Json
  | [] => []
  | j :: js => readBack j :: readBackItems js

/-- `readBack` of the value of every field. -/
def readBackFields : List (String × Json) → List (String × Json)
  | [] => []
  | (k, j) :: fields => (k, readBack j) :: readBackFields fields

end

theorem readBackItems_eq_map : ∀ items : List Json, readBackItems items = items.map readBack
  | [] => rfl
  | j :: js => by rw [readBackItems, readBackItems_eq_map js, List.map_cons]

theorem readBackFields_eq_map : ∀ fields : List (String × Json),
    readBackFields fields = fields.map fun e => (e.1, e.2.readBack)
  | [] => rfl
  | (k, j) :: fields => by rw [readBackFields, readBackFields_eq_map fields, List.map_cons]

/-! ## Blanks -/

/-- Blanks that are skipped. -/
def Blanks (cs : List Char) : Prop := skipBlanks cs = []

theorem Blanks.skip {cs : List Char} (h : Blanks cs) (rest : List Char) :
    skipBlanks (cs ++ rest) = skipBlanks rest :=
  List.dropWhile_append_of_pos (List.dropWhile_eq_nil_iff.1 h)

theorem Blanks.append {s t : List Char} (hs : Blanks s) (ht : Blanks t) : Blanks (s ++ t) := by
  rw [Blanks, hs.skip, ht]

theorem blanks_newline (style : Style) (depth : Nat) : Blanks (newline style depth) := by
  unfold newline
  split
  · rfl
  · refine List.dropWhile_eq_nil_iff.2 (List.forall_mem_cons.2 ⟨rfl, fun c hc => ?_⟩)
    rw [List.eq_of_mem_replicate hc]
    rfl

/-- What a value is written as does not begin with a blank. -/
theorem skipBlanks_writeAt (style : Style) (depth : Nat) (j : Json) (rest : List Char) :
    skipBlanks (writeAt style depth j ++ rest) = writeAt style depth j ++ rest := by
  obtain ⟨c, cs, hcs, ho⟩ := exists_writeAt_cons style depth j
  have hc : ¬ (c = ' ' ∨ c = '\t' ∨ c = '\n' ∨ c = '\r') := by
    rintro (rfl | rfl | rfl | rfl) <;> cases j <;> cases ho
  rw [hcs, List.cons_append, skipBlanks, List.dropWhile_cons_of_neg]
  simpa [or_assoc] using hc

theorem skipBlanks_newline_writeAt (style : Style) (depth : Nat) (j : Json) (rest : List Char) :
    skipBlanks (newline style depth ++ (writeAt style depth j ++ rest)) =
      writeAt style depth j ++ rest := by
  rw [(blanks_newline style depth).skip, skipBlanks_writeAt]

theorem skipBlanks_newline_writeField (style : Style) (depth : Nat) (e : String × Json)
    (rest : List Char) : skipBlanks (newline style depth ++ (writeField style depth e ++ rest)) =
      writeField style depth e ++ rest := by
  rw [(blanks_newline style depth).skip]
  rfl

theorem readValue?_blanks {bs : List Char} (h : Blanks bs) (fuel : Nat) (cs : List Char) :
    readValue? fuel (bs ++ cs) = readValue? fuel cs := by
  cases fuel with
  | zero => simp only [readValue?]
  | succ fuel => rw [readValue?, readValue?, h.skip]

theorem readItems?_blanks {bs : List Char} (h : Blanks bs) (fuel : Nat) (cs : List Char) :
    readItems? fuel (bs ++ cs) = readItems? fuel cs := by
  cases fuel with
  | zero => simp only [readItems?]
  | succ fuel => rw [readItems?, readItems?, readValue?_blanks h]

theorem readFields?_blanks {bs : List Char} (h : Blanks bs) (fuel : Nat) (cs : List Char) :
    readFields? fuel (bs ++ cs) = readFields? fuel cs := by
  cases fuel with
  | zero => simp only [readFields?]
  | succ fuel => rw [readFields?, readFields?, h.skip]

/-! ## Tokens -/

theorem isTokenChar_of_isNumberChar {c : Char} (h : isNumberChar c = true) :
    isTokenChar c = true := by
  simp only [isNumberChar, Bool.or_eq_true, decide_eq_true_eq] at h
  rcases h with ((((hd | rfl) | rfl) | rfl) | rfl) | rfl
  · simp [isTokenChar, Decimal.isNumeralChar, hd]
  all_goals rfl

theorem takeWhile_isNumberChar {cs rest : List Char} (h : ∀ c ∈ cs, isNumberChar c = true)
    (hr : Ended rest) : (cs ++ rest).takeWhile isNumberChar = cs ∧
      (cs ++ rest).dropWhile isNumberChar = rest := by
  refine Decimal.takeWhile_append_of_head h fun c hc => ?_
  by_contra hn
  have := isTokenChar_of_isNumberChar (by simpa using hn)
  rw [hr c hc] at this
  cases this

/-- A number is read if it begins with a digit, after a sign or not. -/
theorem readValue?_number {cs rest : List Char} {j : Json}
    (hbegin : ∃ d ds, d.isDigit = true ∧ (cs = d :: ds ∨ cs = '-' :: d :: ds))
    (hchars : ∀ c ∈ cs, isNumberChar c = true) (hr : Ended rest) (hj : number? cs = some j)
    (fuel : Nat) : readValue? (fuel + 1) (cs ++ rest) = some (j, rest) := by
  obtain ⟨htake, hdrop⟩ := takeWhile_isNumberChar hchars hr
  obtain ⟨d, ds, hd, hcs⟩ := hbegin
  have hne (c : Char) (hc : c.isDigit = false) : d ≠ c := by
    rintro rfl
    simp [hc] at hd
  have hskip : skipBlanks (cs ++ rest) = cs ++ rest := by
    rcases hcs with rfl | rfl
    · rw [List.cons_append, skipBlanks, List.dropWhile_cons_of_neg]
      simp [hne ' ' rfl, hne '\t' rfl, hne '\n' rfl, hne '\r' rfl]
    · rfl
  rw [readValue?, hskip]
  split
  case h_11 => rw [htake, hdrop, hj]; rfl
  -- nothing else begins with a digit
  case h_1 heq => rcases hcs with rfl | rfl <;> cases heq
  case h_10 heq =>
    rcases hcs with rfl | rfl
    · exact absurd (List.cons.inj heq).1 (hne _ rfl)
    · exact absurd (List.cons.inj (List.cons.inj heq).2).1 (hne _ rfl)
  all_goals next heq =>
    rcases hcs with rfl | rfl
    · exact absurd (List.cons.inj heq).1 (hne _ rfl)
    · cases (List.cons.inj heq).1

theorem number?_int (i : Int) : number? (toString i).toList = some (int i) := by
  have hmark : (toString i).toList.any (fun c => c = '.' || c = 'e' || c = 'E') = false := by
    rw [List.any_eq_false]
    intro c hc
    rcases isWholeChar_iff.1 (isWholeChar_toString i c hc) with hd | rfl
    · have hne (d : Char) (hdigit : d.isDigit = false) : c ≠ d := by
        rintro rfl
        simp [hdigit] at hd
      simp [hne '.' rfl, hne 'e' rfl, hne 'E' rfl]
    · decide
  rw [number?, hmark]
  simp [Int.toString_eq_repr]

theorem number?_float {cs : List Char} (h : Decimal.Numeral cs) :
    number? cs = (Decimal.read? (String.ofList cs)).map float := by
  rw [number?, if_pos]
  refine List.any_eq_true.2 ?_
  rcases h.mark with hp | ⟨he, -⟩
  · exact ⟨'.', hp, rfl⟩
  · exact ⟨'e', he, rfl⟩

/-- A token is read up to where it ends. -/
theorem readValue?_token {j : Json} {cs rest : List Char} (h : j.token? = some cs)
    (hr : Ended rest) (fuel : Nat) :
    readValue? (fuel + 1) (cs ++ rest) = some (j.readBack, rest) := by
  cases j with
  | str | arr | obj => cases h
  | null => cases h; rfl
  | bool b => cases h; cases b <;> rfl
  | int i =>
    cases h
    refine readValue?_number ?_ (fun c hc => ?_) hr (number?_int i) fuel
    · have hdigits (n : Nat) : ∃ d ds, d.isDigit = true ∧ Nat.toDigits 10 n = d :: ds := by
        obtain ⟨d, ds, hds⟩ := List.exists_cons_of_ne_nil (@Nat.toDigits_ne_nil n 10)
        exact ⟨d, ds, Decimal.isDigit_toDigits n d (by simp [hds]), hds⟩
      rw [toList_toString]
      split
      · obtain ⟨d, ds, hd, hds⟩ := hdigits i.toNat
        exact ⟨d, ds, hd, .inl hds⟩
      · obtain ⟨d, ds, hd, hds⟩ := hdigits (-i).toNat
        exact ⟨d, ds, hd, .inr (by rw [hds])⟩
    · rcases isWholeChar_iff.1 (isWholeChar_toString i c hc) with hd | rfl
      · simp [isNumberChar, hd]
      · rfl
  | float x =>
    cases h
    rw [readBack, Decimal.written, Decimal.readBack, Decimal.written]
    cases hx : Decimal.Double.ofFloat x with
    | nan => rfl
    | infinite negative => cases negative <;> rfl
    | finite negative mantissa exponent =>
      have hnumeral := Decimal.Double.numeral_finite .json negative mantissa exponent
      obtain ⟨y, hy⟩ := Decimal.read?_written_finite .json negative mantissa exponent
      have hread : number? ((Decimal.Double.finite negative mantissa exponent).written
          .json).toList = some (float y) := by
        rw [number?_float hnumeral, String.ofList_toList, hy]
        rfl
      refine readValue?_number ?_ (fun c hc => ?_) hr ?_ fuel
      · obtain ⟨ds, hds, htext⟩ := Decimal.written_finite .json negative mantissa exponent
        obtain ⟨d, ds, rfl, hd⟩ := hds.exists_cons
        rw [htext, String.toList_ofList]
        cases negative with
        | false => exact ⟨d, ds, hd, .inl rfl⟩
        | true => exact ⟨d, ds, hd, .inr rfl⟩
      · have hc := hnumeral.chars c hc
        simp only [Decimal.isNumeralChar, Bool.or_eq_true, decide_eq_true_eq] at hc
        rcases hc with (((hd | rfl) | rfl) | rfl) | rfl
        · simp [isNumberChar, hd]
        all_goals rfl
      · simpa [hy] using hread

/-! ## Rows -/

/-- A string has no more characters than what it is written as. -/
theorem length_le_escapeString (ascii : Bool) (s : String) :
    s.toList.length ≤ (escapeString ascii s).length := by
  have hchar (c : Char) : 1 ≤ (escapeChar ascii c).length := by
    unfold escapeChar escapeUnits Text.units escapeUnit
    split_ifs <;> simp
  have hchars (cs : List Char) : cs.length ≤ (cs.flatMap (escapeChar ascii)).length := by
    induction cs with
    | nil => exact Nat.le_refl _
    | cons c cs ih =>
      have := hchar c
      rw [List.flatMap_cons, List.length_append, List.length_cons]
      omega
  exact hchars s.toList

/-- A style that spells strings by their characters, whose commas and colons are where a document has
them, and with nothing but blanks beside them. -/
structure Style.Readable (style : Style) : Prop where
  strings : ∃ ascii, style.spell = escapeString ascii
  comma : ∃ bs, style.betweenItems.toList = ',' :: bs ∧ Blanks bs
  colon : ∃ bs, style.afterKey.toList = ':' :: bs ∧ Blanks bs

/-- The spelling of a string is read up to its quote. -/
theorem Style.Readable.readString?_spell {style : Style} (hs : style.Readable) (s : String)
    (rest : List Char) {fuel : Nat} (hfuel : (writeText style s).length < fuel) :
    readString? fuel (style.spell s ++ '"' :: rest) = some (s.toList, rest) := by
  obtain ⟨ascii, hspell⟩ := hs.strings
  have hlength := length_le_escapeString ascii s
  rw [writeText, List.length_cons, List.length_append, hspell] at hfuel
  rw [hspell]
  exact readString?_append ascii rest s.toList fuel (by omega)

theorem Style.Readable.separates {style : Style} (hs : style.Readable) : style.Separates :=
  let ⟨bs, h, _⟩ := hs.comma
  ⟨bs, h⟩

/-- A document is read back where it is written at a depth, given the fuel for it. -/
def Reads (style : Style) (depth : Nat) (j : Json) : Prop :=
  ∀ fuel rest, (writeAt style depth j).length < fuel → Ended rest →
    readValue? fuel (writeAt style depth j ++ rest) = some (j.readBack, rest)

/-- What is read of a row from a value on, where others may come after it. -/
def rowFrom {β : Type} (style : Style) (depth : Nat) (right : Char)
    (read : List Char → Option (List β × List Char)) (b : β) (ts : List (List Char))
    (rest : List Char) : Option (List β × List Char) :=
  match ts with
  | [] => some ([b], rest)
  | t :: ts => (read (t ++ (closing style depth right ts ++ rest))).bind
      fun p => some (b :: p.1, p.2)

theorem skipBlanks_closing_nil (style : Style) (depth : Nat) {right : Char}
    (hright : right ∈ [']', '}']) (rest : List Char) :
    skipBlanks (closing style depth right [] ++ rest) = right :: rest := by
  rw [closing, List.append_assoc, (blanks_newline style depth).skip]
  rcases List.mem_pair.1 hright with rfl | rfl <;> rfl

section
variable {style : Style} (hs : style.Readable) {depth : Nat}
include hs

variable (depth) in
theorem skipBlanks_closing_cons (right : Char) (t : List Char) (ts : List (List Char))
    (rest : List Char) : ∃ bs, Blanks bs ∧ skipBlanks (closing style depth right (t :: ts) ++ rest) =
      ',' :: (bs ++ (t ++ (closing style depth right ts ++ rest))) := by
  obtain ⟨bs, hbs, hblanks⟩ := hs.comma
  refine ⟨bs ++ newline style (depth + 1), hblanks.append (blanks_newline ..), ?_⟩
  rw [closing, hbs]
  simp [skipBlanks]

/-- A value in a row is read up to what follows it there. -/
theorem Reads.in_row {j : Json} (h : Reads style (depth + 1) j) {right : Char}
    (hright : right ∈ [']', '}']) (ts : List (List Char)) (rest : List Char) {fuel : Nat}
    (hfuel : (writeAt style (depth + 1) j ++ closing style depth right ts).length < fuel + 1) :
    readValue? fuel (writeAt style (depth + 1) j ++ (closing style depth right ts ++ rest)) =
      some (j.readBack, closing style depth right ts ++ rest) := by
  refine h fuel _ ?_ (ended_closing hs.separates hright ts rest)
  obtain ⟨c, cs, hcs, -⟩ := exists_closing_cons hs.separates depth hright ts
  rw [hcs, List.length_append, List.length_cons] at hfuel
  omega

/-- An item is read, and then the row ends or goes on. -/
theorem readItems?_item {j : Json} (h : Reads style (depth + 1) j) (ts : List (List Char))
    (rest : List Char) {fuel : Nat}
    (hfuel : (writeAt style (depth + 1) j ++ closing style depth ']' ts).length < fuel + 1) :
    readItems? (fuel + 1) (writeAt style (depth + 1) j ++ (closing style depth ']' ts ++ rest)) =
      rowFrom style depth ']' (readItems? fuel) j.readBack ts rest := by
  rw [readItems?, h.in_row hs (List.mem_cons_self ..) ts rest hfuel]
  simp only [Option.bind_eq_bind, Option.bind_some]
  cases ts with
  | nil =>
    rw [skipBlanks_closing_nil style depth (List.mem_cons_self ..) rest]
    rfl
  | cons t ts =>
    obtain ⟨bs, hbs, hskip⟩ := skipBlanks_closing_cons hs depth ']' t ts rest
    simp only [hskip, readItems?_blanks hbs, rowFrom]

/-- A field is read, and then the row ends or goes on. -/
theorem readFields?_field {e : String × Json} (h : Reads style (depth + 1) e.2)
    (ts : List (List Char)) (rest : List Char) {fuel : Nat}
    (hfuel : (writeField style (depth + 1) e ++ closing style depth '}' ts).length < fuel + 1) :
    readFields? (fuel + 1)
        (writeField style (depth + 1) e ++ (closing style depth '}' ts ++ rest)) =
      rowFrom style depth '}' (readFields? fuel) (e.1, e.2.readBack) ts rest := by
  have hright : '}' ∈ [']', '}'] := by decide
  obtain ⟨bs, hbs, hblanks⟩ := hs.colon
  simp only [writeField, List.append_assoc, List.length_append] at hfuel
  have hkey : (writeText style e.1).length < fuel + 1 := by omega
  have hstring := hs.readString?_spell e.1 (style.afterKey.toList ++
    (writeAt style (depth + 1) e.2 ++ (closing style depth '}' ts ++ rest))) hkey
  have hlength :
      (writeAt style (depth + 1) e.2 ++ closing style depth '}' ts).length < fuel + 1 := by
    rw [List.length_append]
    omega
  have hvalue := h.in_row hs hright ts rest hlength
  have hquote (cs : List Char) : dropWord? ['"'] (skipBlanks ('"' :: cs)) = some cs := rfl
  have hcolon (cs : List Char) : dropWord? [':'] (skipBlanks (':' :: cs)) = some cs := rfl
  rw [hbs, List.cons_append] at hstring
  unfold writeField
  rw [List.append_assoc, List.append_assoc, writeText_append, hbs, List.cons_append, readFields?]
  simp only [Option.bind_eq_bind, Option.bind_some, hquote, hstring, hcolon,
    readValue?_blanks hblanks, hvalue, String.ofList_toList]
  cases ts with
  | nil =>
    rw [skipBlanks_closing_nil style depth hright rest]
    rfl
  | cons t ts =>
    obtain ⟨bs, hbs, hskip⟩ := skipBlanks_closing_cons hs depth '}' t ts rest
    simp only [hskip, readFields?_blanks hbs, rowFrom]

/-- A row is read if a reader takes one value after another from it. -/
theorem read_row {α β : Type} {read : Nat → List Char → Option (List β × List Char)}
    {f : α → List Char} {g : α → β} {right : Char} (rest : List Char) : ∀ {a : α} {as : List α},
    (∀ b ∈ a :: as, ∀ (ts : List (List Char)) (fuel : Nat),
      (f b ++ closing style depth right ts).length < fuel + 1 →
      read (fuel + 1) (f b ++ (closing style depth right ts ++ rest)) =
        rowFrom style depth right (read fuel) (g b) ts rest) →
    ∀ {fuel : Nat}, (f a ++ closing style depth right (as.map f)).length < fuel →
      read fuel (f a ++ (closing style depth right (as.map f) ++ rest)) =
        some ((a :: as).map g, rest)
  | _, _, _, 0, hfuel => absurd hfuel (Nat.not_lt_zero _)
  | a, [], h, fuel + 1, hfuel => h a List.mem_cons_self [] fuel hfuel
  | a, b :: bs, h, fuel + 1, hfuel => by
    -- the comma before the next value is what the fuel is for
    have hlength : (f b ++ closing style depth right (bs.map f)).length < fuel := by
      obtain ⟨cs, hcs, -⟩ := hs.comma
      rw [List.map_cons, closing, hcs] at hfuel
      simp only [List.length_append, List.length_cons] at hfuel ⊢
      omega
    have hrest := read_row rest (fun c hc => h c (.tail _ hc)) hlength
    rw [h a List.mem_cons_self ((b :: bs).map f) fuel hfuel, List.map_cons, rowFrom, hrest]
    rfl

end

/-! ## Documents -/

theorem readValue?_string {s : List Char} {cs rest : List Char} {fuel : Nat}
    (h : readString? (fuel + 1) cs = some (s, rest)) :
    readValue? (fuel + 1) ('"' :: cs) = some (str (String.ofList s), rest) := by
  have hskip : skipBlanks ('"' :: cs) = '"' :: cs := rfl
  rw [readValue?, hskip]
  simp only [h, Option.map_some]

theorem readValue?_items {cs ds : List Char} (h : skipBlanks cs = ds) (hd : ds.head? ≠ some ']')
    (fuel : Nat) : readValue? (fuel + 1) ('[' :: cs) =
      (readItems? fuel ds).map fun p => (arr p.1, p.2) := by
  have hskip : skipBlanks ('[' :: cs) = '[' :: cs := rfl
  rw [readValue?, hskip]
  simp only [h]
  split
  · exact absurd rfl hd
  · rfl

theorem readValue?_fields {cs ds : List Char} (h : skipBlanks cs = ds)
    (hd : ds.head? ≠ some '\x7d') (fuel : Nat) : readValue? (fuel + 1) ('\x7b' :: cs) =
      (readFields? fuel ds).map fun p => (obj p.1, p.2) := by
  have hskip : skipBlanks ('\x7b' :: cs) = '\x7b' :: cs := rfl
  rw [readValue?, hskip]
  simp only [h]
  split
  · exact absurd rfl hd
  · rfl

/-- A value is read at every depth, whatever follows it. -/
theorem reads_of_readable {style : Style} (hs : style.Readable) (j : Json) :
    ∀ depth, Reads style depth j := by
  induction j using induction_on with
  | token j cs hcs =>
    rintro depth (_ | fuel) rest hfuel hr
    · exact absurd hfuel (Nat.not_lt_zero _)
    · rw [writeAt_of_token hcs]
      exact readValue?_token hcs hr fuel
  | str s =>
    rintro depth (_ | fuel) rest hfuel _
    · exact absurd hfuel (Nat.not_lt_zero _)
    · have hstring := hs.readString?_spell s rest hfuel
      rw [writeAt, writeText_append, readValue?_string hstring, String.ofList_toList]
      rfl
  | arr items ih =>
    rintro depth (_ | fuel) rest hfuel _
    · exact absurd hfuel (Nat.not_lt_zero _)
    · rw [writeAt, writeItems_eq_map] at hfuel ⊢
      rw [readBack, readBackItems_eq_map]
      cases items with
      | nil => rfl
      | cons j items =>
        rw [List.map_cons, bracket_cons] at hfuel ⊢
        simp only [List.length_cons, List.length_append] at hfuel
        have hlength : (writeAt style (depth + 1) j ++
            closing style depth ']' (items.map (writeAt style (depth + 1)))).length < fuel := by
          rw [List.length_append]
          omega
        have hrow := read_row hs rest
          (fun i hi ts _ => readItems?_item hs (ih i hi (depth + 1)) ts rest) hlength
        obtain ⟨c, cs, hcs, hc⟩ :=
          exists_writeAt_cons_ne style (depth + 1) (List.mem_cons_self (l := ['}'])) j
        rw [List.cons_append, List.append_assoc, List.append_assoc, readValue?_items
          (skipBlanks_newline_writeAt style (depth + 1) j _) (by simpa [hcs] using hc), hrow]
        rfl
  | obj fields ih =>
    rintro depth (_ | fuel) rest hfuel _
    · exact absurd hfuel (Nat.not_lt_zero _)
    · rw [writeAt, writeFields_eq_map] at hfuel ⊢
      rw [readBack, readBackFields_eq_map]
      cases fields with
      | nil => rfl
      | cons e fields =>
        rw [List.map_cons, bracket_cons] at hfuel ⊢
        simp only [List.length_cons, List.length_append] at hfuel
        have hlength : (writeField style (depth + 1) e ++
            closing style depth '}' (fields.map (writeField style (depth + 1)))).length < fuel := by
          rw [List.length_append]
          omega
        have hrow := read_row hs rest
          (fun i hi ts _ => readFields?_field hs (ih i hi (depth + 1)) ts rest) hlength
        rw [List.cons_append, List.append_assoc, List.append_assoc, readValue?_fields
          (skipBlanks_newline_writeField style (depth + 1) e _) (by simp [writeField, writeText]),
          hrow]
        rfl

theorem readable_compact : (Style.compact : Style).Readable :=
  ⟨⟨true, rfl⟩, ⟨[], rfl, rfl⟩, ⟨[], rfl, rfl⟩⟩

theorem readable_document : Style.document.Readable :=
  ⟨⟨false, rfl⟩, ⟨[], rfl, rfl⟩, ⟨[' '], rfl, rfl⟩⟩

/-- **A document is read back.** -/
theorem read?_write {style : Style} (hs : style.Readable) (j : Json) :
    read? (j.write style) = some j.readBack := by
  have hread := reads_of_readable hs j 0 (2 * (writeAt style 0 j).length + 2) [] (by omega)
    (by rintro _ ⟨⟩)
  rw [List.append_nil] at hread
  simp only [read?, write, String.toList_ofList, hread]
  rfl

end Json

end Runbook
