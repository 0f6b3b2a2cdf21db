/-
  What the text of a document tells about it, and the texts of words and numbers.

  The `Content` of a document is the document with the text of every double in its
  place, and with all other texts as they are seen by a view of them.  A document
  without parts of its own is a token: a word, a whole number or
  a double.  Words are of small letters, whole numbers of digits after a sign, and
  doubles of neither.

  * `induction_on`: induction over a document, through its items and fields;
  * `kind_token`: the text of a token shows which kind it is;
  * `content_eq_of_token`: **tokens with one text have one content**;
  * `Ended.append_inj`: and a token ends where its characters do.
-/
import Runbook.Json.Printer
import Runbook.Proofs.Decimal.Written

namespace Runbook

/-- What a document says.  A double says its text. -/
inductive Content (ν : Type) where
  | null
  | bool (b : Bool)
  | int (i : Int)
  | float (text : String)
  | str (s : ν)
  | list (items : List (Content ν))
  | map (fields : List (ν × Content ν))

namespace Json

variable {τ ν : Type}

section

variable (view : τ → ν)

mutual

/-- The content of a document. -/
def content : Json τ → Content ν
  | null => .null
  | bool b => .bool b
  | int i => .int i
  | float x => .float (Decimal.written .display x)
  | str s => .str (view s)
  | arr items => .list (contentItems items)
  | obj fields => .map (contentFields fields)

/-- The content of every item. -/
def contentItems : List (Json τ) → List (Content ν)
  | [] => []
  | j :: js => content j :: contentItems js

/-- The content of every field. -/
def contentFields : List (τ × Json τ) → List (ν × Content ν)
  | [] => []
  | (k, j) :: fields => (view k, content j) :: contentFields fields

end

theorem contentItems_eq_map : ∀ items : List (Json τ),
    contentItems view items = items.map (content view)
  | [] => rfl
  | j :: js => by rw [contentItems, contentItems_eq_map js, List.map_cons]

theorem contentFields_eq_map : ∀ fields : List (τ × Json τ),
    contentFields view fields = fields.map fun e => (view e.1, content view e.2)
  | [] => rfl
  | (k, j) :: fields => by rw [contentFields, contentFields_eq_map fields, List.map_cons]

end

/-! ## Tokens -/

/-- The text of a word or of a number. -/
def token? : Json τ → Option (List Char)
  | null => some "null".toList
  | bool b => some (if b then "true" else "false").toList
  | int i => some (toString i).toList
  | float x => some (Decimal.written .json x).toList
  | _ => none

theorem writeAt_of_token {j : Json τ} {cs : List Char} (h : j.token? = some cs) (style : Style τ)
    (depth : Nat) : writeAt style depth j = cs := by
  cases j with
  | str | arr | obj => cases h
  | _ => exact Option.some.inj h

/-- Induction over a document, through its items and fields. -/
theorem induction_on {P : Json τ → Prop} (token : ∀ j cs, j.token? = some cs → P j)
    (str : ∀ s, P (str s)) (arr : ∀ items, (∀ j ∈ items, P j) → P (arr items))
    (obj : ∀ fields, (∀ e ∈ fields, P e.2) → P (obj fields)) : ∀ j, P j
  | null | bool _ | int _ | float _ => token _ _ rfl
  | .str s => str s
  | .arr items => arr items fun j _ => induction_on token str arr obj j
  | .obj fields => obj fields fun e _ => induction_on token str arr obj e.2
termination_by j => sizeOf j
decreasing_by
  all_goals next h => have := List.sizeOf_lt_of_mem h; grind

/-! ## Kinds of tokens -/

/-- The kinds of tokens. -/
inductive Kind where
  | word
  | whole
  | double

/-- The kind of a document that is a token. -/
def kind? : Json τ → Option Kind
  | null | bool _ => some .word
  | int _ => some .whole
  | float _ => some .double
  | _ => none

/-- A character of a whole number. -/
def isWholeChar (c : Char) : Bool := c.isDigit || c = '-'

theorem isWholeChar_iff {c : Char} : isWholeChar c = true ↔ c.isDigit = true ∨ c = '-' := by
  simp [isWholeChar]

/-- The kind of the token with a text. -/
def kindOf (cs : List Char) : Kind :=
  if cs.all Char.isLower then .word else if cs.all isWholeChar then .whole else .double

theorem toList_toString (i : Int) : (toString i).toList =
    if 0 ≤ i then Nat.toDigits 10 i.toNat else '-' :: Nat.toDigits 10 (-i).toNat := by
  rw [Int.toString_eq_repr, Int.repr_eq_if]
  split <;> simp [Nat.repr_eq_ofList_toDigits]

theorem toString_inj {i j : Int} (h : (toString i).toList = (toString j).toList) : i = j := by
  have hdigits {m n : Nat} (h : Nat.toDigits 10 m = Nat.toDigits 10 n) : m = n := by
    have := congrArg (Nat.ofDigitChars 10 · 0) h
    simpa [Nat.ofDigitChars_toDigits] using this
  have hminus (m n : Nat) : Nat.toDigits 10 m ≠ '-' :: Nat.toDigits 10 n := by
    intro h
    have hd : '-'.isDigit = true := Decimal.isDigit_toDigits m _ (h ▸ List.mem_cons_self)
    cases hd
  rw [toList_toString, toList_toString] at h
  split at h <;> split at h
  · have := hdigits h
    omega
  · exact absurd h (hminus _ _)
  · exact absurd h.symm (hminus _ _)
  · have := hdigits (List.cons.inj h).2
    omega

theorem not_isLower_of_isWholeChar {c : Char} (h : isWholeChar c = true) : ¬ c.isLower = true := by
  intro hl
  have ha : 'a'.toNat ≤ c.toNat := of_decide_eq_true (Bool.and_eq_true_iff.1 hl).1
  rcases isWholeChar_iff.1 h with hd | rfl
  · exact absurd (Nat.le_trans ha (Char.isDigit_iff_toNat.1 hd).2) (by decide)
  · exact absurd ha (by decide)

section
variable {cs : List Char}

theorem kindOf_eq_whole (hn : cs ≠ []) (h : ∀ c ∈ cs, isWholeChar c = true) :
    kindOf cs = .whole := by
  obtain ⟨c, hc⟩ := List.exists_mem_of_ne_nil cs hn
  have hlower : ¬ cs.all Char.isLower := fun hall =>
    absurd (List.all_eq_true.1 hall c hc) (not_isLower_of_isWholeChar (h c hc))
  rw [kindOf, if_neg hlower, if_pos (List.all_eq_true.2 h)]

theorem kindOf_eq_double {c d : Char} (hc : c ∈ cs) (hl : c.isLower = false) (hd : d ∈ cs)
    (hw : isWholeChar d = false) : kindOf cs = .double := by
  have hlower : ¬ cs.all Char.isLower := fun hall => by simp [List.all_eq_true.1 hall c hc] at hl
  have hwhole : ¬ cs.all isWholeChar := fun hall => by simp [List.all_eq_true.1 hall d hd] at hw
  rw [kindOf, if_neg hlower, if_neg hwhole]

end

theorem isWholeChar_toString (i : Int) : ∀ c ∈ (toString i).toList, isWholeChar c = true := by
  have hdigit (n : Nat) : ∀ c ∈ Nat.toDigits 10 n, isWholeChar c = true :=
    fun c hc => isWholeChar_iff.2 (.inl (Decimal.isDigit_toDigits n c hc))
  rw [toList_toString]
  split
  · exact hdigit _
  · exact List.forall_mem_cons.2 ⟨rfl, hdigit _⟩

theorem kindOf_toString (i : Int) : kindOf (toString i).toList = .whole := by
  refine kindOf_eq_whole ?_ (isWholeChar_toString i)
  rw [toList_toString]
  split
  · exact Nat.toDigits_ne_nil
  · exact List.cons_ne_nil _ _

theorem kindOf_numeral {cs : List Char} (h : Decimal.Numeral cs) : kindOf cs = .double := by
  rcases h.mark with hp | ⟨he, hs | hs⟩
  · exact kindOf_eq_double hp rfl hp rfl
  · exact kindOf_eq_double hs rfl he rfl
  · exact kindOf_eq_double hs rfl he rfl

theorem kindOf_written (x : Decimal.Double) : kindOf (x.written .json).toList = .double := by
  cases x with
  | nan => rfl
  | infinite negative => cases negative <;> rfl
  | finite negative mantissa exponent =>
    exact kindOf_numeral (Decimal.Double.numeral_finite .json negative mantissa exponent)

theorem kind_token {j : Json τ} {cs : List Char} (h : j.token? = some cs) :
    j.kind? = some (kindOf cs) := by
  cases j with
  | str | arr | obj => cases h
  | null => cases h; rfl
  | bool b => cases h; cases b <;> rfl
  | int i => cases h; exact congrArg some (kindOf_toString i).symm
  | float x => cases h; exact congrArg some (kindOf_written _).symm

/-- **Tokens with one text have one content.** -/
theorem content_eq_of_token (view : τ → ν) {j j' : Json τ} {cs : List Char}
    (h : j.token? = some cs) (h' : j'.token? = some cs) : j.content view = j'.content view := by
  have hkind := (kind_token h).trans (kind_token h').symm
  have htext := h.trans h'.symm
  have hnull : ∀ b : Bool, "null".toList ≠ (if b then "true" else "false").toList := by decide
  have hbool : ∀ b b' : Bool, (if b then "true" else "false").toList =
      (if b' then "true" else "false").toList → b = b' := by decide
  cases j with
  | str | arr | obj => cases h
  | null =>
    cases j' with
    | null => rfl
    | bool b => exact absurd (Option.some.inj htext) (hnull b)
    | _ => cases hkind
  | bool b =>
    cases j' with
    | null => exact absurd (Option.some.inj htext).symm (hnull b)
    | bool b' => rw [hbool b b' (Option.some.inj htext)]
    | _ => cases hkind
  | int i =>
    cases j' with
    | int i' => rw [toString_inj (Option.some.inj htext)]
    | _ => cases hkind
  | float x =>
    cases j' with
    | float y =>
      have hjson := String.toList_inj.1 (Option.some.inj htext)
      rw [content, content, (Decimal.written_eq_written_iff Decimal.proper_json
        Decimal.proper_display).1 hjson]
    | _ => cases hkind

theorem token?_eq_of_content {view : τ → ν} {j j' : Json τ} (h : j.content view = j'.content view) :
    j.token? = j'.token? := by
  cases j with
  | str | arr | obj => cases j' <;> first | rfl | cases h
  | float x =>
    cases j' with
    | float y =>
      rw [token?, token?, (Decimal.written_eq_written_iff Decimal.proper_json
        Decimal.proper_display).2 (Content.float.inj h)]
    | _ => cases h
  | null | bool | int =>
    cases j' with
    | null | bool | int => cases h <;> rfl
    | _ => cases h

/-! ## The end of a token -/

/-- A character of a word or of a number. -/
def isTokenChar (c : Char) : Bool := c.isAlpha || Decimal.isNumeralChar c

/-- A rest that a token before it does not take in. -/
def Ended (rest : List Char) : Prop := ∀ c ∈ rest.head?, isTokenChar c = false

theorem isTokenChar_of_token {j : Json τ} {cs : List Char} (h : j.token? = some cs) :
    ∀ c ∈ cs, isTokenChar c = true := by
  have hnumeral {cs : List Char} (h : ∀ c ∈ cs, Decimal.isNumeralChar c = true) :
      ∀ c ∈ cs, isTokenChar c = true := by
    intro c hc
    simp [isTokenChar, h c hc]
  cases j with
  | str | arr | obj => cases h
  | null => cases h; exact List.all_eq_true.1 rfl
  | bool b => cases h; cases b <;> exact List.all_eq_true.1 rfl
  | int i =>
    cases h
    refine hnumeral fun c hc => ?_
    rcases isWholeChar_iff.1 (isWholeChar_toString i c hc) with hd | rfl
    · simp [Decimal.isNumeralChar, hd]
    · rfl
  | float x =>
    cases h
    unfold Decimal.written
    cases Decimal.Double.ofFloat x with
    | nan => exact List.all_eq_true.1 rfl
    | infinite negative => cases negative <;> exact List.all_eq_true.1 rfl
    | finite negative mantissa exponent =>
      exact hnumeral (Decimal.Double.numeral_finite .json negative mantissa exponent).chars

theorem ne_nil_of_token {j : Json τ} {cs : List Char} (h : j.token? = some cs) : cs ≠ [] := by
  rintro rfl
  have hkind := kind_token h
  cases j with
  | null => cases h
  | bool b => cases b <;> cases h
  | _ => cases hkind

/-- A token ends where its characters do. -/
theorem Ended.append_inj {cs cs' r r' : List Char} (hc : ∀ c ∈ cs, isTokenChar c = true)
    (hc' : ∀ c ∈ cs', isTokenChar c = true) (hr : Ended r) (hr' : Ended r')
    (h : cs ++ r = cs' ++ r') : cs = cs' ∧ r = r' := by
  have htake {cs r : List Char} (hc : ∀ c ∈ cs, isTokenChar c = true) (hr : Ended r) :
      (cs ++ r).takeWhile isTokenChar = cs := by
    rw [List.takeWhile_append_of_pos hc]
    cases r with
    | nil => simp
    | cons c r => simp [hr c rfl]
  have hcs : cs = cs' := by rw [← htake hc hr, h, htake hc' hr']
  subst hcs
  exact ⟨rfl, List.append_cancel_left h⟩

end Json

end Runbook
