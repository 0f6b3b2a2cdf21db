/-
  Documents that are written alike.

  A value in writing is a token, a string, or brackets around values.  The first
  character shows which, and where it ends shows in itself or in the character after
  it: that what is written `Tells` the content is stated with whatever may follow.

  * `row_inj`: a row of values is told if its values are;
  * `bracket_inj`: so are brackets around it, from empty ones too;
  * `tells_writeAt`: **a value in writing tells its content, at every depth**;
  * `write_eq_write_iff`: **documents are written alike iff they have one content**.
-/
import Runbook.Proofs.Json.Content
import Runbook.Proofs.Json.Strings

namespace Runbook.Json

variable {τ ν : Type}

/-- A comma stands after every item but the last. -/
def Style.Separates (style : Style τ) : Prop := ∃ cs, style.betweenItems.toList = ',' :: cs

theorem ended_of_not_token {c : Char} (h : isTokenChar c = false) (rest : List Char) :
    Ended (c :: rest) := by
  rintro _ ⟨⟩
  exact h

theorem writeItems_eq_map (style : Style τ) (depth : Nat) : ∀ items : List (Json τ),
    writeItems style depth items = items.map (writeAt style depth)
  | [] => rfl
  | j :: js => by rw [writeItems, writeItems_eq_map style depth js, List.map_cons]

/-- A field in writing. -/
def writeField (style : Style τ) (depth : Nat) (e : τ × Json τ) : List Char :=
  writeText style e.1 ++ style.afterKey.toList ++ writeAt style depth e.2

theorem writeFields_eq_map (style : Style τ) (depth : Nat) : ∀ fields : List (τ × Json τ),
    writeFields style depth fields = fields.map (writeField style depth)
  | [] => rfl
  | (k, j) :: fields => by
    rw [writeFields, writeFields_eq_map style depth fields, List.map_cons, writeField]

/-! ## The first character -/

/-- The character that a string or a bracket opens with. -/
def opening? : Json τ → Option Char
  | str _ => some '"'
  | arr _ => some '['
  | obj _ => some '{'
  | _ => none

theorem exists_bracket_cons (style : Style τ) (depth : Nat) (left right : Char)
    (items : List (List Char)) : ∃ cs, bracket style depth left right items = left :: cs := by
  unfold bracket
  split
  · exact ⟨_, rfl⟩
  · exact ⟨_, rfl⟩

theorem exists_writeAt_cons (style : Style τ) (depth : Nat) (j : Json τ) : ∃ c cs,
    writeAt style depth j = c :: cs ∧ j.opening? = if isTokenChar c then none else some c := by
  have htoken {cs : List Char} (h : j.token? = some cs) : ∃ c cs,
      writeAt style depth j = c :: cs ∧ none = if isTokenChar c then none else some c := by
    obtain ⟨c, cs, rfl⟩ := List.exists_cons_of_ne_nil (ne_nil_of_token h)
    have hc := isTokenChar_of_token h c List.mem_cons_self
    exact ⟨c, cs, writeAt_of_token h style depth, by rw [if_pos hc]⟩
  cases j with
  | str s => exact ⟨_, _, by rw [writeAt, writeText], rfl⟩
  | arr items =>
    obtain ⟨cs, hcs⟩ := exists_bracket_cons style depth '[' ']' (writeItems style (depth + 1) items)
    exact ⟨_, cs, by rw [writeAt, hcs], rfl⟩
  | obj fields =>
    obtain ⟨cs, hcs⟩ :=
      exists_bracket_cons style depth '{' '}' (writeFields style (depth + 1) fields)
    exact ⟨_, cs, by rw [writeAt, hcs], rfl⟩
  | _ => exact htoken rfl

theorem opening?_eq_none_iff {j : Json τ} : j.opening? = none ↔ ∃ cs, j.token? = some cs := by
  cases j <;> simp [opening?, token?]

theorem opening?_eq {style : Style τ} {depth : Nat} {j j' : Json τ} {r r' : List Char}
    (h : writeAt style depth j ++ r = writeAt style depth j' ++ r') : j.opening? = j'.opening? := by
  obtain ⟨c, cs, hcs, ho⟩ := exists_writeAt_cons style depth j
  obtain ⟨c', cs', hcs', ho'⟩ := exists_writeAt_cons style depth j'
  rw [hcs, hcs'] at h
  rw [ho, ho', (List.cons.inj h).1]

/-! ## Rows of values -/

/-- What `f` writes for `a` tells the value of `g` there, whatever follows it. -/
def Tells {α β : Type} (f : α → List Char) (g : α → β) (a : α) : Prop :=
  ∀ a' r r', Ended r → Ended r' → f a ++ r = f a' ++ r' → g a = g a' ∧ r = r'

/-- The end of brackets with these items after another one. -/
def closing (style : Style τ) (depth : Nat) (right : Char) : List (List Char) → List Char
  | [] => newline style depth ++ [right]
  | t :: ts => style.betweenItems.toList ++ (newline style (depth + 1) ++
      (t ++ closing style depth right ts))

theorem bracket_cons (style : Style τ) (depth : Nat) (left right : Char) (t : List Char)
    (ts : List (List Char)) : bracket style depth left right (t :: ts) =
      left :: (newline style (depth + 1) ++ (t ++ closing style depth right ts)) := by
  have hrow (t : List Char) : (style.betweenItems.toList ++ newline style (depth + 1)).intercalate
      (t :: ts) ++ newline style depth ++ [right] = t ++ closing style depth right ts := by
    induction ts generalizing t with
    | nil => simp [closing]
    | cons u us ih =>
      rw [List.intercalate_cons_cons, closing]
      simp only [List.append_assoc] at ih ⊢
      rw [ih]
  simp [bracket, ← hrow]

theorem newline_cases (style : Style τ) (depth : Nat) :
    newline style depth = [] ∨ ∃ cs, newline style depth = '\n' :: cs := by
  unfold newline
  split
  · exact .inl rfl
  · exact .inr ⟨_, rfl⟩

theorem closing_bracket_ne : ∀ right ∈ [']', '}'], isTokenChar right = false ∧ right ≠ ',' ∧ right ≠ '\n' :=
  List.forall_mem_cons.2 ⟨by decide, List.forall_mem_singleton.2 (by decide)⟩

section
variable {style : Style τ} (hs : style.Separates) {depth : Nat} {left right : Char}
  (hright : right ∈ [']', '}'])
include hs hright

variable (depth) in
theorem exists_closing_cons (ts : List (List Char)) : ∃ c cs,
    closing style depth right ts = c :: cs ∧ isTokenChar c = false ∧ (ts = [] ↔ c ≠ ',') := by
  cases ts with
  | nil =>
    have hr := closing_bracket_ne right hright
    rcases newline_cases style depth with hn | ⟨cs, hn⟩
    · exact ⟨right, [], by rw [closing, hn]; rfl, hr.1, by simp [hr.2.1]⟩
    · exact ⟨'\n', cs ++ [right], by rw [closing, hn]; rfl, by decide, by simp⟩
  | cons t ts =>
    obtain ⟨cs, hcs⟩ := hs
    exact ⟨',', _, by rw [closing, hcs]; rfl, by decide, by simp⟩

theorem ended_closing (ts : List (List Char)) (r : List Char) :
    Ended (closing style depth right ts ++ r) := by
  obtain ⟨c, cs, hcs, hc, -⟩ := exists_closing_cons hs depth hright ts
  rw [hcs]
  exact ended_of_not_token hc _

/-- Whether there is one more item shows. -/
theorem closing_eq_nil_iff {ts ts' : List (List Char)} {r r' : List Char}
    (h : closing style depth right ts ++ r = closing style depth right ts' ++ r') :
    ts = [] ↔ ts' = [] := by
  obtain ⟨c, cs, hcs, -, hc⟩ := exists_closing_cons hs depth hright ts
  obtain ⟨c', cs', hcs', -, hc'⟩ := exists_closing_cons hs depth hright ts'
  rw [hcs, hcs'] at h
  rw [hc, hc', (List.cons.inj h).1]

theorem row_inj {α β : Type} {f : α → List Char} {g : α → β} {a a' : α} {as as' : List α}
    (h : ∀ b ∈ a :: as, Tells f g b) {r r' : List Char}
    (heq : f a ++ (closing style depth right (as.map f) ++ r) =
      f a' ++ (closing style depth right (as'.map f) ++ r')) :
    (a :: as).map g = (a' :: as').map g ∧ r = r' := by
  induction as generalizing a a' as' with
  | nil =>
    obtain ⟨ha, heq⟩ := h a List.mem_cons_self a' _ _ (ended_closing hs hright _ r)
      (ended_closing hs hright _ r') heq
    cases as' with
    | nil => exact ⟨by rw [List.map_cons, List.map_cons, ha], List.append_cancel_left heq⟩
    | cons b' bs' => cases (closing_eq_nil_iff hs hright heq).1 rfl
  | cons b bs ih =>
    obtain ⟨ha, heq⟩ := h a List.mem_cons_self a' _ _ (ended_closing hs hright _ r)
      (ended_closing hs hright _ r') heq
    cases as' with
    | nil => cases (closing_eq_nil_iff hs hright heq).2 rfl
    | cons b' bs' =>
      simp only [List.map_cons, closing, List.append_assoc] at heq
      have heq := List.append_cancel_left (List.append_cancel_left heq)
      obtain ⟨hbs, hr⟩ := ih (fun c hc => h c (.tail _ hc)) heq
      exact ⟨by rw [List.map_cons, ha, hbs]; rfl, hr⟩

omit hs in
/-- Empty brackets close where others have an item. -/
theorem bracket_nil_ne {c : Char} (hc : c ≠ right) (cs : List Char) (ts : List (List Char))
    (r r' : List Char) : bracket style depth left right [] ++ r ≠
      bracket style depth left right ((c :: cs) :: ts) ++ r' := by
  rw [bracket_cons]
  intro h
  rcases newline_cases style (depth + 1) with hn | ⟨ds, hn⟩
  · rw [hn] at h
    exact hc (List.cons.inj (List.cons.inj h).2).1.symm
  · rw [hn] at h
    exact (closing_bracket_ne right hright).2.2 (List.cons.inj (List.cons.inj h).2).1

theorem bracket_inj {α β : Type} {f : α → List Char} {g : α → β} {as as' : List α}
    (hf : ∀ a, ∃ c cs, f a = c :: cs ∧ c ≠ right) (h : ∀ a ∈ as, Tells f g a) {r r' : List Char}
    (heq : bracket style depth left right (as.map f) ++ r =
      bracket style depth left right (as'.map f) ++ r') : as.map g = as'.map g ∧ r = r' := by
  have hempty (a : α) (as : List α) (r r' : List Char) :
      bracket style depth left right [] ++ r ≠
        bracket style depth left right ((a :: as).map f) ++ r' := by
    obtain ⟨c, cs, hcs, hc⟩ := hf a
    rw [List.map_cons, hcs]
    exact bracket_nil_ne hright hc cs _ r r'
  cases as with
  | nil =>
    cases as' with
    | nil => exact ⟨rfl, List.append_cancel_left heq⟩
    | cons a' as' => exact absurd heq (hempty a' as' r r')
  | cons a as =>
    cases as' with
    | nil => exact absurd heq.symm (hempty a as r' r)
    | cons a' as' =>
      simp only [List.map_cons, bracket_cons, List.cons_append, List.append_assoc] at heq
      exact row_inj hs hright h (List.append_cancel_left (List.cons.inj heq).2)

end

/-! ## Documents -/

section
variable {style : Style τ} {view : τ → ν} (hv : style.Shows view)
include hv

theorem tells_writeField {depth : Nat} {e : τ × Json τ}
    (h : Tells (writeAt style depth) (content view) e.2) :
    Tells (writeField style depth) (fun e => (view e.1, content view e.2)) e := by
  intro e' r r' hr hr' heq
  simp only [writeField, List.append_assoc] at heq
  obtain ⟨hkey, heq⟩ := hv.writeText_append_inj heq
  obtain ⟨hvalue, hrest⟩ := h e'.2 r r' hr hr' (List.append_cancel_left heq)
  exact ⟨Prod.ext hkey hvalue, hrest⟩

omit hv in
/-- What a value is written as does not open with the end of brackets. -/
theorem exists_writeAt_cons_ne (style : Style τ) (depth : Nat) {right : Char}
    (hright : right ∈ [']', '}']) (j : Json τ) :
    ∃ c cs, writeAt style depth j = c :: cs ∧ c ≠ right := by
  obtain ⟨c, cs, hcs, ho⟩ := exists_writeAt_cons style depth j
  refine ⟨c, cs, hcs, ?_⟩
  rintro rfl
  rw [(closing_bracket_ne c hright).1] at ho
  cases j with
  | str | arr | obj => cases ho; revert hright; decide
  | _ => cases ho

/-- **A value in writing tells its content**, in any style that separates items. -/
theorem tells_writeAt (hs : style.Separates) (j : Json τ) :
    ∀ depth, Tells (writeAt style depth) (content view) j := by
  induction j using induction_on with
  | token j cs hcs =>
    intro depth j' r r' hr hr' heq
    obtain ⟨cs', hcs'⟩ :=
      opening?_eq_none_iff.1 ((opening?_eq heq).symm.trans (opening?_eq_none_iff.2 ⟨cs, hcs⟩))
    rw [writeAt_of_token hcs, writeAt_of_token hcs'] at heq
    obtain ⟨rfl, hrest⟩ := Ended.append_inj (isTokenChar_of_token hcs) (isTokenChar_of_token hcs')
      hr hr' heq
    exact ⟨content_eq_of_token view hcs hcs', hrest⟩
  | str s =>
    intro depth j' r r' _ _ heq
    have hopen := opening?_eq heq
    cases j' with
    | str t =>
      obtain ⟨hst, hrest⟩ := hv.writeText_append_inj heq
      exact ⟨congrArg Content.str hst, hrest⟩
    | _ => cases hopen
  | arr items ih =>
    intro depth j' r r' _ _ heq
    have hopen := opening?_eq heq
    cases j' with
    | arr items' =>
      simp only [writeAt, writeItems_eq_map] at heq
      obtain ⟨hitems, hrest⟩ := bracket_inj hs (by decide)
        (exists_writeAt_cons_ne style (depth + 1) (by decide)) (fun j hj => ih j hj (depth + 1)) heq
      exact ⟨by rw [content, content, contentItems_eq_map, hitems, contentItems_eq_map], hrest⟩
    | _ => cases hopen
  | obj fields ih =>
    intro depth j' r r' _ _ heq
    have hopen := opening?_eq heq
    cases j' with
    | obj fields' =>
      simp only [writeAt, writeFields_eq_map] at heq
      have hquote (e : τ × Json τ) :
          ∃ c cs, writeField style (depth + 1) e = c :: cs ∧ c ≠ '}' := ⟨'"', _, rfl, by decide⟩
      obtain ⟨hfields, hrest⟩ := bracket_inj hs (by decide) hquote
        (fun e he => tells_writeField hv (ih e he (depth + 1))) heq
      exact ⟨by rw [content, content, contentFields_eq_map, hfields, contentFields_eq_map], hrest⟩
    | _ => cases hopen

/-! ## Documents of one content -/

omit hv in
/-- What a row shows of `f` follows from what it shows of `g`, if it does for each item. -/
theorem map_eq_of_map_eq {α β γ : Type} {f : α → γ} {g : α → β} : ∀ {as as' : List α},
    (∀ a ∈ as, ∀ a', g a = g a' → f a = f a') → as.map g = as'.map g → as.map f = as'.map f
  | [], [], _, _ => rfl
  | [], _ :: _, _, h => by cases h
  | _ :: _, [], _, h => by cases h
  | a :: as, a' :: as', hf, h => by
    obtain ⟨ha, has⟩ := List.cons.inj h
    rw [List.map_cons, List.map_cons, hf a List.mem_cons_self a' ha,
      map_eq_of_map_eq (fun b hb => hf b (.tail _ hb)) has]

theorem writeAt_eq_of_content (j : Json τ) : ∀ depth (j' : Json τ),
    j.content view = j'.content view → writeAt style depth j = writeAt style depth j' := by
  induction j using induction_on with
  | token j cs hcs =>
    intro depth j' h
    rw [writeAt_of_token hcs, writeAt_of_token ((token?_eq_of_content h).symm.trans hcs)]
  | str s =>
    intro depth j' h
    cases j' with
    | str t => rw [writeAt, writeAt, writeText, writeText, hv.alike (Content.str.inj h)]
    | _ => cases h
  | arr items ih =>
    intro depth j' h
    cases j' with
    | arr items' =>
      simp only [content, contentItems_eq_map, Content.list.injEq] at h
      rw [writeAt, writeAt, writeItems_eq_map, writeItems_eq_map,
        map_eq_of_map_eq (fun a ha => ih a ha (depth + 1)) h]
    | _ => cases h
  | obj fields ih =>
    intro depth j' h
    cases j' with
    | obj fields' =>
      simp only [content, contentFields_eq_map, Content.map.injEq] at h
      have hfield (e : τ × Json τ) (he : e ∈ fields) (e' : τ × Json τ)
          (heq : (view e.1, e.2.content view) = (view e'.1, e'.2.content view)) :
          writeField style (depth + 1) e = writeField style (depth + 1) e' := by
        obtain ⟨hkey, hvalue⟩ := Prod.mk.inj heq
        rw [writeField, writeField, writeText, writeText, hv.alike hkey, ih e he (depth + 1) e'.2 hvalue]
      rw [writeAt, writeAt, writeFields_eq_map, writeFields_eq_map, map_eq_of_map_eq hfield h]
    | _ => cases h

/-- **Documents are written alike iff they have one content.** -/
theorem write_eq_write_iff (hs : style.Separates) {j j' : Json τ} :
    write style j = write style j' ↔ j.content view = j'.content view := by
  constructor
  · intro h
    have h : writeAt style 0 j ++ [] = writeAt style 0 j' ++ [] :=
      congrArg (· ++ []) (String.ofList_inj.1 h)
    have hend : Ended [] := by rintro _ ⟨⟩
    exact (tells_writeAt hv hs j 0 j' [] [] hend hend h).1
  · intro h
    rw [write, write, writeAt_eq_of_content hv j 0 j' h]

end

end Runbook.Json
