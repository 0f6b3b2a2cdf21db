/-
  Places in a text, as numbers of lines and columns.

  A place comes before another one if its line does, or if it stands further left in
  the same line.

  * `line_after` and `after_newline`: a line feed ends a line, and begins the next;
  * `after_shift`: what stands before a line does not change the columns in it;
  * `before_ofOffset`: **places come in the order of their offsets**;
  * `ofOffset_inj`: so an offset is known by its place.
-/
import Mathlib.Tactic.Common
import Runbook.Source.SyntaxError

namespace Runbook.Source.Location

/-! ## Lines -/

/-- The line grows with every line feed. -/
theorem line_after (text : List Char) (l : Location) :
    (l.after text).line = l.line + text.count '\n' := by
  induction text generalizing l with
  | nil => rfl
  | cons c text ih =>
    have hcons : l.after (c :: text) = (l.next c).after text := rfl
    rw [hcons, ih, next]
    by_cases h : c = '\n'
    · simp only [h, if_true, List.count_cons_self]
      omega
    · simp only [h, if_false, List.count_cons_of_ne h]

/-- A line feed leads to the first column of the next line. -/
theorem after_newline (text : List Char) (l : Location) :
    l.after (text ++ ['\n']) = ⟨l.line + text.count '\n' + 1, 1⟩ := by
  rw [after_append, ← line_after]
  rfl

/-- A text begins some lines further down if it is put there. -/
theorem after_shift (lines : Nat) (text : List Char) (l : Location) :
    (⟨l.line + lines, l.column⟩ : Location).after text =
      ⟨(l.after text).line + lines, (l.after text).column⟩ := by
  induction text generalizing l with
  | nil => rfl
  | cons c text ih =>
    have hnext : (⟨l.line + lines, l.column⟩ : Location).next c =
        ⟨(l.next c).line + lines, (l.next c).column⟩ := by
      unfold next
      split
      · simp only [Nat.add_right_comm]
      · rfl
    have hcons (l : Location) : l.after (c :: text) = (l.next c).after text := rfl
    rw [hcons, hcons, hnext, ih]

/-! ## Offsets -/

/-- The offset after a beginning of the source has the place after it. -/
theorem ofOffset_length (before rest : List Char) :
    ofOffset (before ++ rest) before.length = start.after before := by
  simp [ofOffset]

/-- A place comes before another one in the order of reading. -/
def Before (l l' : Location) : Prop :=
  l.line < l'.line ∨ l.line = l'.line ∧ l.column < l'.column

theorem Before.trans {l l' l'' : Location} (h : l.Before l') (h' : l'.Before l'') :
    l.Before l'' := by
  unfold Before at *
  omega

theorem before_next (l : Location) (c : Char) : l.Before (l.next c) := by
  unfold Before next
  split
  · exact .inl (Nat.lt_succ_self _)
  · exact .inr ⟨rfl, Nat.lt_succ_self _⟩

/-- A place comes before the place after some text. -/
theorem before_after (c : Char) (text : List Char) (l : Location) :
    l.Before (l.after (c :: text)) := by
  induction text generalizing c l with
  | nil => exact before_next l c
  | cons d text ih => exact (before_next l c).trans (ih d (l.next c))

/-- **Places come in the order of their offsets**, also past the end of the source. -/
theorem before_ofOffset (source : List Char) {m n : Nat} (h : m < n) :
    (ofOffset source m).Before (ofOffset source n) := by
  obtain ⟨k, rfl⟩ := Nat.exists_eq_add_of_lt h
  simp only [ofOffset]
  rw [Nat.add_assoc, List.take_add, after_append]
  cases ht : (source.drop m).take (k + 1) with
  | nil =>
    have hlength : source.length ≤ m := by simpa using ht
    refine .inr ⟨rfl, ?_⟩
    simp only [after, List.foldl_nil]
    omega
  | cons c text =>
    have hlength : m < source.length := by
      by_contra hle
      rw [List.drop_eq_nil_of_le (by omega)] at ht
      cases ht
    have hbefore := before_after c text (start.after (source.take m))
    simp only [Before] at hbefore ⊢
    omega

/-- **An offset is known by its place.** -/
theorem ofOffset_inj (source : List Char) {m n : Nat} :
    ofOffset source m = ofOffset source n ↔ m = n := by
  refine ⟨fun h => ?_, fun h => by rw [h]⟩
  have irrefl (l : Location) : ¬ l.Before l := by unfold Before; omega
  rcases Nat.lt_trichotomy m n with hlt | heq | hgt
  · exact absurd (h ▸ before_ofOffset source hlt) (irrefl _)
  · exact heq
  · exact absurd (h ▸ before_ofOffset source hgt) (irrefl _)

end Runbook.Source.Location
