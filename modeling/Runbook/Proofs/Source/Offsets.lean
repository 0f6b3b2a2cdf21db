/-
  Offsets in a text, from places and back.

  A place has some lines before it and some characters before it in its own line, and
  so it tells how many characters of the source go before it (`Location.offset`).

  * `ofOffset_newline` and `ofOffset_cons`: what one more character at the front of
    the source does to places;
  * `offset_ofOffset`: **an offset is recovered from its place**, also past the end;
  * `lt_iff_before`: offsets and their places are in one order;
  * `ofOffset_numbering`: places number the offsets of a source, in their order and
    line by line.
-/
import Mathlib.Algebra.GroupWithZero.Nat
import Runbook.Proofs.Source.Location

namespace Runbook.Source

/-- The lines of a text, without the line feeds between them. -/
def lines (text : List Char) : List (List Char) := text.splitOn '\n'

theorem lines_newline (text : List Char) : lines ('\n' :: text) = [] :: lines text := by
  simp [lines, List.splitOn, List.splitOnP_cons_eq_if_modifyHead]

theorem lines_cons {c : Char} (hc : c ≠ '\n') (text : List Char) :
    lines (c :: text) = (lines text).modifyHead (c :: ·) := by
  simp [lines, List.splitOn, List.splitOnP_cons_eq_if_modifyHead, hc]

theorem lines_ne_nil (text : List Char) : lines text ≠ [] := List.splitOnP_ne_nil _ text

namespace Location

/-- The number of characters before a place: those of the lines before its own, each with its line
feed, and those before it in its own line. -/
def offset (source : List Char) (l : Location) : Nat :=
  (((lines source).take (l.line - 1)).map fun line => line.length + 1).sum + (l.column - 1)

/-! ## Places of a longer source -/

theorem after_cons (l : Location) (c : Char) (text : List Char) :
    l.after (c :: text) = (l.next c).after text := rfl

/-- A text that begins further to the right stays there until a line feed comes. -/
theorem after_indent (width : Nat) (text : List Char) (l : Location) :
    (⟨l.line, l.column + width⟩ : Location).after text =
      if '\n' ∈ text then l.after text
      else ⟨(l.after text).line, (l.after text).column + width⟩ := by
  induction text generalizing l with
  | nil => rfl
  | cons c text ih =>
    rw [after_cons, after_cons]
    by_cases hc : c = '\n'
    · simp [next, hc]
    · have hnext : (⟨l.line, l.column + width⟩ : Location).next c =
          ⟨(l.next c).line, (l.next c).column + width⟩ := by
        simp only [next, if_neg hc, Nat.add_right_comm]
      rw [hnext, ih]
      simp [Ne.symm hc]

theorem line_ofOffset (source : List Char) (n : Nat) :
    (ofOffset source n).line = 1 + (source.take n).count '\n' :=
  line_after ..

theorem ofOffset_zero (source : List Char) : ofOffset source 0 = start := by
  simp [ofOffset, after]

/-- Behind a line feed at the front of the source everything stands one line further down. -/
theorem ofOffset_newline (source : List Char) (n : Nat) : ofOffset ('\n' :: source) (n + 1) =
    ⟨(ofOffset source n).line + 1, (ofOffset source n).column⟩ := by
  have h := after_shift 1 (source.take n) start
  have hcons : start.after ('\n' :: source.take n) =
      (⟨start.line + 1, start.column⟩ : Location).after (source.take n) := rfl
  simp [ofOffset, hcons, h]

/-- Behind another character at the front of the source what was in the first line stands one
column further to the right. -/
theorem ofOffset_cons {c : Char} (hc : c ≠ '\n') (source : List Char) (n : Nat) :
    ofOffset (c :: source) (n + 1) =
      if (ofOffset source n).line = 1 then ⟨1, (ofOffset source n).column + 1⟩
      else ofOffset source n := by
  have hcons : start.after (c :: source.take n) =
      (⟨start.line, start.column + 1⟩ : Location).after (source.take n) := by
    rw [after_cons, next, if_neg hc]
  have hline : (ofOffset source n).line = 1 ↔ '\n' ∉ source.take n := by
    rw [line_ofOffset, ← List.count_eq_zero]
    omega
  have h := after_indent 1 (source.take n) start
  by_cases hn : '\n' ∈ source.take n
  · rw [if_neg (fun h => hline.1 h hn)]
    simp [ofOffset, hcons, h, hn]
  · have hone := hline.2 hn
    rw [if_pos hone]
    simp only [ofOffset] at hone
    simp [ofOffset, hcons, h, hn, hone, Nat.add_right_comm]

theorem column_ofOffset_pos (source : List Char) (n : Nat) : 1 ≤ (ofOffset source n).column := by
  induction source generalizing n with
  | nil => simp [ofOffset, after, start]
  | cons c source ih =>
    cases n with
    | zero => rw [ofOffset_zero]; exact Nat.le_refl 1
    | succ n =>
      by_cases hc : c = '\n'
      · subst hc
        rw [ofOffset_newline]
        exact ih n
      · rw [ofOffset_cons hc]
        split
        · exact Nat.le_add_left ..
        · exact ih n

/-! ## Recovering offsets -/

/-- One more line at the front of the source is one more line before every place below it. -/
theorem offset_newline (source : List Char) {l : Location} (hl : 1 ≤ l.line) :
    offset ('\n' :: source) ⟨l.line + 1, l.column⟩ = l.offset source + 1 := by
  obtain ⟨k, hk⟩ := Nat.exists_eq_add_of_le' hl
  simp only [offset, lines_newline, hk, Nat.add_sub_cancel, List.take_succ_cons, List.map_cons,
    List.sum_cons, List.length_nil]
  omega

/-- One more character in the first line is one more character before every place below it. -/
theorem offset_cons {c : Char} (hc : c ≠ '\n') (source : List Char) {l : Location}
    (hl : 1 < l.line) : l.offset (c :: source) = l.offset source + 1 := by
  obtain ⟨k, hk⟩ := Nat.exists_eq_add_of_le' hl
  obtain ⟨first, others, hlines⟩ := List.exists_cons_of_ne_nil (lines_ne_nil source)
  have hline : l.line - 1 = k + 1 := by omega
  simp only [offset, lines_cons hc, hlines, hline, List.modifyHead_cons, List.take_succ_cons,
    List.map_cons, List.sum_cons, List.length_cons]
  omega

/-- **An offset is recovered from its place.** -/
theorem offset_ofOffset (source : List Char) (n : Nat) :
    (ofOffset source n).offset source = n := by
  induction source generalizing n with
  | nil => simp [ofOffset, after, start, offset]
  | cons c source ih =>
    cases n with
    | zero => rw [ofOffset_zero]; rfl
    | succ n =>
      have hline : 1 ≤ (ofOffset source n).line := by rw [line_ofOffset]; omega
      by_cases hc : c = '\n'
      · subst hc
        rw [ofOffset_newline, offset_newline source hline, ih]
      · rw [ofOffset_cons hc]
        split
        · next hone =>
          -- in the first line only the column counts
          have hn := ih n
          have hcolumn := column_ofOffset_pos source n
          simp only [offset, hone, Nat.sub_self, List.take_zero, List.map_nil, List.sum_nil] at hn ⊢
          omega
        · rw [offset_cons hc source (by omega), ih]

/-- Offsets and their places are in one order. -/
theorem lt_iff_before (source : List Char) {m n : Nat} :
    m < n ↔ (ofOffset source m).Before (ofOffset source n) := by
  refine ⟨before_ofOffset source, fun h => ?_⟩
  -- two places cannot each come before the other
  have asymm {l l' : Location} (h : l.Before l') (h' : l'.Before l) : False := by
    unfold Before at h h'
    omega
  rcases Nat.lt_trichotomy m n with hlt | rfl | hgt
  · exact hlt
  · exact (asymm h h).elim
  · exact (asymm h (before_ofOffset source hgt)).elim

/-- **Places number the offsets of a source.**  They begin at line 1, column 1 and come in the order
of their offsets, also past the end; the line counts the line feeds before the offset, and the
offset is what the lines before it and the column make up. -/
theorem ofOffset_numbering (source : List Char) :
    ofOffset source 0 = ⟨1, 1⟩ ∧
      (∀ m n, m < n ↔ (ofOffset source m).Before (ofOffset source n)) ∧
      ∀ n, (ofOffset source n).line = 1 + (source.take n).count '\n' ∧
        1 ≤ (ofOffset source n).column ∧ (ofOffset source n).offset source = n :=
  ⟨ofOffset_zero source, fun _ _ => lt_iff_before source, fun n =>
    ⟨line_ofOffset source n, column_ofOffset_pos source n, offset_ofOffset source n⟩⟩

/-- An offset in the second line, and one past the end. -/
example : ofOffset "ab\ncd".toList 4 = ⟨2, 2⟩ ∧ ofOffset "ab\ncd".toList 7 = ⟨2, 5⟩ := by decide

end Location

end Runbook.Source
