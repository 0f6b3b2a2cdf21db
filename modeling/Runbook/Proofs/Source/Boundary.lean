/-
  Layout and what follows it.

  Layout may be cut off at any character that is no part of a continuation or of the
  beginning of a comment.  It is `Closed` if each of its comments is ended by a line
  feed, and otherwise ends in a comment that takes in what follows.

  * `Layout.cut`: layout that is cut off is layout;
  * `Longest.before_shared` and `Longest.before_put`: so what is the longest layout is
    told by the text up to such a character;
  * `Layout.closed_or_inComment`: **layout is closed or ends in a comment**;
  * `Closed.splitLayout_append`: closed layout is taken off whatever follows it;
  * `Longest.closed` and `Closed.longest`: before a text at which no layout begins the
    longest layouts are the closed ones.
-/
import Runbook.Proofs.Source.Standing

namespace Runbook.Source

/-! ## Cutting layout off -/

/-- A character that is neither blank at the end of a line nor part of the signs of continuations and
comments. -/
def Bounds (c : Char) : Prop := c ≠ '\\' ∧ c ≠ '\r' ∧ c ≠ '\n' ∧ c ≠ '/'

/-- Layout that goes on with such a character is layout up to it, and up to and with it. -/
theorem Layout.cut {c : Char} (hc : Bounds c) {l : List Char} (h : Layout l) :
    ∀ {s u : List Char}, l = s ++ c :: u → Layout s ∧ Layout (s ++ [c]) := by
  obtain ⟨hb, hr, hn, hs⟩ := hc
  induction h with
  | nil =>
    intro s u e
    cases s <;> cases e
  | @blank d t hd ht ih =>
    intro s u e
    cases s with
    | nil => cases e; exact ⟨.nil, .blank hd .nil⟩
    | cons a s =>
      cases e
      obtain ⟨h₁, h₂⟩ := ih rfl
      exact ⟨.blank hd h₁, .blank hd h₂⟩
  | @continuation t ht ih =>
    intro s u e
    match s, e with
    | [], e => cases e; exact absurd rfl hb
    | [_], e => cases e; exact absurd rfl hn
    | _ :: _ :: s, e =>
      cases e
      obtain ⟨h₁, h₂⟩ := ih rfl
      exact ⟨.continuation h₁, .continuation h₂⟩
  | @returnContinuation t ht ih =>
    intro s u e
    match s, e with
    | [], e => cases e; exact absurd rfl hb
    | [_], e => cases e; exact absurd rfl hr
    | [_, _], e => cases e; exact absurd rfl hn
    | _ :: _ :: _ :: s, e =>
      cases e
      obtain ⟨h₁, h₂⟩ := ih rfl
      exact ⟨.returnContinuation h₁, .returnContinuation h₂⟩
  | @comment text t ht _ ih =>
    intro s u e
    match s, e with
    | [], e => cases e; exact absurd rfl hs
    | [_], e => cases e; exact absurd rfl hs
    | _ :: _ :: s, e =>
      simp only [List.cons_append, List.cons.injEq] at e
      obtain ⟨rfl, rfl, e⟩ := e
      rcases List.append_eq_append_iff.1 e with ⟨a, rfl, rfl⟩ | ⟨a, rfl, -⟩
      · -- the character stands after the comment
        obtain ⟨h₁, h₂⟩ := ih rfl
        exact ⟨.comment ht h₁, by simpa using Layout.comment ht h₂⟩
      · -- the character stands in the comment, or where it ends
        have hline : '\n' ∉ s := fun hm => ht (List.mem_append_left a hm)
        have hline' : '\n' ∉ s ++ [c] := by simp [hline, Ne.symm hn]
        exact ⟨by simpa using Layout.comment hline .nil,
          by simpa using Layout.comment hline' .nil⟩

theorem prefix_append_cons {α : Type} {t s r : List α} {c : α} (h : t <+: s ++ c :: r) :
    t <+: s ∨ ∃ v, t = s ++ c :: v := by
  by_cases hl : t.length ≤ s.length
  · exact .inl (List.prefix_of_prefix_length_le h (List.prefix_append ..) hl)
  · obtain ⟨v, rfl⟩ := List.prefix_of_prefix_length_le (List.prefix_append ..) h (by omega)
    cases v with
    | nil => simp at hl
    | cons d v =>
      rw [List.prefix_append_right_inj, List.cons_prefix_cons] at h
      exact .inr ⟨v, by rw [h.1]⟩

section
variable {c : Char} {layout text rest : List Char}

/-- What follows a character that bounds layout does not tell where layout before it ends. -/
theorem Longest.before_shared (hc : Bounds c) (h : Longest Layout layout (text ++ c :: rest))
    (rest' : List Char) : Longest Layout layout (text ++ c :: rest') := by
  refine ⟨h.1, fun t ht hl => ?_⟩
  rw [← List.append_assoc] at ht
  rcases prefix_append_cons ht with ht | ⟨v, rfl⟩
  · exact h.2 t (by simpa using ht.trans (List.prefix_append _ (c :: rest))) hl
  · have := h.2 (layout ++ text ++ [c]) ⟨rest, by simp⟩ (hl.cut hc rfl).2
    simp only [List.length_append, List.length_singleton] at this
    omega

/-- A character that bounds layout can be put in after what ends it. -/
theorem Longest.before_put (hc : Bounds c) (h : Longest Layout layout (text ++ rest))
    (hn : text ≠ []) (rest' : List Char) : Longest Layout layout (text ++ c :: rest') := by
  refine ⟨h.1, fun t ht hl => ?_⟩
  rw [← List.append_assoc] at ht
  rcases prefix_append_cons ht with ht | ⟨v, rfl⟩
  · exact h.2 t (by simpa using ht.trans (List.prefix_append _ rest)) hl
  · have := h.2 (layout ++ text) (by simp) (hl.cut hc rfl).1
    have := List.length_pos_iff.2 hn
    simp only [List.length_append] at *
    omega

/-- No layout begins where the longest layout ends. -/
theorem Longest.nil (h : Longest Layout layout rest) : Longest Layout [] rest := by
  refine ⟨.nil, fun t ht hl => ?_⟩
  have := h.2 (layout ++ t) (by simpa using ht) (h.1.append hl)
  simp only [List.length_append, List.length_nil] at this ⊢
  omega

end

/-! ## Closed layout -/

/-- Layout whose comments are all ended by a line feed. -/
inductive Closed : List Char → Prop
  | nil : Closed []
  | blank {c : Char} {t : List Char} : isBlank c = true → Closed t → Closed (c :: t)
  | continuation {t : List Char} : Closed t → Closed ('\\' :: '\n' :: t)
  | returnContinuation {t : List Char} : Closed t → Closed ('\\' :: '\r' :: '\n' :: t)
  | comment {text t : List Char} :
      '\n' ∉ text → Closed t → Closed ('/' :: '/' :: (text ++ '\n' :: t))

/-- Layout that ends in a comment which no line feed has ended. -/
def InComment (layout : List Char) : Prop :=
  ∃ s text, layout = s ++ '/' :: '/' :: text ∧ Closed s ∧ '\n' ∉ text

theorem Closed.layout {l : List Char} (h : Closed l) : Layout l := by
  induction h with
  | nil => exact .nil
  | blank hc _ ih => exact .blank hc ih
  | continuation _ ih => exact .continuation ih
  | returnContinuation _ ih => exact .returnContinuation ih
  | comment hn _ ih => exact .comment hn (.blank rfl ih)

theorem Closed.append {s t : List Char} (hs : Closed s) (ht : Closed t) : Closed (s ++ t) := by
  induction hs with
  | nil => exact ht
  | blank hc _ ih => exact .blank hc ih
  | continuation _ ih => exact .continuation ih
  | returnContinuation _ ih => exact .returnContinuation ih
  | comment hn _ ih => simpa using Closed.comment hn ih

/-- Closed layout before layout does not change how it ends. -/
theorem Closed.append_cases {s t : List Char} (hs : Closed s) (ht : Closed t ∨ InComment t) :
    Closed (s ++ t) ∨ InComment (s ++ t) := by
  rcases ht with ht | ⟨u, text, rfl, hu, hn⟩
  · exact .inl (hs.append ht)
  · exact .inr ⟨s ++ u, text, by simp, hs.append hu, hn⟩

/-- **Layout is closed or ends in a comment.**  What stands in a comment up to the line feed need not
be layout on its own, so the second half of the induction puts a comment before the layout. -/
theorem Layout.closed_or_inComment {l : List Char} (h : Layout l) :
    (Closed l ∨ InComment l) ∧ ∀ text, '\n' ∉ text →
      Closed ('/' :: '/' :: (text ++ l)) ∨ InComment ('/' :: '/' :: (text ++ l)) := by
  have ended {text t : List Char} (hn : '\n' ∉ text) (ht : Closed t ∨ InComment t) :
      Closed ('/' :: '/' :: (text ++ '\n' :: t)) ∨ InComment ('/' :: '/' :: (text ++ '\n' :: t)) := by
    simpa using Closed.append_cases (.comment hn .nil) ht
  induction h with
  | nil => exact ⟨.inl .nil, fun text hn => .inr ⟨[], text, by simp, .nil, hn⟩⟩
  | @blank c t hc _ ih =>
    refine ⟨Closed.append_cases (.blank hc .nil) ih.1, fun text hn => ?_⟩
    by_cases hl : c = '\n'
    · subst hl
      exact ended hn ih.1
    · simpa using ih.2 (text ++ [c]) (by simp [hn, Ne.symm hl])
  | continuation _ ih =>
    refine ⟨Closed.append_cases (.continuation .nil) ih.1, fun text hn => ?_⟩
    simpa using @ended (text ++ ['\\']) _ (by simp [hn]) ih.1
  | returnContinuation _ ih =>
    refine ⟨Closed.append_cases (.returnContinuation .nil) ih.1, fun text hn => ?_⟩
    simpa using @ended (text ++ ['\\', '\r']) _ (by simp [hn]) ih.1
  | @comment text' t hn' _ ih =>
    refine ⟨ih.2 text' hn', fun text hn => ?_⟩
    simpa using ih.2 (text ++ '/' :: '/' :: text') (by simp [hn, hn'])

/-- A line feed closes layout. -/
theorem Layout.closed_newline {l : List Char} (h : Layout l) : Closed (l ++ ['\n']) := by
  rcases h.closed_or_inComment.1 with hc | ⟨s, text, rfl, hs, hn⟩
  · exact hc.append (.blank rfl .nil)
  · simpa using hs.append (.comment hn .nil)

theorem splitLayout_append_of_fst {layout rest : List Char}
    (h : (splitLayout (layout ++ rest)).1 = layout ++ (splitLayout rest).1) :
    splitLayout (layout ++ rest) = (layout ++ (splitLayout rest).1, (splitLayout rest).2) := by
  have hall := splitLayout_append (layout ++ rest)
  rw [h, List.append_assoc, List.append_cancel_left_eq] at hall
  exact Prod.ext h (List.append_cancel_left (hall.trans (splitLayout_append rest).symm))

/-- **Closed layout is taken off** together with the layout that follows it. -/
theorem Closed.splitLayout_append {layout : List Char} (h : Closed layout) (rest : List Char) :
    splitLayout (layout ++ rest) = (layout ++ (splitLayout rest).1, (splitLayout rest).2) := by
  refine splitLayout_append_of_fst ?_
  unfold splitLayout
  induction h with
  | nil => rfl
  | blank hc _ ih => rw [List.cons_append, splitLayoutFrom_blank hc, ih, List.cons_append]
  | continuation _ ih => simp [splitLayoutFrom, ih]
  | returnContinuation _ ih => simp [splitLayoutFrom, ih]
  | comment hn _ ih => simp [splitLayoutFrom, splitLayoutFrom_comment hn, ih]

/-- The longest layout before a text is closed. -/
theorem Longest.closed {c : Char} {layout rest : List Char}
    (h : Longest Layout layout (c :: rest)) : Closed layout := by
  rcases h.1.closed_or_inComment.1 with hc | ⟨s, text, rfl, hs, hn⟩
  · exact hc
  · -- the comment would take in the next character
    have hl : Layout ((s ++ '/' :: '/' :: text) ++ [c]) := by
      by_cases hc : c = '\n'
      · subst hc
        exact h.1.closed_newline.layout
      · have hn' : '\n' ∉ text ++ [c] := by simp [hn, Ne.symm hc]
        simpa using hs.layout.append (.comment hn' .nil)
    have := h.2 _ ⟨rest, by simp⟩ hl
    simp only [List.length_append, List.length_singleton] at this
    omega

/-- Closed layout is the longest before a text at which no layout begins. -/
theorem Closed.longest {layout rest : List Char} (h : Closed layout)
    (hr : Longest Layout [] rest) : Longest Layout layout rest := by
  have hn : splitLayout rest = ([], rest) := longest_layout_iff.1 hr
  have hsplit := h.splitLayout_append rest
  rw [hn, List.append_nil] at hsplit
  exact longest_layout_iff.2 hsplit

/-- Layout is closed if exactly it is split off before a parenthesis. -/
theorem closed_iff {layout : List Char} :
    Closed layout ↔ splitLayout (layout ++ ['(']) = (layout, ['(']) := by
  rw [← longest_layout_iff]
  exact ⟨fun h => h.longest (longest_nil_of_ne rfl (by decide) (by decide) _), Longest.closed⟩

instance (layout : List Char) : Decidable (Closed layout) := decidable_of_iff _ closed_iff.symm

/-- At the end of a text every layout is the longest. -/
theorem Layout.longest_end {layout : List Char} (h : Layout layout) : Longest Layout layout [] :=
  ⟨h, fun _ ht _ => by simpa using ht.length_le⟩

end Runbook.Source
