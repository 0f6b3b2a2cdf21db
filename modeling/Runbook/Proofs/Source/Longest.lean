/-
  Longest matches: layout, and runs of characters of one class.

  `Layout` is the language of what may stand between the parts of a program, and
  `Run p` that of the runs of a class of characters.  A text is the longest match
  of a language at its position if no longer text of the language begins there.

  * `longest_layout_iff`: **splitting off layout takes the longest layout**;
  * `longest_nil`: where no layout begins;
  * `longest_run_iff`: a run is longest if what follows does not go on with it;
  * `takeWhile_of_longest` and `longest_of_takeWhile`: taking characters of a
    class takes the longest run.
-/
import Mathlib.Tactic.Common
import Runbook.Source.Layout

namespace Runbook.Source

/-- A text is the longest of a language that begins at its position. -/
def Longest (L : List Char → Prop) (text rest : List Char) : Prop :=
  L text ∧ ∀ t, t <+: text ++ rest → L t → t.length ≤ text.length

/-- There is only one longest match. -/
theorem Longest.unique {L : List Char → Prop} {s t r q : List Char} (hs : Longest L s r)
    (ht : Longest L t q) (h : s ++ r = t ++ q) : s = t ∧ r = q := by
  have hl : s.length = t.length :=
    Nat.le_antisymm (ht.2 s (h ▸ List.prefix_append ..) hs.1)
      (hs.2 t (h ▸ List.prefix_append ..) ht.1)
  exact List.append_inj h hl

/-! ## Layout -/

/-- Blanks, line continuations and comments in a row.  A comment holds no line end; it goes on to
the next one wherever the longest layout is taken. -/
inductive Layout : List Char → Prop
  | nil : Layout []
  | blank {c : Char} {t : List Char} : isBlank c = true → Layout t → Layout (c :: t)
  | continuation {t : List Char} : Layout t → Layout ('\\' :: '\n' :: t)
  | returnContinuation {t : List Char} : Layout t → Layout ('\\' :: '\r' :: '\n' :: t)
  | comment {text t : List Char} : '\n' ∉ text → Layout t → Layout ('/' :: '/' :: (text ++ t))

theorem Layout.append {s t : List Char} (hs : Layout s) (ht : Layout t) : Layout (s ++ t) := by
  induction hs with
  | nil => exact ht
  | blank hc _ ih => exact .blank hc ih
  | continuation _ ih => exact .continuation ih
  | returnContinuation _ ih => exact .returnContinuation ih
  | comment hn _ ih => simpa using Layout.comment hn ih

/-- A comment can be lengthened by anything but a line end. -/
theorem Layout.lengthen {c : Char} {l : List Char} (hc : c ≠ '\n') (h : Layout ('/' :: '/' :: l)) :
    Layout ('/' :: '/' :: c :: l) := by
  cases h with
  | blank hb => cases hb
  | @comment text t hn ht =>
    have hn' : '\n' ∉ c :: text := fun hm => (List.mem_cons.1 hm).elim (hc ·.symm) hn
    exact .comment hn' ht

/-- What is split off is layout; inside a comment, it is so after the comment's beginning. -/
theorem layout_splitLayoutFrom (b : Bool) (cs : List Char) :
    Layout ((if b then ['/', '/'] else []) ++ (splitLayoutFrom b cs).1) := by
  fun_induction splitLayoutFrom b cs with
  | case1 b =>
    cases b with
    | false => exact .nil
    | true => exact .comment List.not_mem_nil .nil
  | case2 c cs layout rest hs ih =>
    rw [hs] at ih
    by_cases hc : c = '\n'
    · subst hc
      exact .comment List.not_mem_nil (.blank rfl (by simpa using ih))
    · exact .lengthen hc (by simpa [hc] using ih)
  | case3 cs layout rest hs ih => exact .continuation (by simpa [hs] using ih)
  | case4 cs layout rest hs ih => exact .returnContinuation (by simpa [hs] using ih)
  | case5 cs layout rest hs ih => simpa [hs] using ih
  | case6 c cs _ _ _ hc layout rest hs ih => exact .blank hc (by simpa [hs] using ih)
  | case7 => exact .nil

theorem splitLayoutFrom_blank {c : Char} (hc : isBlank c = true) (cs : List Char) :
    (splitLayoutFrom false (c :: cs)).1 = c :: (splitLayoutFrom false cs).1 := by
  rw [splitLayoutFrom]
  · simp [hc]
  all_goals rintro _ rfl; cases hc

/-- Inside a comment everything is taken up to the line end. -/
theorem splitLayoutFrom_comment {text : List Char} (hn : '\n' ∉ text) (cs : List Char) :
    (splitLayoutFrom true (text ++ cs)).1 = text ++ (splitLayoutFrom true cs).1 := by
  induction text with
  | nil => rfl
  | cons c text ih =>
    obtain ⟨hc, hn⟩ := not_or.1 fun h => hn (List.mem_cons.2 h)
    simp [splitLayoutFrom, Ne.symm hc, ih hn]

/-- No layout at the front of a text is longer than the one that is split off. -/
theorem Layout.length_le {t : List Char} (h : Layout t) :
    ∀ (b : Bool) (cs : List Char), t <+: cs → t.length ≤ (splitLayoutFrom b cs).1.length := by
  induction h with
  | nil => exact fun _ _ _ => Nat.zero_le _
  | @blank c t hc _ ih =>
    rintro b _ ⟨r, rfl⟩
    cases b with
    | false =>
      rw [List.cons_append, splitLayoutFrom_blank hc]
      exact Nat.succ_le_succ (ih false _ ⟨r, rfl⟩)
    | true => exact Nat.succ_le_succ (ih _ _ ⟨r, rfl⟩)
  | continuation _ ih =>
    rintro b _ ⟨r, rfl⟩
    have := ih false _ ⟨r, rfl⟩
    cases b <;> simpa [splitLayoutFrom] using this
  | returnContinuation _ ih =>
    rintro b _ ⟨r, rfl⟩
    have := ih false _ ⟨r, rfl⟩
    cases b <;> simpa [splitLayoutFrom] using this
  | @comment text t hn _ ih =>
    rintro b _ ⟨r, rfl⟩
    have := ih true _ ⟨r, rfl⟩
    cases b <;> simpa [splitLayoutFrom, splitLayoutFrom_comment hn] using this

/-- **Splitting off layout takes the longest layout.** -/
theorem longest_layout_iff {text rest : List Char} :
    Longest Layout text rest ↔ splitLayout (text ++ rest) = (text, rest) := by
  have hs : Longest Layout (splitLayout (text ++ rest)).1 (splitLayout (text ++ rest)).2 := by
    refine ⟨layout_splitLayoutFrom false (text ++ rest), fun t ht h => ?_⟩
    rw [splitLayout_append] at ht
    exact h.length_le false _ ht
  constructor
  · intro h
    obtain ⟨h₁, h₂⟩ := hs.unique h (splitLayout_append _)
    exact Prod.ext h₁ h₂
  · intro h
    rwa [h] at hs

/-- No layout is left where the longest was taken. -/
theorem Longest.eq_nil_of_layout {text layout : List Char} (h : Longest Layout text layout)
    (hl : Layout layout) : layout = [] := by
  have := h.2 (text ++ layout) (List.prefix_refl _) (h.1.append hl)
  rw [List.length_append] at this
  exact List.eq_nil_of_length_eq_zero (by omega)

theorem longest_nil_end : Longest Layout [] [] := longest_layout_iff.2 rfl

/-- No layout begins at a character that is no blank and begins no continuation and no comment. -/
theorem longest_nil {c : Char} {cs : List Char} (hb : isBlank c = false)
    (hs : c = '\\' → ∀ d ∈ cs.head?, isBlank d = true → d = ' ')
    (hc : c = '/' → cs.head? ≠ some '/') : Longest Layout [] (c :: cs) := by
  refine longest_layout_iff.2 ?_
  rw [List.nil_append, splitLayout, splitLayoutFrom]
  · simp [hb]
  · rintro cs rfl rfl
    exact absurd (hs rfl '\n' rfl rfl) (by decide)
  · rintro cs rfl rfl
    exact absurd (hs rfl '\r' rfl rfl) (by decide)
  · rintro cs rfl rfl
    exact hc rfl rfl

theorem longest_nil_of_ne {c : Char} (hb : isBlank c = false) (hs : c ≠ '\\') (hc : c ≠ '/')
    (cs : List Char) : Longest Layout [] (c :: cs) :=
  longest_nil hb (absurd · hs) (absurd · hc)

/-- A space before a text at which no layout begins is a layout. -/
theorem longest_space {cs : List Char} (h : Longest Layout [] cs) : Longest Layout [' '] cs := by
  have h := longest_layout_iff.1 h
  refine longest_layout_iff.2 ?_
  simp only [splitLayout, List.nil_append, List.cons_append] at h ⊢
  simp [splitLayoutFrom, h, isBlank]

/-! ## Runs -/

/-- The runs of a class of characters. -/
def Run (p : Char → Bool) (text : List Char) : Prop := text ≠ [] ∧ ∀ c ∈ text, p c = true

/-- A run is longest if what follows does not go on with it. -/
theorem longest_run_iff {p : Char → Bool} {text rest : List Char} :
    Longest (Run p) text rest ↔ Run p text ∧ ∀ c ∈ rest.head?, p c = false := by
  constructor
  · rintro ⟨h, hl⟩
    refine ⟨h, fun c hc => ?_⟩
    obtain ⟨cs, rfl⟩ := List.head?_eq_some_iff.1 hc
    by_contra hp
    have hr : Run p (text ++ [c]) := by
      refine ⟨by simp, fun d hd => ?_⟩
      rcases List.mem_append.1 hd with hd | hd
      · exact h.2 d hd
      · rw [List.mem_singleton.1 hd]; simpa using hp
    have := hl _ ⟨cs, by simp⟩ hr
    simp only [List.length_append, List.length_singleton] at this
    omega
  · rintro ⟨h, hr⟩
    refine ⟨h, fun t ht hrun => ?_⟩
    by_contra hlt
    obtain ⟨u, rfl⟩ : text <+: t :=
      List.prefix_of_prefix_length_le (List.prefix_append ..) ht (by omega)
    cases u with
    | nil => simp at hlt
    | cons c u =>
      obtain ⟨q, hq⟩ := ht
      have hc : rest = c :: (u ++ q) := by simpa using hq.symm
      have := hrun.2 c (by simp)
      rw [hr c (by simp [hc])] at this
      cases this

theorem takeWhile_of_longest {p : Char → Bool} {text rest : List Char}
    (h : Longest (Run p) text rest) :
    (text ++ rest).takeWhile p = text ∧ (text ++ rest).dropWhile p = rest := by
  obtain ⟨⟨-, hp⟩, hr⟩ := longest_run_iff.1 h
  rw [List.takeWhile_append_of_pos hp, List.dropWhile_append_of_pos hp]
  cases rest with
  | nil => simp
  | cons c cs => simp [hr c rfl]

theorem longest_of_takeWhile {p : Char → Bool} {cs : List Char} (h : cs.takeWhile p ≠ []) :
    Longest (Run p) (cs.takeWhile p) (cs.dropWhile p) := by
  refine longest_run_iff.2 ⟨⟨h, fun c hc => ?_⟩, fun c hc => ?_⟩
  · exact List.all_eq_true.1 (List.all_takeWhile ..) c hc
  · have := List.head?_dropWhile_not p cs
    rwa [hc] at this

/-! ## Names -/

theorem run_isCommandChar {name : List Char} (h : Run isNameChar name) : Run isCommandChar name :=
  ⟨h.1, fun c hc => by simp [isCommandChar, h.2 c hc]⟩

/-- No layout begins at a name. -/
theorem longest_nil_name {name : List Char} (h : Run isCommandChar name) (rest : List Char) :
    Longest Layout [] (name ++ rest) := by
  obtain ⟨c, cs, rfl⟩ := List.exists_cons_of_ne_nil h.1
  have ne : ∀ d : Char, isCommandChar d = false → c ≠ d := fun d hd e => by
    have hc := h.2 c (by simp)
    rw [e, hd] at hc
    cases hc
  refine longest_nil_of_ne ?_ (ne '\\' rfl) (ne '/' rfl) _
  simp [isBlank, ne ' ' rfl, ne '\t' rfl, ne '\r' rfl, ne '\n' rfl]

end Runbook.Source
