/-
  Programs that differ in their layout.

  A program is relaid if some of its layouts, possibly empty ones, are replaced by
  closed layout that begins with a space or a tab.  A form that stands still stands
  then: what it needs to know of the text after it shows before the first
  replacement, or in the blank with which that begins.

  * `Alike`: texts that say the same to what stands before them;
  * `Call.Relaid.stands`: a command that is relaid stands before every text, since it
    ends in its parenthesis;
  * `Program.Relaid.stands`: **a program that is relaid stands.**
-/
import Mathlib.Data.List.Forall2
import Runbook.Proofs.Source.Boundary

namespace Runbook.Source

/-! ## Texts that begin alike -/

/-- Two texts have one beginning, up to and with a character that bounds layout, or up to such a
blank in the second of them. -/
inductive Alike : List Char → List Char → Prop
  | same (r : List Char) : Alike r r
  | shared {c : Char} (text r r' : List Char) : Bounds c →
      Alike (text ++ c :: r) (text ++ c :: r')
  | put {c : Char} (text r r' : List Char) : Bounds c → isBlank c = true →
      Alike (text ++ r) (text ++ c :: r')

theorem Alike.append {r r' : List Char} (h : Alike r r') (t : List Char) :
    Alike (t ++ r) (t ++ r') := by
  cases h with
  | same => exact .same _
  | shared text r r' hc => simpa using Alike.shared (t ++ text) r r' hc
  | put text r r' hc hb => simpa using Alike.put (t ++ text) r r' hc hb

/-- Of two texts that are alike the second begins as the first does, or with a blank. -/
theorem Alike.head {r r' : List Char} (h : Alike r r') :
    ∀ c ∈ r'.head?, c ∈ r.head? ∨ isBlank c = true := by
  cases h with
  | same => exact fun c hc => .inl hc
  | shared text => cases text <;> exact fun c hc => .inl hc
  | put text r r' _ hb =>
    cases text with
    | nil => rintro c ⟨⟩; exact .inr hb
    | cons => exact fun c hc => .inl hc

theorem Longest.nil_of_alike {text r r' : List Char} (h : Longest Layout [] (text ++ r))
    (hn : text ≠ []) (ha : Alike r r') : Longest Layout [] (text ++ r') := by
  cases ha with
  | same => exact h
  | shared t r r' hc =>
    rw [← List.append_assoc] at h ⊢
    exact h.before_shared hc r'
  | put t r r' hc =>
    rw [← List.append_assoc] at h ⊢
    exact h.before_put hc (by simp [hn]) r'

/-! ## Layout -/

/-- Closed layout that begins with a space or a tab. -/
def Spaced (layout : List Char) : Prop :=
  ∃ c t, layout = c :: t ∧ (c = ' ' ∨ c = '\t') ∧ Closed t

/-- A layout stays or is replaced. -/
def Relaid (layout layout' : List Char) : Prop := layout' = layout ∨ Spaced layout'

instance : (layout : List Char) → Decidable (Spaced layout)
  | [] => isFalse (by simp [Spaced])
  | c :: t => decidable_of_iff ((c = ' ' ∨ c = '\t') ∧ Closed t) (by simp [Spaced])

instance (layout layout' : List Char) : Decidable (Relaid layout layout') :=
  inferInstanceAs (Decidable (_ ∨ _))

theorem Spaced.closed {layout : List Char} (h : Spaced layout) : Closed layout := by
  obtain ⟨c, t, rfl, rfl | rfl, ht⟩ := h
  · exact .blank rfl ht
  · exact .blank rfl ht

theorem Relaid.refl (layout : List Char) : Relaid layout layout := .inl rfl

theorem Relaid.alike {l l' r r' : List Char} (h : Relaid l l') (ha : Alike r r') :
    Alike (l ++ r) (l' ++ r') := by
  rcases h with rfl | ⟨c, t, rfl, hc, -⟩
  · exact ha.append l'
  · have hb : Bounds c ∧ isBlank c = true := by rcases hc with rfl | rfl <;> simp [Bounds, isBlank]
    exact .put [] _ _ hb.1 hb.2

/-- The longest layout before some text, or what replaces it, is the longest before another text at
which no layout begins. -/
theorem Relaid.longest {l l' r r' : List Char} (h : Relaid l l') (hl : Longest Layout l r)
    (hr : r ≠ []) (hr' : Longest Layout [] r') : Longest Layout l' r' := by
  obtain ⟨c, r, rfl⟩ := List.exists_cons_of_ne_nil hr
  rcases h with rfl | h
  · exact hl.closed.longest hr'
  · exact h.closed.longest hr'

/-! ## Words and arguments -/

theorem isNameChar_of_isBlank {c : Char} (h : isBlank c = true) : isNameChar c = false := by
  by_contra hn
  have := isBlank_eq_false_of_isBareChar (isBareChar_of_isNameChar (by simpa using hn))
  simp [h] at this

theorem isBareChar_of_isBlank {c : Char} (h : isBlank c = true) : isBareChar c = false := by
  by_contra hn
  have := isBlank_eq_false_of_isBareChar (by simpa using hn)
  simp [h] at this

theorem isCommandChar_of_isBlank {c : Char} (h : isBlank c = true) : isCommandChar c = false := by
  have hc : c ≠ ':' := by rintro rfl; cases h
  simp [isCommandChar, isNameChar_of_isBlank h, hc]

section
variable {r r' : List Char} (ha : Alike r r')
include ha

theorem Longest.run_of_alike {p : Char → Bool} (hp : ∀ c, isBlank c = true → p c = false)
    {text : List Char} (h : Longest (Run p) text r) : Longest (Run p) text r' := by
  obtain ⟨hrun, hend⟩ := longest_run_iff.1 h
  exact longest_run_iff.2 ⟨hrun, fun c hc => (ha.head c hc).elim (hend c) (hp c)⟩

theorem Word.Stands.of_alike {w : Word} (h : w.Stands r) : w.Stands r' := by
  cases w with
  | reference name => exact Longest.run_of_alike ha (fun _ => isNameChar_of_isBlank) h
  | quoted body => exact h
  | bare text => exact ⟨Longest.run_of_alike ha (fun _ => isBareChar_of_isBlank) h.1, h.2⟩

theorem Argument.Stands.of_alike {a : Argument} (h : a.Stands r) : a.Stands r' := by
  obtain ⟨key, w⟩ := a
  refine ⟨h.1.of_alike ha, ?_⟩
  cases key with
  | some key => exact h.2
  | none =>
    intro hh
    rcases ha.head ':' hh with hc | hb
    · exact h.2 hc
    · cases hb

end

/-- Arguments that are relaid. -/
def ArgumentsRelaid : List (List Char × Argument) → List (List Char × Argument) → Prop :=
  List.Forall₂ fun x y => Relaid x.1 y.1 ∧ x.2 = y.2

theorem ArgumentsRelaid.refl (arguments : List (List Char × Argument)) :
    ArgumentsRelaid arguments arguments :=
  List.forall₂_same.2 fun _ _ => ⟨.refl _, rfl⟩

theorem ArgumentsRelaid.alike {arguments arguments' : List (List Char × Argument)}
    (h : ArgumentsRelaid arguments arguments') {r r' : List Char} (ha : Alike r r') :
    Alike (argumentsText arguments ++ r) (argumentsText arguments' ++ r') := by
  induction h with
  | nil => exact ha
  | @cons x y _ _ hxy _ ih =>
    obtain ⟨layout, a⟩ := x
    obtain ⟨layout', a'⟩ := y
    obtain ⟨hl, rfl⟩ := hxy
    rw [argumentsText_cons, argumentsText_cons]
    exact hl.alike (ih.append a.text)

theorem ArgumentsRelaid.stand {arguments arguments' : List (List Char × Argument)}
    (h : ArgumentsRelaid arguments arguments') {r r' : List Char} (ha : Alike r r')
    (hs : ArgumentsStand r arguments) : ArgumentsStand r' arguments' := by
  induction h with
  | nil => trivial
  | @cons x y xs ys hxy hxs ih =>
    obtain ⟨layout, a⟩ := x
    obtain ⟨layout', a'⟩ := y
    obtain ⟨hl, rfl⟩ := hxy
    obtain ⟨hlayout, harg, hrest⟩ := hs
    have hnext := ArgumentsRelaid.alike hxs ha
    have hne : a.text ≠ [] := by
      obtain ⟨c, cs, hc, -⟩ := Argument.exists_cons_text harg
      simp [hc]
    refine ⟨hl.longest hlayout (by simp [hne]) ?_, harg.of_alike hnext, ih hrest⟩
    exact hlayout.nil.nil_of_alike hne hnext

/-! ## Commands -/

/-- A command that is relaid. -/
structure Call.Relaid (c c' : Call) : Prop where
  opening : Source.Relaid c.opening c'.opening
  name : c.name = c'.name
  arguments : ArgumentsRelaid c.arguments c'.arguments
  closing : Source.Relaid c.closing c'.closing

theorem Call.Relaid.refl (c : Call) : c.Relaid c := ⟨.refl _, rfl, .refl _, .refl _⟩

/-- A command that is relaid stands before every text. -/
theorem Call.Relaid.stands {c c' : Call} (h : c.Relaid c') {rest : List Char} (hs : c.Stands rest)
    (rest' : List Char) : c'.Stands rest' := by
  -- no part of the command looks further than its parenthesis
  have hparen : Alike (')' :: rest) (')' :: rest') := .shared [] _ _ (by simp [Bounds])
  have hclosing := h.closing.alike hparen
  have harguments := h.arguments.alike hclosing
  have hname := h.name ▸ Longest.run_of_alike harguments (fun _ => isCommandChar_of_isBlank) hs.name
  refine ⟨?_, hname, h.arguments.stand hclosing hs.arguments, ?_⟩
  · exact h.opening.longest hs.opening (by simp [hs.name.1.1]) (longest_nil_name hname.1 _)
  · exact h.closing.longest hs.closing (by simp) (longest_nil_of_ne rfl (by decide) (by decide) _)

/-! ## Statements and programs -/

/-- A statement that is relaid. -/
structure Statement.Relaid (s s' : Statement) : Prop where
  target : Option.Rel (fun x y => x.1 = y.1 ∧ Source.Relaid x.2 y.2) s.target s'.target
  call : s.call.Relaid s'.call

theorem Statement.Relaid.refl (s : Statement) : s.Relaid s := by
  obtain ⟨target, call⟩ := s
  cases target with
  | none => exact ⟨.none, .refl call⟩
  | some p => exact ⟨.some ⟨rfl, .refl _⟩, .refl call⟩

/-- No layout begins at a command. -/
theorem Call.longest_nil (c : Call) (rest : List Char) : Longest Layout [] (c.text ++ rest) := by
  rw [Call.text_append]
  exact longest_nil_of_ne rfl (by decide) (by decide) _

/-- No layout begins at a statement. -/
theorem Statement.longest_nil {s : Statement} {rest : List Char} (h : s.Stands rest)
    (rest' : List Char) : Longest Layout [] (s.text ++ rest') := by
  obtain ⟨target, call⟩ := s
  cases target with
  | none => exact call.longest_nil rest'
  | some p =>
    have hl := longest_nil_name (run_isCommandChar h.2.1) (':' :: (p.2 ++ call.text) ++ rest')
    simpa [Statement.text] using hl

/-- A statement that is relaid stands before every text. -/
theorem Statement.Relaid.stands {s s' : Statement} (h : s.Relaid s') {rest : List Char}
    (hs : s.Stands rest) (rest' : List Char) : s'.Stands rest' := by
  obtain ⟨target, call⟩ := s
  obtain ⟨target', call'⟩ := s'
  obtain ⟨htarget, hcall⟩ := h
  refine ⟨hcall.stands hs.1 rest', ?_⟩
  cases htarget with
  | none => trivial
  | @some p p' hp =>
    obtain ⟨name, layout⟩ := p
    obtain ⟨name', layout'⟩ := p'
    obtain ⟨rfl, hl⟩ := hp
    exact ⟨hs.2.1, hl.longest hs.2.2 (by simp [Call.text_ne_nil]) (call'.longest_nil rest')⟩

/-- **A statement stands before every text**: it ends in its parenthesis. -/
theorem Statement.Stands.any {s : Statement} {rest : List Char} (h : s.Stands rest)
    (rest' : List Char) : s.Stands rest' :=
  (Statement.Relaid.refl s).stands h rest'

/-- Statements that are relaid, with the layouts after them. -/
def StatementsRelaid : List (Statement × List Char) → List (Statement × List Char) → Prop :=
  List.Forall₂ fun x y => x.1.Relaid y.1 ∧ Relaid x.2 y.2

/-- The longest layout before statements, and what replaces it, is the longest before statements that
are relaid. -/
theorem StatementsRelaid.longest {statements statements' : List (Statement × List Char)}
    (h : StatementsRelaid statements statements') (hs : StatementsStand statements)
    {l l' : List Char} (hl : Relaid l l') (hlong : Longest Layout l (statementsText statements)) :
    Longest Layout l' (statementsText statements') := by
  cases h with
  | nil =>
    rcases hl with rfl | hl
    · exact hlong
    · exact hl.closed.longest longest_nil_end
  | @cons x y xs ys hxy _ =>
    obtain ⟨s, layout⟩ := x
    obtain ⟨s', layout'⟩ := y
    rw [statementsText_cons] at hlong
    rw [statementsText_cons]
    refine hl.longest hlong (by simp [Statement.text_ne_nil]) ?_
    exact Statement.longest_nil (hxy.1.stands hs.1 []) _

theorem StatementsRelaid.stand {statements statements' : List (Statement × List Char)}
    (h : StatementsRelaid statements statements') (hs : StatementsStand statements) :
    StatementsStand statements' := by
  induction h with
  | nil => trivial
  | @cons x y xs ys hxy hxs ih =>
    obtain ⟨s, layout⟩ := x
    obtain ⟨s', layout'⟩ := y
    exact ⟨hxy.1.stands hs.1 _, StatementsRelaid.longest hxs hs.2.2 hxy.2 hs.2.1, ih hs.2.2⟩

/-- A program that is relaid: any of its layouts may be replaced. -/
structure Program.Relaid (p q : Program) : Prop where
  leading : Source.Relaid p.leading q.leading
  statements : StatementsRelaid p.statements q.statements

/-- **A program that is relaid stands.** -/
theorem Program.Relaid.stands {p q : Program} (h : p.Relaid q) (hp : p.Stands) : q.Stands :=
  ⟨h.statements.longest hp.2 h.leading hp.1, h.statements.stand hp.2⟩

end Runbook.Source
