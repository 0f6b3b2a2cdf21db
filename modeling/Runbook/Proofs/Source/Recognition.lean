/-
  Reading and the grammar agree.

  A form that stands in a text is a derivation of its tree (`Program.Stands.derives`),
  and every derivation is one of a form that stands (`Grammar.Program.exists_form`).
  The one gap between them is an argument without a key before a colon: the grammar
  lets it derive, but nothing that may follow an argument begins with a colon.

  * `derives_iff_tree`: **a source has a derivation exactly if it is read, and its
    tree is the only one derived.**
-/
import Runbook.Proofs.Source.Grammar
import Runbook.Proofs.Source.Standing

namespace Runbook.Source

open Grammar (place)

theorem place_append (before text : List Char) :
    place (before ++ text) = (place before).after text :=
  Location.after_append ..

/-! ## Forms that stand derive their trees -/

theorem Word.Stands.derives {w : Word} {rest : List Char} (h : w.Stands rest)
    (before : List Char) : Grammar.Value before w.text rest (w.node (place before)) := by
  cases w with
  | reference name =>
    have : Grammar.Value before ('$' :: name) rest _ := .variableRef h
    rwa [place_append] at this
  | quoted body => exact .quotedString h
  | bare text => exact .unquotedString h.2 h.1

theorem Argument.Stands.derives {a : Argument} {rest : List Char} (h : a.Stands rest)
    (before : List Char) : Grammar.Argument before a.text rest (a.node (place before)) := by
  obtain ⟨key, w⟩ := a
  cases key with
  | none =>
    refine .positional (fun text' rest' n e hn => ?_) (h.1.derives before)
    cases hn with
    | @intro key value _ _ hk _ =>
      refine not_colon_of_stands h.1 h.2 hk.1 (r := value ++ rest') ?_
      rw [List.append_assoc, List.cons_append] at e
      exact e.symm
  | some key =>
    have hk : Grammar.Identifier key (':' :: (w.text ++ rest)) :=
      longest_run_iff.2 ⟨h.2, fun c hc => by cases hc; rfl⟩
    have hv := h.1.derives (before ++ (key ++ [':']))
    rw [place_append] at hv
    exact .named (.intro hk hv)

theorem ArgumentsStand.derives : ∀ {arguments : List (List Char × Argument)} {rest : List Char},
    ArgumentsStand rest arguments → ∀ before,
    Grammar.Arguments before (argumentsText arguments) rest
      ((placeArguments (place before) arguments).map fun (l, a) => a.node l)
  | [], _, _, _ => .nil
  | (layout, a) :: arguments, rest, ⟨hl, ha, hs⟩, before => by
    have ha' := ha.derives (before ++ layout)
    have hs' := ArgumentsStand.derives hs (before ++ (layout ++ a.text))
    rw [place_append] at ha' hs'
    exact .cons hl ha' hs'

theorem Call.Stands.derives {c : Call} {rest : List Char} (h : c.Stands rest)
    (before : List Char) : Grammar.Command before c.text rest (c.node (place before)) := by
  have ha := h.arguments.derives (before ++ '(' :: (c.opening ++ c.name))
  have := Grammar.Command.intro h.opening h.name ha h.closing
  rwa [place_append, place_append] at this

theorem Statement.Stands.derives {s : Statement} {rest : List Char} (h : s.Stands rest)
    (before : List Char) : Grammar.Statement before s.text rest (s.node (place before)) := by
  obtain ⟨target, call⟩ := s
  cases target with
  | none => exact .exec (h.1.derives before)
  | some p =>
    obtain ⟨name, layout⟩ := p
    have hn : Grammar.Identifier name (':' :: (layout ++ (call.text ++ rest))) :=
      longest_run_iff.2 ⟨h.2.1, fun c hc => by cases hc; rfl⟩
    have hc := h.1.derives (before ++ (name ++ ':' :: layout))
    rw [place_append] at hc
    exact .assignment hn h.2.2 hc

theorem StatementsStand.derives : ∀ {statements : List (Statement × List Char)},
    StatementsStand statements → ∀ before, Grammar.Statements before (statementsText statements) []
      ((placeStatements (place before) statements).map fun (l, s) => s.node l)
  | [], _, _ => .nil
  | (s, layout) :: statements, ⟨hs, hl, h⟩, before => by
    have h' := StatementsStand.derives h (before ++ (s.text ++ layout))
    rw [place_append] at h'
    rw [statementsText_cons]
    rw [← List.append_nil (statementsText statements)] at hs hl
    exact .cons (hs.derives before) hl h'

/-- **A program that stands derives its tree.** -/
theorem Program.Stands.derives {p : Program} (h : p.Stands) : Grammar.Program p.text p.node := by
  have hl := h.1
  rw [← List.append_nil (statementsText p.statements)] at hl
  have ht : Grammar.Ws [] [] := longest_layout_iff.2 rfl
  have := Grammar.Program.intro hl (h.2.derives p.leading) ht
  rwa [List.append_nil] at this

/-! ## Derivations are those of forms that stand -/

theorem Grammar.Value.exists_form {before text rest : List Char} {n : Node}
    (h : Grammar.Value before text rest n) :
    ∃ w : Word, w.text = text ∧ w.Stands rest ∧ w.node (place before) = n := by
  cases h with
  | @variableRef name _ hn =>
    refine ⟨.reference name, rfl, hn, ?_⟩
    rw [place_append]; rfl
  | @quotedString body _ hb => exact ⟨.quoted body, rfl, hb, rfl⟩
  | unquotedString hq hl => exact ⟨.bare text, rfl, ⟨hl, hq⟩, rfl⟩

theorem Grammar.Argument.exists_form {before text rest : List Char} {n : Node}
    (h : Grammar.Argument before text rest n) (hc : rest.head? ≠ some ':') :
    ∃ a : Source.Argument, a.text = text ∧ a.Stands rest ∧ a.node (place before) = n := by
  cases h with
  | named hn =>
    cases hn with
    | @intro key value _ v hk hv =>
      obtain ⟨w, rfl, hw, rfl⟩ := hv.exists_form
      refine ⟨⟨some key, w⟩, rfl, ⟨hw, hk.1⟩, ?_⟩
      rw [place_append]; rfl
  | positional _ hv =>
    obtain ⟨w, rfl, hw, rfl⟩ := hv.exists_form
    exact ⟨⟨none, w⟩, rfl, ⟨hw, hc⟩, rfl⟩

/-- No argument begins with a colon. -/
theorem Grammar.Argument.exists_cons {before text rest : List Char} {n : Node}
    (h : Grammar.Argument before text rest n) : ∃ c cs, text = c :: cs ∧ c ≠ ':' := by
  have value {b t r : List Char} {m : Node} (hv : Grammar.Value b t r m) :
      ∃ c cs, t = c :: cs ∧ c ≠ ':' := by
    obtain ⟨w, rfl, hw, -⟩ := hv.exists_form
    obtain ⟨c, cs, e, hc⟩ := Word.exists_cons_text hw
    refine ⟨c, cs, e, ?_⟩
    rintro rfl
    exact hc.elim (by decide) (by decide)
  cases h with
  | named hn =>
    cases hn with
    | @intro key value _ _ hk _ =>
      obtain ⟨c, cs, rfl⟩ := List.exists_cons_of_ne_nil hk.1.1
      refine ⟨c, cs ++ ':' :: value, rfl, ?_⟩
      rintro rfl
      exact absurd (hk.1.2 ':' (by simp)) (by decide)
  | positional _ hv => exact value hv

/-- No layout begins with a colon. -/
theorem Layout.head_ne_colon {layout : List Char} (h : Layout layout) :
    layout.head? ≠ some ':' := by
  cases h with
  | blank hc =>
    intro e
    cases e
    cases hc
  | _ => simp

/-- Arguments and what closes their command do not begin with a colon. -/
theorem Grammar.Arguments.head_ne_colon {before text closing rest : List Char} {ns : List Node}
    (h : Grammar.Arguments before text (closing ++ ')' :: rest) ns) (hc : Layout closing) :
    (text ++ (closing ++ ')' :: rest)).head? ≠ some ':' := by
  have layout {l t : List Char} (hl : Layout l) (ht : t.head? ≠ some ':') :
      (l ++ t).head? ≠ some ':' := by
    cases l with
    | nil => exact ht
    | cons c l => exact hl.head_ne_colon
  cases h with
  | nil =>
    rw [List.nil_append]
    exact layout hc (by simp)
  | cons hl ha _ =>
    obtain ⟨c, cs, rfl, hne⟩ := ha.exists_cons
    simp only [List.append_assoc]
    exact layout hl.1 (by simpa using hne)

theorem Grammar.Arguments.exists_form {before text tail : List Char} {ns : List Node}
    (h : Grammar.Arguments before text tail ns) :
    ∀ {closing rest : List Char}, tail = closing ++ ')' :: rest → Layout closing →
    ∃ arguments : List (List Char × Source.Argument), argumentsText arguments = text ∧
      ArgumentsStand tail arguments ∧
      (placeArguments (place before) arguments).map (fun (l, a) => a.node l) = ns := by
  induction h with
  | nil => exact fun _ _ => ⟨[], rfl, trivial, rfl⟩
  | @cons before layout text more tail n ns hl ha hs ih =>
    rintro closing rest rfl hc
    obtain ⟨a, rfl, hst, rfl⟩ := ha.exists_form (hs.head_ne_colon hc)
    obtain ⟨arguments, rfl, hargs, rfl⟩ := ih rfl hc
    refine ⟨(layout, a) :: arguments, by simp [argumentsText], ⟨hl, hst, hargs⟩, ?_⟩
    rw [place_append, place_append]; rfl

theorem Grammar.Command.exists_form {before text rest : List Char} {n : Node}
    (h : Grammar.Command before text rest n) :
    ∃ c : Call, c.text = text ∧ c.Stands rest ∧ c.node (place before) = n := by
  cases h with
  | @intro opening name _ closing _ ns ho hn ha hc =>
    obtain ⟨arguments, rfl, hargs, rfl⟩ := ha.exists_form rfl hc.1
    refine ⟨⟨opening, name, arguments, closing⟩, rfl, ⟨ho, hn, hargs, hc⟩, ?_⟩
    rw [place_append, place_append]; rfl

theorem Grammar.Statement.exists_form {before text rest : List Char} {n : Node}
    (h : Grammar.Statement before text rest n) :
    ∃ s : Source.Statement, s.text = text ∧ s.Stands rest ∧ s.node (place before) = n := by
  cases h with
  | exec hc =>
    obtain ⟨c, rfl, hst, rfl⟩ := hc.exists_form
    exact ⟨⟨none, c⟩, rfl, ⟨hst, trivial⟩, rfl⟩
  | @assignment name layout _ _ _ hn hl hc =>
    obtain ⟨c, rfl, hst, rfl⟩ := hc.exists_form
    refine ⟨⟨some (name, layout), c⟩, rfl, ⟨hst, hn.1, hl⟩, ?_⟩
    rw [place_append]; rfl

/-- The layout at the end of the source belongs to the last statement. -/
theorem Grammar.Statements.rest_eq_nil {before text rest : List Char} {ns : List Node}
    (h : Grammar.Statements before text rest ns) (hr : Layout rest) :
    ∀ {layout : List Char}, Grammar.Ws layout (text ++ rest) → rest = [] := by
  induction h with
  | nil => exact fun hl => hl.eq_nil_of_layout hr
  | cons _ hl _ ih => exact fun _ => ih hr hl

theorem Grammar.Statements.exists_form {before text rest : List Char} {ns : List Node}
    (h : Grammar.Statements before text rest ns) (hr : rest = []) :
    ∃ statements : List (Source.Statement × List Char), statementsText statements = text ∧
      StatementsStand statements ∧
      (placeStatements (place before) statements).map (fun (l, s) => s.node l) = ns := by
  induction h with
  | nil => exact ⟨[], rfl, trivial, rfl⟩
  | @cons before text layout more rest n ns hs hl _ ih =>
    subst hr
    obtain ⟨s, rfl, hst, rfl⟩ := hs.exists_form
    obtain ⟨statements, rfl, hsts, rfl⟩ := ih rfl
    rw [List.append_nil] at hst hl
    refine ⟨(s, layout) :: statements, statementsText_cons .., ⟨hst, hl, hsts⟩, ?_⟩
    rw [place_append]; rfl

/-- **Every derivation is that of a program that stands.** -/
theorem Grammar.Program.exists_form {source : List Char} {n : Node}
    (h : Grammar.Program source n) :
    ∃ p : Source.Program, p.text = source ∧ p.Stands ∧ p.node = n := by
  cases h with
  | @intro leading text trailing ns hl hs ht =>
    obtain rfl := hs.rest_eq_nil ht.1 hl
    obtain ⟨statements, rfl, hsts, rfl⟩ := hs.exists_form rfl
    rw [List.append_nil] at hl ⊢
    exact ⟨⟨leading, statements⟩, rfl, ⟨hl, hsts⟩, rfl⟩

/-! ## Recognition -/

/-- **The sources that are read are those with a derivation.**  The tree of a source that is read is
the only one it derives; a source that is not read derives none. -/
theorem derives_iff_tree (source : String) :
    match (Program.ofSource source).map Program.node with
    | .ok n => ∀ m, Grammar.Program source.toList m ↔ m = n
    | .error _ => ∀ m, ¬ Grammar.Program source.toList m := by
  cases hr : Program.ofSource source with
  | error e =>
    intro m hm
    obtain ⟨p, ht, hp, -⟩ := hm.exists_form
    rw [Program.ofSource_eq_ok_iff.2 ⟨ht, hp⟩] at hr
    cases hr
  | ok p =>
    obtain ⟨ht, hp⟩ := Program.ofSource_eq_ok_iff.1 hr
    intro m
    constructor
    · intro hm
      obtain ⟨q, hqt, hq, rfl⟩ := hm.exists_form
      rw [Program.ofSource_eq_ok_iff.2 ⟨hqt, hq⟩] at hr
      cases hr
      rfl
    · rintro rfl
      exact ht ▸ hp.derives

end Runbook.Source
