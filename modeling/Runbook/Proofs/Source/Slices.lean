/-
  Trees of nodes that are slices of a text.

  A node sits between two texts if its own text is not empty, its place is the one
  after the text before it, and its children stand in a row that its text holds.  In
  a row there is nothing between the nodes but layout and marks.

  * `Sits.descend` and `Row.descend`: what a path leads to sits in the text as well;
  * `Row.leaves`: **the leaves under a row stand in a row.**
-/
import Runbook.Proofs.Source.Grammar

namespace Runbook.Source

open Grammar (place)

/-- Layouts, each as long as it can be, and the marks `(`, `)`, `:` and `$`. -/
inductive Filler (rest : List Char) : List Char → Prop
  | nil : Filler rest []
  | mark {c : Char} {text : List Char} :
      c ∈ ['(', ')', ':', '$'] → Filler rest text → Filler rest (c :: text)
  | layout {layout text : List Char} : Longest Layout layout (text ++ rest) → Filler rest text →
      Filler rest (layout ++ text)

theorem Filler.ofLayout {layout rest : List Char} (h : Longest Layout layout rest) :
    Filler rest layout := by
  rw [← List.append_nil layout]
  exact .layout h .nil

theorem Filler.append {s t rest : List Char} (hs : Filler (t ++ rest) s) (ht : Filler rest t) :
    Filler rest (s ++ t) := by
  induction hs with
  | nil => exact ht
  | mark hc _ ih => exact .mark hc ih
  | layout hl _ ih =>
    rw [List.append_assoc]
    exact .layout (by rwa [List.append_assoc]) ih

/-! ## Nodes in their places -/

mutual

/-- A node sits between two texts. -/
inductive Sits : List Char → Node → List Char → Prop
  | leaf {before text after : List Char} {kind : NodeKind} : text ≠ [] →
      Sits before ⟨kind, text, place before, []⟩ after
  | branch {before text after : List Char} {kind : NodeKind} {nodes : List Node} : text ≠ [] →
      nodes ≠ [] → Row before text nodes after → Sits before ⟨kind, text, place before, nodes⟩ after

/-- Nodes stand in a row in a text, which stands between two texts. -/
inductive Row : List Char → List Char → List Node → List Char → Prop
  | nil {before gap after : List Char} : Filler after gap → Row before gap [] after
  | cons {before gap text after : List Char} {n : Node} {nodes : List Node} :
      Filler (n.text ++ (text ++ after)) gap → Sits (before ++ gap) n (text ++ after) →
      Row (before ++ (gap ++ n.text)) text nodes after →
      Row before (gap ++ (n.text ++ text)) (n :: nodes) after

end

theorem Sits.text_ne_nil {before after : List Char} {n : Node} (h : Sits before n after) :
    n.text ≠ [] := by
  cases h <;> assumption

theorem Sits.location {before after : List Char} {n : Node} (h : Sits before n after) :
    n.location = place before := by
  cases h <;> rfl

theorem Sits.row {before after : List Char} {n : Node} (h : Sits before n after) :
    n.children = [] ∨ Row before n.text n.children after := by
  cases h with
  | leaf => exact .inl rfl
  | branch _ _ hr => exact .inr hr

/-- A row goes on with a node whose text is known. -/
theorem Sits.cons_row_of_text {before gap t text after : List Char} {n : Node} {nodes : List Node}
    (hn : Sits (before ++ gap) n (text ++ after)) (ht : n.text = t)
    (hgap : Filler (t ++ (text ++ after)) gap) (h : Row (before ++ (gap ++ t)) text nodes after) :
    Row before (gap ++ (t ++ text)) (n :: nodes) after := by
  subst ht
  exact .cons hgap hn h

/-- A node at the beginning of a row. -/
theorem Sits.cons_row {before text after : List Char} {n : Node} {nodes : List Node}
    (hn : Sits before n (text ++ after)) (h : Row (before ++ n.text) text nodes after) :
    Row before (n.text ++ text) (n :: nodes) after :=
  @Row.cons before [] _ _ _ _ .nil (by rwa [List.append_nil]) h

/-- A row that is a single node. -/
theorem Sits.row_single {before after : List Char} {n : Node} (h : Sits before n after) :
    Row before n.text [n] after := by
  have hrow := @Sits.cons_row before [] after n [] h (.nil .nil)
  rwa [List.append_nil] at hrow

/-- A row may begin with more layout and marks. -/
theorem Row.fill {before gap text after : List Char} {nodes : List Node}
    (hgap : Filler (text ++ after) gap) (h : Row (before ++ gap) text nodes after) :
    Row before (gap ++ text) nodes after := by
  cases h with
  | nil hf => exact .nil (hgap.append hf)
  | @cons _ gap' text _ n nodes hf hn hr =>
    have hf' : Filler (n.text ++ (text ++ after)) (gap ++ gap') := by
      refine Filler.append ?_ hf
      simpa using hgap
    rw [List.append_assoc] at hn
    rw [← List.append_assoc]
    refine .cons hf' hn ?_
    simpa using hr

theorem Row.append {before s t after : List Char} {ns ms : List Node}
    (hs : Row before s ns (t ++ after)) (ht : Row (before ++ s) t ms after) :
    Row before (s ++ t) (ns ++ ms) after := by
  generalize hrest : t ++ after = rest at hs
  induction ns generalizing before s with
  | nil =>
    -- the gap at the end of the one row runs into the first gap of the other
    cases hs with
    | nil hf => exact .fill (hrest ▸ hf) ht
  | cons n ns ih =>
    cases hs with
    | @cons _ gap text _ _ _ hf hn hr =>
      subst hrest
      have hrow := ih (by simpa using ht) hr
      have htext : gap ++ (n.text ++ text) ++ t = gap ++ (n.text ++ (text ++ t)) := by simp
      rw [htext, List.cons_append]
      exact .cons (by simpa using hf) (by simpa using hn) hrow

/-! ## What a path leads to -/

/-- Each node of a row sits in its text. -/
theorem Row.get {before text after : List Char} {nodes : List Node} {n : Node} {i : Nat}
    (h : Row before text nodes after) (hi : nodes[i]? = some n) :
    ∃ l r, text = l ++ (n.text ++ r) ∧ Sits (before ++ l) n (r ++ after) := by
  induction i generalizing before text nodes with
  | zero =>
    cases h with
    | nil => cases hi
    | @cons _ gap text _ m nodes _ hn _ =>
      cases hi
      exact ⟨gap, text, rfl, hn⟩
  | succ i ih =>
    cases h with
    | nil => cases hi
    | @cons _ gap text _ m nodes _ _ hr =>
      obtain ⟨l, r, rfl, hn⟩ := ih hr hi
      exact ⟨gap ++ (m.text ++ l), r, by simp, by simpa using hn⟩

/-- **A path leads to a node that sits in the text.** -/
theorem Sits.descend {before after : List Char} {n m : Node} {path : List Nat}
    (h : Sits before n after) (hm : n.descend? path = some m) :
    ∃ l r, n.text = l ++ (m.text ++ r) ∧ Sits (before ++ l) m (r ++ after) := by
  induction path generalizing before n after with
  | nil =>
    cases hm
    exact ⟨[], [], by simp, by simpa using h⟩
  | cons i path ih =>
    obtain ⟨c, hc, hm⟩ := Option.bind_eq_some_iff.1 hm
    rcases h.row with hnil | hrow
    · rw [hnil] at hc
      cases hc
    · obtain ⟨l, r, htext, hsits⟩ := hrow.get hc
      obtain ⟨l', r', htext', hsits'⟩ := ih hsits hm
      refine ⟨l ++ l', r' ++ r, ?_, ?_⟩
      · rw [htext, htext']
        simp
      · simpa using hsits'

theorem Row.descend {before text after : List Char} {nodes : List Node} {n m : Node} {i : Nat}
    {path : List Nat} (h : Row before text nodes after) (hi : nodes[i]? = some n)
    (hm : n.descend? path = some m) :
    ∃ l r, text = l ++ (m.text ++ r) ∧ Sits (before ++ l) m (r ++ after) := by
  obtain ⟨l, r, rfl, hn⟩ := h.get hi
  obtain ⟨l', r', htext, hsits⟩ := hn.descend hm
  refine ⟨l ++ l', r' ++ r, ?_, ?_⟩
  · rw [htext]
    simp
  · simpa using hsits

/-! ## Leaves -/

mutual

/-- The nodes without children in a tree, in order. -/
def Node.leaves : Node → List Node
  | ⟨kind, text, location, children⟩ =>
    if children.isEmpty then [⟨kind, text, location, children⟩] else leavesOf children

/-- The nodes without children in some trees, in order. -/
def leavesOf : List Node → List Node
  | [] => []
  | n :: nodes => n.leaves ++ leavesOf nodes

end

mutual

/-- The leaves under a node stand in a row in its text. -/
theorem Sits.leaves {before after : List Char} {n : Node} (h : Sits before n after) :
    Row before n.text n.leaves after :=
  match h with
  | .leaf ht => Sits.row_single (.leaf ht)
  | .branch _ hn hr => by
    have hleaves := Row.leaves hr
    rwa [Node.leaves, if_neg (by simpa using hn)]

/-- **The leaves under a row stand in a row.** -/
theorem Row.leaves {before text after : List Char} {nodes : List Node}
    (h : Row before text nodes after) : Row before text (leavesOf nodes) after :=
  match h with
  | .nil hf => .nil hf
  | .cons hf hn hr => by
    have hnode := Sits.leaves hn
    have hrest := Row.leaves hr
    rw [leavesOf]
    refine .fill ?_ (hnode.append ?_)
    · simpa using hf
    · simpa using hrest

end

end Runbook.Source
