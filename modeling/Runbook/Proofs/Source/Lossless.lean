/-
  The tree of a source shows all of its text.

  Each part of a form that stands sits in the text where its node says, since the
  place of a part is counted over just the text before it.  What the nodes leave out
  is layout and the marks of the grammar.

  * `Program.Stands.row`: the statements of a program stand in a row in its text;
  * `Statement.Stands.alone`: a statement of a program is a program of its own;
  * `tree_lossless`: **every node of a tree is the slice of the source at its place**,
    nothing but layout and marks is outside of the leaves, and the text of a statement
    read alone has the statement's tree.
-/
import Runbook.Proofs.Source.Location
import Runbook.Proofs.Source.Recognition
import Runbook.Proofs.Source.Relaid
import Runbook.Proofs.Source.Slices

namespace Runbook.Source

open Grammar (place)

/-! ## The texts of nodes -/

@[simp] theorem Node.leaf_text (kind : NodeKind) (text : List Char) (l : Location) :
    (Node.leaf kind text l).text = text := rfl

@[simp] theorem Word.node_text (l : Location) (w : Word) : (w.node l).text = w.text := by
  cases w <;> rfl

@[simp] theorem Argument.node_text (l : Location) (a : Argument) : (a.node l).text = a.text := by
  unfold Argument.node
  split <;> rfl

@[simp] theorem Call.node_text (l : Location) (c : Call) : (c.node l).text = c.text := rfl

@[simp] theorem Statement.node_text (l : Location) (s : Statement) : (s.node l).text = s.text := by
  unfold Statement.node
  split <;> rfl

/-! ## Parts of a form in their places -/

theorem Word.Stands.sits {w : Word} {rest : List Char} (h : w.Stands rest) (before : List Char) :
    Sits before (w.node (place before)) rest := by
  cases w with
  | reference name =>
    have hname : Sits (before ++ ['$']) (.leaf .identifier name ((place before).next '$')) rest := by
      have hplace : (place before).next '$' = place (before ++ ['$']) :=
        (place_append before ['$']).symm
      rw [hplace]
      exact .leaf h.1.1
    exact .branch (by simp [Word.text]) (by simp) (.fill (.mark (by simp) .nil) hname.row_single)
  | quoted body => exact .leaf (by simp [Word.text])
  | bare text => exact .leaf h.1.1.1

theorem Argument.Stands.sits {a : Argument} {rest : List Char} (h : a.Stands rest)
    (before : List Char) : Sits before (a.node (place before)) rest := by
  have hne : a.text ≠ [] := by
    obtain ⟨c, cs, hc, -⟩ := Argument.exists_cons_text h
    simp [hc]
  obtain ⟨key, w⟩ := a
  cases key with
  | none =>
    have hrow := (h.1.sits before).row_single
    rw [Word.node_text] at hrow
    exact .branch hne (by simp) hrow
  | some key =>
    have hword := (h.1.sits (before ++ (key ++ [':']))).row_single
    rw [Word.node_text, place_append, ← List.append_assoc] at hword
    have hkey : Sits before (.leaf .identifier key (place before)) ((':' :: w.text) ++ rest) :=
      .leaf h.2.1
    exact .branch hne (by simp) (hkey.cons_row (.fill (.mark (by simp) .nil) hword))

/-- Arguments and the layout or mark after them are a row. -/
theorem ArgumentsStand.row {closing rest : List Char} (hc : Filler rest closing) :
    ∀ {arguments : List (List Char × Argument)}, ArgumentsStand (closing ++ rest) arguments →
    ∀ before, Row before (argumentsText arguments ++ closing)
      ((placeArguments (place before) arguments).map fun (l, a) => a.node l) rest
  | [], _, _ => .nil hc
  | (layout, a) :: arguments, ⟨hl, ha, hs⟩, before => by
    have hsits := ha.sits (before ++ layout)
    have hrow := ArgumentsStand.row hc hs (before ++ (layout ++ a.text))
    rw [place_append] at hsits hrow
    rw [← List.append_assoc] at hl hsits
    rw [argumentsText_cons]
    refine hsits.cons_row_of_text (a.node_text _) (.ofLayout ?_) hrow
    simpa using hl

theorem Call.Stands.sits {c : Call} {rest : List Char} (h : c.Stands rest) (before : List Char) :
    Sits before (c.node (place before)) rest := by
  have hclosing : Filler rest (c.closing ++ [')']) :=
    .append (.ofLayout h.closing) (.mark (by simp) .nil)
  have harguments := ArgumentsStand.row hclosing (by simpa using h.arguments)
    (before ++ '(' :: (c.opening ++ c.name))
  rw [place_append] at harguments
  have hname : Sits (before ++ '(' :: c.opening)
      (.leaf .commandName c.name (place (before ++ '(' :: c.opening)))
      ((argumentsText c.arguments ++ (c.closing ++ [')'])) ++ rest) := .leaf h.name.1.1
  have hopening : Filler (c.name ++ ((argumentsText c.arguments ++ (c.closing ++ [')'])) ++ rest))
      ('(' :: c.opening) := .mark (by simp) (.ofLayout (by simpa using h.opening))
  have hrow := hname.cons_row_of_text rfl hopening (by simpa using harguments)
  rw [place_append] at hrow
  refine .branch c.text_ne_nil (by simp) ?_
  simpa [Call.text, Call.places] using hrow

theorem Statement.Stands.sits {s : Statement} {rest : List Char} (h : s.Stands rest)
    (before : List Char) : Sits before (s.node (place before)) rest := by
  have hne := s.text_ne_nil
  obtain ⟨target, call⟩ := s
  cases target with
  | none => exact .branch hne (by simp) (h.1.sits before).row_single
  | some p =>
    obtain ⟨name, layout⟩ := p
    have hcall := (h.1.sits (before ++ (name ++ ':' :: layout))).row_single
    rw [place_append] at hcall
    have hname : Sits before (.leaf .identifier name (place before))
        (((':' :: layout) ++ call.text) ++ rest) := .leaf h.2.1.1
    have hlayout : Filler (call.text ++ rest) (':' :: layout) := .mark (by simp) (.ofLayout h.2.2)
    refine .branch hne (by simp) (hname.cons_row (.fill hlayout ?_))
    rw [List.append_assoc]
    exact hcall

theorem StatementsStand.row : ∀ {statements : List (Statement × List Char)} {leading : List Char},
    StatementsStand statements → Longest Layout leading (statementsText statements) →
    ∀ before, Row before (leading ++ statementsText statements)
      ((placeStatements (place (before ++ leading)) statements).map fun (l, s) => s.node l) []
  | [], leading, _, hl, _ => by
    rw [statementsText, List.flatMap_nil, List.append_nil]
    exact .nil (.ofLayout hl)
  | (s, layout) :: statements, leading, ⟨hs, hlayout, h⟩, hl, before => by
    have hsits := hs.sits (before ++ leading)
    -- the layout of a statement is the gap before the next one
    have hrow := StatementsStand.row h hlayout (before ++ (leading ++ s.text))
    have hplace : place (before ++ (leading ++ s.text) ++ layout) =
        (place (before ++ leading)).after (s.text ++ layout) := by
      rw [← place_append]
      simp
    rw [statementsText_cons] at hl
    rw [hplace] at hrow
    rw [statementsText_cons]
    refine Sits.cons_row_of_text ?_ (s.node_text _) (.ofLayout ?_) hrow
    · simpa using hsits
    · simpa using hl

/-- **The statements of a program stand in a row in its text.** -/
theorem Program.Stands.row {p : Program} (h : p.Stands) : Row [] p.text p.node.children [] :=
  h.2.row h.1 []

/-! ## Trees without places -/

mutual

/-- A tree without its places. -/
def Node.unplaced : Node → Node
  | ⟨kind, text, _, children⟩ => ⟨kind, text, .start, unplacedAll children⟩

/-- Trees without their places. -/
def unplacedAll : List Node → List Node
  | [] => []
  | n :: nodes => n.unplaced :: unplacedAll nodes

end

theorem Word.node_unplaced (w : Word) (l l' : Location) :
    (w.node l).unplaced = (w.node l').unplaced := by
  cases w <;> rfl

theorem Argument.node_unplaced (a : Argument) (l l' : Location) :
    (a.node l).unplaced = (a.node l').unplaced := by
  obtain ⟨key, w⟩ := a
  cases key with
  | none => simp [Argument.node, Node.unplaced, unplacedAll, w.node_unplaced l l']
  | some key =>
    simp [Argument.node, Node.unplaced, unplacedAll, Node.leaf,
      w.node_unplaced (l.after (key ++ [':'])) (l'.after (key ++ [':']))]

theorem unplaced_placeArguments : ∀ (arguments : List (List Char × Argument)) (l l' : Location),
    unplacedAll ((placeArguments l arguments).map fun (l, a) => a.node l) =
      unplacedAll ((placeArguments l' arguments).map fun (l, a) => a.node l)
  | [], _, _ => rfl
  | (layout, a) :: arguments, l, l' => by
    simp only [placeArguments, List.map_cons, unplacedAll]
    rw [a.node_unplaced _ (l'.after layout),
      unplaced_placeArguments arguments _ (l'.after (layout ++ a.text))]

theorem Call.node_unplaced (c : Call) (l l' : Location) :
    (c.node l).unplaced = (c.node l').unplaced := by
  simp only [Call.node, Call.places, Node.unplaced, unplacedAll, Node.leaf]
  rw [unplaced_placeArguments _ _ (l'.after ('(' :: (c.opening ++ c.name)))]

/-- A statement's tree does not depend on where it stands, but for its places. -/
theorem Statement.node_unplaced (s : Statement) (l l' : Location) :
    (s.node l).unplaced = (s.node l').unplaced := by
  obtain ⟨target, call⟩ := s
  cases target with
  | none => simp [Statement.node, Node.unplaced, unplacedAll, call.node_unplaced l l']
  | some p =>
    simp [Statement.node, Statement.callLocation, Node.unplaced, unplacedAll, Node.leaf,
      call.node_unplaced (l.after (p.1 ++ ':' :: p.2)) (l'.after (p.1 ++ ':' :: p.2))]

/-! ## Statements alone -/

theorem StatementsStand.of_mem_places {s : Statement} {l : Location} :
    ∀ {statements : List (Statement × List Char)} {place : Location}, StatementsStand statements →
    (l, s) ∈ placeStatements place statements → ∃ rest, s.Stands rest
  | [], _, _, h => by cases h
  | (s', layout) :: statements, place, ⟨hs, _, hrest⟩, h => by
    rcases List.mem_cons.1 h with heq | hmem
    · cases heq
      exact ⟨_, hs⟩
    · exact of_mem_places hrest hmem

/-- A statement is a program of its own. -/
theorem Statement.Stands.alone {s : Statement} {rest : List Char} (h : s.Stands rest) :
    Program.ofSource (String.ofList s.text) = .ok ⟨[], [(s, [])]⟩ := by
  refine Program.ofSource_eq_ok_iff.2 ⟨by simp [Program.text, statementsText], ?_, h.any _, ?_⟩
  · simpa [statementsText] using Statement.longest_nil h []
  · exact ⟨longest_nil_end, trivial⟩

/-! ## The tree of a source -/

/-- **The tree of a source is lossless.**  Each of its nodes is the slice of the source at its
place, in which its children stand one after another; no node but the program's is empty; between
the leaves there is nothing but layout and marks; and the text of a statement read alone has the
tree of the statement, but for the places. -/
theorem tree_lossless {source : String} {p : Program} (h : Program.ofSource source = .ok p) :
    (∀ path n, p.node.descend? path = some n → ∃ before after : List Char,
      source.toList = before ++ (n.text ++ after) ∧
      (∀ k, Location.ofOffset source.toList k = n.location ↔ k = before.length) ∧
      (path ≠ [] → n.text ≠ []) ∧
      (n.children = [] ∨ Row before n.text n.children after)) ∧
    Row [] source.toList (leavesOf p.node.children) [] ∧
    ∀ s ∈ p.node.children,
      (Program.ofSource (String.ofList s.text)).map (fun q => q.node.unplaced) =
        .ok (Node.unplaced ⟨.program, s.text, .start, [s]⟩) := by
  obtain ⟨ht, hp⟩ := Program.ofSource_eq_ok_iff.1 h
  rw [← ht]
  refine ⟨fun path n hn => ?_, hp.row.leaves, fun s hs => ?_⟩
  · have hoffset (before rest : List Char) (k : Nat) :
        Location.ofOffset (before ++ rest) k = place before ↔ k = before.length := by
      rw [place, ← Location.ofOffset_length before rest, Location.ofOffset_inj]
    cases path with
    | nil =>
      cases hn
      exact ⟨[], [], by simp [Program.node], hoffset [] _, by simp, .inr hp.row⟩
    | cons i path =>
      obtain ⟨c, hc, hn⟩ := Option.bind_eq_some_iff.1 hn
      obtain ⟨before, after, htext, hsits⟩ := hp.row.descend hc hn
      rw [List.nil_append, List.append_nil] at hsits
      refine ⟨before, after, htext, ?_, fun _ => hsits.text_ne_nil, hsits.row⟩
      rw [htext, hsits.location]
      exact hoffset before _
  · obtain ⟨⟨l, s⟩, hmem, rfl⟩ := List.mem_map.1 hs
    obtain ⟨rest, hstands⟩ := StatementsStand.of_mem_places hp.2 hmem
    rw [Statement.node_text, hstands.alone]
    simp [Except.map, Program.node, Program.places, placeStatements, Node.unplaced, unplacedAll,
      Program.text, statementsText, s.node_unplaced _ l]

/-- An assignment on the second line, with a comment after it. -/
def commented : Program :=
  ⟨"\n".toList, [(⟨some ("x".toList, " ".toList), [], "c".toList,
      [(" ".toList, ⟨some "k".toList, .reference "y".toList⟩)], []⟩, "// z".toList)]⟩

theorem tree_lossless_commented :
    Program.ofSource "\nx: (c k:$y)// z" = .ok commented ∧
    Row [] "\nx: (c k:$y)// z".toList (leavesOf commented.node.children) [] ∧
    (leavesOf commented.node.children).map (fun n => (String.ofList n.text, n.location)) =
      [("x", ⟨2, 1⟩), ("c", ⟨2, 5⟩), ("k", ⟨2, 7⟩), ("y", ⟨2, 10⟩)] ∧
    ∀ s ∈ commented.node.children, String.ofList s.text = "x: (c k:$y)" ∧
      (Program.ofSource (String.ofList s.text)).map (fun q => q.node.unplaced) =
        .ok (Node.unplaced ⟨.program, s.text, .start, [s]⟩) := by
  have h : Program.ofSource "\nx: (c k:$y)// z" = .ok commented := by decide +kernel
  obtain ⟨-, hleaves, halone⟩ := tree_lossless h
  refine ⟨h, hleaves, by decide +kernel, fun s hs => ⟨?_, halone s hs⟩⟩
  obtain rfl := List.mem_singleton.1 hs
  rfl

end Runbook.Source
