/-
  What becomes of the arguments in a tree.

  The node of a command has the nodes of its arguments among its children, in the
  order of the text.  A command keeps the values of its positional arguments in that
  order.  Of its named ones it keeps the last of each key, and each of them whose key
  was there before is reported.

  * `commands_node`: the nodes of commands in a program's tree are those of its
    statements, in order;
  * `keys_namedOf` and `find?_namedOf`: named arguments stand where the last of their
    key stands, and have its value;
  * `duplicatesAmong_eq`: what is reported are the named arguments whose key an
    earlier one has;
  * `parse_collects`: **so the arguments of every command are collected from its
    node**, and the reports are those of all nodes of commands.
-/
import Mathlib.Data.List.Dedup
import Mathlib.Data.List.Induction
import Runbook.Proofs.Script.Arguments
import Runbook.Script.Parse

namespace Runbook

/-! ## Nodes of commands -/

namespace Source

mutual

/-- The nodes of commands in a tree, in order. -/
def Node.commands : Node → List Node
  | ⟨kind, text, location, children⟩ =>
    if kind = .command then ⟨kind, text, location, children⟩ :: commandsOf children
    else commandsOf children

/-- The nodes of commands in some trees, in order. -/
def commandsOf : List Node → List Node
  | [] => []
  | n :: nodes => n.commands ++ commandsOf nodes

end

theorem commandsOf_eq_nil {nodes : List Node} (h : ∀ n ∈ nodes, n.commands = []) :
    commandsOf nodes = [] := by
  induction nodes with
  | nil => rfl
  | cons n nodes ih =>
    rw [commandsOf, h n List.mem_cons_self, ih fun m hm => h m (.tail _ hm), List.append_nil]

@[simp] theorem Node.commands_leaf {kind : NodeKind} (hk : kind ≠ .command) (text : List Char)
    (l : Location) : (Node.leaf kind text l).commands = [] := by
  simp [Node.leaf, Node.commands, commandsOf, hk]

@[simp] theorem Word.commands_node (l : Location) (w : Word) : (w.node l).commands = [] := by
  cases w <;> simp [Word.node, Node.commands, commandsOf]

@[simp] theorem Argument.commands_node (l : Location) (a : Argument) :
    (a.node l).commands = [] := by
  unfold Argument.node
  split <;> simp [Node.commands, commandsOf]

@[simp] theorem Argument.node_location (l : Location) (a : Argument) :
    (a.node l).location = l := by
  unfold Argument.node
  split <;> rfl

@[simp] theorem Call.commands_node (l : Location) (c : Call) :
    (c.node l).commands = [c.node l] := by
  suffices harguments : ∀ n ∈ (c.node l).children.tail, n.commands = [] by
    have hnone := commandsOf_eq_nil harguments
    simp only [Call.node, List.tail_cons] at hnone
    simp [Call.node, Node.commands, commandsOf, hnone]
  intro n hn
  obtain ⟨⟨l, a⟩, -, rfl⟩ := List.mem_map.1 hn
  exact a.commands_node l

theorem Statement.commands_node (l : Location) (s : Statement) :
    (s.node l).commands = [s.call.node (s.callLocation l)] := by
  unfold Statement.node Statement.callLocation
  split <;> simp [Node.commands, commandsOf]

/-- **The nodes of commands in a program's tree are those of its statements**, in order. -/
theorem Program.commands_node (p : Program) :
    p.node.commands = p.places.map fun (l, s) => s.call.node (s.callLocation l) := by
  have hall : ∀ places : List (Location × Statement),
      commandsOf (places.map fun (l, s) => s.node l) =
        places.map fun (l, s) => s.call.node (s.callLocation l) := by
    intro places
    induction places with
    | nil => rfl
    | cons e places ih => simp [commandsOf, Statement.commands_node, ih]
  simpa [Program.node, Node.commands] using hall p.places

theorem map_snd_placeArguments : ∀ (arguments : List (List Char × Argument)) (l : Location),
    (placeArguments l arguments).map Prod.snd = arguments.map Prod.snd
  | [], _ => rfl
  | (layout, a) :: arguments, l => by
    simp [placeArguments, map_snd_placeArguments arguments]

theorem map_snd_placeStatements : ∀ (statements : List (Statement × List Char)) (l : Location),
    (placeStatements l statements).map Prod.snd = statements.map Prod.fst
  | [], _ => rfl
  | (s, layout) :: statements, l => by
    simp [placeStatements, map_snd_placeStatements statements]

end Source

namespace Script

open Source (Location Node)

/-! ## What the nodes of arguments hold -/

/-- The value of the node of a word: a reference without its `$`, a quoted text without its quotes
and its escapes, any other text as it stands. -/
def wordValue (n : Node) : Argument :=
  match n.kind with
  | .variableRef => .reference (String.ofList n.text.tail)
  | .quotedString => .literal (String.ofList (unescape n.text.tail.dropLast))
  | _ => .literal (String.ofList n.text)

/-- The value of the node of an argument, which is that of its last child. -/
def valueOf? (n : Node) : Option Argument := n.children.getLast?.map wordValue

/-- The text of a node's first child of a kind. -/
def textOf? (kind : Source.NodeKind) (n : Node) : Option (List Char) := (n.child? kind).map (·.text)

/-- The key of the node of a named argument. -/
def keyOf? : Node → Option (List Char) := textOf? .identifier

/-- The elements of a list whose image an earlier one has. -/
def repeatedBy {α β : Type} [DecidableEq β] (f : α → β) (l : List α) : List α :=
  (l.zipIdx.filter fun (a, i) => f a ∈ (l.take i).map f).map Prod.fst

/-- What there is to report of a named argument of a command. -/
def duplicate? (n a : Node) : Option Duplicate :=
  match textOf? .commandName n, keyOf? a with
  | some command, some key => some ⟨String.ofList key, String.ofList command, a.location⟩
  | _, _ => none

/-- What there is to report of a command: each named argument whose key an earlier one has. -/
def duplicatesIn (n : Node) : List (Option Duplicate) :=
  (repeatedBy keyOf? (n.childrenOf [.namedArg])).map (duplicate? n)

/-- A command collects the arguments of a node. -/
structure Collects (n : Node) (c : Command) : Prop where
  name : textOf? .commandName n = some c.name.toList
  positional : (n.childrenOf [.positionalArg]).map valueOf? = c.positional.map some
  named : ∀ key, c.named.find? key =
    ((n.childrenOf [.namedArg]).filter (keyOf? · = some key.toList)).getLast?.bind valueOf?
  order : c.named.keys.map (fun key => some key.toList) =
    ((n.childrenOf [.namedArg]).map keyOf?).dedup

/-! ## The nodes of a form -/

@[simp] theorem valueOf?_node (l : Location) (a : Source.Argument) :
    valueOf? (a.node l) = some (.ofWord a.word) := by
  obtain ⟨key, w⟩ := a
  cases key <;> cases w <;>
    simp [valueOf?, Source.Argument.node, Source.Word.node, Source.Word.text, wordValue,
      Argument.ofWord, Node.leaf]

@[simp] theorem keyOf?_node (l : Location) (a : Source.Argument) : keyOf? (a.node l) = a.key := by
  obtain ⟨key, w⟩ := a
  cases key <;> cases w <;>
    simp [keyOf?, textOf?, Node.child?, Source.Argument.node, Source.Word.node, Node.leaf]

theorem kind_node (l : Location) (a : Source.Argument) :
    (a.node l).kind = if a.key = none then .positionalArg else .namedArg := by
  unfold Source.Argument.node
  split <;> simp_all

/-- The nodes of one kind of arguments are those of the arguments of that kind. -/
theorem childrenOf_node {kind : Source.NodeKind} (hk : kind ≠ .commandName) (l : Location)
    (c : Source.Call) : (c.node l).childrenOf [kind] =
      ((c.places l).filter fun x => (x.2.node x.1).kind = kind).map fun x => x.2.node x.1 := by
  rw [Node.childrenOf, Source.Call.node, List.filter_cons_of_neg (by simp [Node.leaf, hk.symm]),
    List.filter_map]
  simp [Function.comp_def]

theorem childrenOf_positional (l : Location) (c : Source.Call) :
    (c.node l).childrenOf [.positionalArg] =
      ((c.places l).filter (·.2.key = none)).map fun x => x.2.node x.1 := by
  rw [childrenOf_node (by decide)]
  simp only [kind_node]
  simp

theorem childrenOf_named (l : Location) (c : Source.Call) :
    (c.node l).childrenOf [.namedArg] =
      ((c.places l).filter (·.2.key ≠ none)).map fun x => x.2.node x.1 := by
  rw [childrenOf_node (by decide)]
  simp only [kind_node]
  simp

/-! ## Named arguments -/

/-- **A key has the value of its last occurrence.** -/
theorem find?_namedOf (key : String) (arguments : List Source.Argument) :
    (namedOf arguments).find? key =
      (arguments.filter (·.key = some key.toList)).getLast?.map fun a => .ofWord a.word := by
  induction arguments using List.reverseRecOn with
  | nil => rfl
  | append_singleton arguments a ih =>
    have hconcat : namedOf (arguments ++ [a]) = addNamed (namedOf arguments) a := by
      simp [namedOf]
    rw [hconcat, addNamed, List.filter_append]
    cases hk : a.key with
    | none => simpa [hk] using ih
    | some k =>
      rw [Table.find?_push]
      by_cases he : k = key.toList
      · simp [hk, he]
      · have hne : key ≠ String.ofList k := fun h => he (by simp [h])
        simpa [hk, he, hne] using ih

theorem keysOf_lasting : ∀ arguments : List Source.Argument,
    keysOf (lasting arguments) = (keysOf arguments).dedup
  | [] => rfl
  | a :: arguments => by
    have ih := keysOf_lasting arguments
    rw [lasting]
    cases hk : a.key with
    | none => simpa [keysOf, hk] using ih
    | some key =>
      have hcons : ∀ l, keysOf (a :: l) = key :: keysOf l := fun l => by simp [keysOf, hk]
      rw [hcons]
      by_cases hm : key ∈ keysOf arguments
      · rw [List.dedup_cons_of_mem hm, if_pos (by simpa using hm), ih]
      · rw [List.dedup_cons_of_notMem hm, if_neg (by simpa using hm), hcons, ih]

/-- **Keys stand in the order of their last occurrences.** -/
theorem keys_namedOf (arguments : List Source.Argument) :
    (namedOf arguments).keys = (keysOf arguments).dedup.map String.ofList := by
  rw [Table.keys, entries_namedOf, ← keysOf_lasting, keysOf, List.map_filterMap, List.map_filterMap]
  refine List.filterMap_congr fun a _ => ?_
  cases hk : a.key <;> simp [keyed?, hk]

/-! ## Repetitions -/

theorem repeatedBy_concat {α β : Type} [DecidableEq β] (f : α → β) (l : List α) (a : α) :
    repeatedBy f (l ++ [a]) = repeatedBy f l ++ if f a ∈ l.map f then [a] else [] := by
  have hbefore : l.zipIdx.filter (fun (b, i) => f b ∈ ((l ++ [a]).take i).map f) =
      l.zipIdx.filter fun (b, i) => f b ∈ (l.take i).map f := by
    refine List.filter_congr fun (b, i) hb => ?_
    have hi : i < l.length := by simpa using List.snd_lt_of_mem_zipIdx hb
    simp only [List.take_append_of_le_length (Nat.le_of_lt hi)]
  simp only [repeatedBy, List.zipIdx_append, List.filter_append, hbefore, List.map_append]
  by_cases ha : f a ∈ l.map f <;> simp [ha]

theorem repeatedBy_map {α β γ : Type} [DecidableEq γ] (f : β → γ) (g : α → β) (l : List α) :
    repeatedBy f (l.map g) = (repeatedBy (fun a => f (g a)) l).map g := by
  induction l using List.reverseRecOn with
  | nil => rfl
  | append_singleton l a ih =>
    rw [List.map_append, List.map_singleton, repeatedBy_concat, repeatedBy_concat, ih,
      List.map_append, List.map_map]
    split <;> simp_all

theorem map_key_filter (places : List (Location × Source.Argument)) :
    (places.filter (·.2.key ≠ none)).map (·.2.key) =
      (keysOf (places.map Prod.snd)).map some := by
  induction places with
  | nil => rfl
  | cons x places ih => cases hk : x.2.key <;> simpa [keysOf, hk] using ih

/-- The report of a placed argument of a command. -/
def placedDuplicate? (command : String) (x : Location × Source.Argument) : Option Duplicate :=
  x.2.key.map fun key => ⟨String.ofList key, command, x.1⟩

theorem duplicatesAmong_concat (command : String) (x : Location × Source.Argument) :
    ∀ (places : List (Location × Source.Argument)) (seen : List (List Char)),
      (duplicatesAmong command seen (places ++ [x])).map some =
        (duplicatesAmong command seen places).map some ++
          if x.2.key ∈ (seen ++ keysOf (places.map Prod.snd)).map some then
            [placedDuplicate? command x] else []
  | [], seen => by
    obtain ⟨l, key, w⟩ := x
    cases key with
    | none => simp [duplicatesAmong]
    | some key => by_cases hm : key ∈ seen <;> simp [duplicatesAmong, placedDuplicate?, keysOf, hm]
  | (l, a) :: places, seen => by
    rw [List.cons_append, duplicatesAmong, duplicatesAmong]
    cases hk : a.key with
    | none =>
      have hkeys : keysOf (((l, a) :: places).map Prod.snd) = keysOf (places.map Prod.snd) := by
        simp [keysOf, hk]
      rw [hkeys]
      exact duplicatesAmong_concat command x places seen
    | some key =>
      have hseen : x.2.key ∈ (key :: seen ++ keysOf (places.map Prod.snd)).map some ↔
          x.2.key ∈ (seen ++ keysOf (((l, a) :: places).map Prod.snd)).map some := by
        simp [keysOf, hk, or_left_comm]
      have ih := duplicatesAmong_concat command x places (key :: seen)
      simp only [hseen] at ih
      dsimp only
      split <;> simp only [List.map_cons, List.cons_append, ih]

/-- **What is reported are the named arguments whose key an earlier one has.** -/
theorem duplicatesAmong_eq (command : String) (places : List (Location × Source.Argument)) :
    (duplicatesAmong command [] places).map some =
      (repeatedBy (·.2.key) (places.filter (·.2.key ≠ none))).map (placedDuplicate? command) := by
  induction places using List.reverseRecOn with
  | nil => rfl
  | append_singleton places x ih =>
    rw [duplicatesAmong_concat, ih, List.filter_append]
    cases hk : x.2.key with
    | none => simp [hk]
    | some key =>
      have hx : [x].filter (·.2.key ≠ none) = [x] := by simp [hk]
      rw [hx, repeatedBy_concat, map_key_filter, List.map_append, hk]
      split <;> simp_all

/-! ## Commands of nodes -/

/-- **The command of a form collects the arguments of its node.** -/
theorem collects_node (l : Location) (c : Source.Call) : Collects (c.node l) (.ofForm c) := by
  have hargs : c.arguments.map Prod.snd = (c.places l).map Prod.snd :=
    (Source.map_snd_placeArguments ..).symm
  refine ⟨?_, ?_, fun key => ?_, ?_⟩
  · simp [textOf?, Node.child?, Source.Call.node, Node.leaf, Command.ofForm]
  · rw [childrenOf_positional, Command.ofForm, positionalOf_eq, hargs, List.filter_map]
    simp [Function.comp_def]
  · have hkeyed : ((c.places l).filter (·.2.key ≠ none)).filter (·.2.key = some key.toList) =
        (c.places l).filter (·.2.key = some key.toList) := by
      rw [List.filter_filter]
      refine List.filter_congr fun x _ => ?_
      cases x.2.key <;> simp
    rw [childrenOf_named, Command.ofForm, find?_namedOf, hargs]
    simp only [List.filter_map, Function.comp_def, keyOf?_node, hkeyed, List.getLast?_map]
    cases ((c.places l).filter (·.2.key = some key.toList)).getLast? <;> simp
  · rw [childrenOf_named, Command.ofForm, keys_namedOf, hargs]
    simp only [List.map_map, Function.comp_def, keyOf?_node, String.toList_ofList]
    rw [map_key_filter, List.dedup_map_of_injective fun _ _ => Option.some.inj]

/-- **What is reported of a command is told by its node.** -/
theorem duplicatesIn_node (l : Location) (c : Source.Call) :
    duplicatesIn (c.node l) =
      (duplicatesAmong (String.ofList c.name) [] (c.places l)).map some := by
  have hname : textOf? .commandName (c.node l) = some c.name := by
    simpa [Command.ofForm] using (collects_node l c).name
  rw [duplicatesAmong_eq, duplicatesIn, childrenOf_named, repeatedBy_map, List.map_map]
  simp only [keyOf?_node]
  refine List.map_congr_left fun e _ => ?_
  obtain ⟨l', a⟩ := e
  cases hk : a.key <;> simp [duplicate?, hname, placedDuplicate?, hk]

theorem map_command_statementsOf (p : Source.Program) :
    (statementsOf p).map (·.command) = p.places.map fun x => Command.ofForm x.2.call := by
  have hplaces : p.places.map Prod.snd = p.statements.map Prod.fst :=
    Source.map_snd_placeStatements ..
  have hmap := congrArg (List.map fun s => Command.ofForm s.call) hplaces
  simpa [statementsOf, Statement.ofForm, Function.comp_def] using hmap.symm

theorem notices_of_ofSource {source : String} {p : Source.Program}
    (h : Source.Program.ofSource source = .ok p) :
    notices source = (duplicatesOf p).map Duplicate.record ++
      if source = "" then [] else [parsed Log.parserLogger p.statements.length] := by
  unfold notices
  rw [h]
  split
  · next hempty =>
    have hnone : Source.Program.ofSource "" = .ok ⟨[], []⟩ := by decide +kernel
    rw [hempty, hnone] at h
    cases h
    rfl
  · rfl

/-- A command with keys that are written again, and positional arguments between them. -/
def interleaved : String := "(a j:1 $y k:\"2\" z k:3\n j:4 l:5 k:\"\\\"\")"

/-- The command that it holds. -/
def collected : Command :=
  ⟨"a", [.reference "y", .literal "z"],
    ⟨[("j", .literal "4"), ("l", .literal "5"), ("k", .literal "\"")], by decide⟩⟩

end Script

end Runbook
