/-
  The parts of a program as one tree of nodes.

  A node has a kind, the text that it covers, the place where that text begins
  and the nodes of its parts.  `Program.node` shows a written form as such a
  tree; each part's place is counted from its parent's by the text in between.
-/
import Runbook.Source.Form
import Runbook.Source.SyntaxError

namespace Runbook.Source

/-- The kinds of nodes. -/
inductive NodeKind where
  | program
  | assignment
  | exec
  | command
  | commandName
  | identifier
  | namedArg
  | positionalArg
  | variableRef
  | quotedString
  | unquotedString
  deriving DecidableEq, Repr

namespace NodeKind

/-- Every kind. -/
def all : List NodeKind :=
  [program, assignment, exec, command, commandName, identifier, namedArg, positionalArg,
    variableRef, quotedString, unquotedString]

/-- The name of a kind. -/
def name : NodeKind → String
  | program => "program"
  | assignment => "assignment"
  | exec => "exec"
  | command => "command"
  | commandName => "cmd-name"
  | identifier => "identifier"
  | namedArg => "named-arg"
  | positionalArg => "positional-arg"
  | variableRef => "variable-ref"
  | quotedString => "quoted-string"
  | unquotedString => "unquoted-string"

/-- The kind of a name. -/
def ofName? (s : String) : Option NodeKind := all.find? (·.name = s)

end NodeKind

/-- A node of the tree. -/
structure Node where
  kind : NodeKind
  text : List Char
  location : Location
  children : List Node

namespace Node

/-- A node without children. -/
def leaf (kind : NodeKind) (text : List Char) (location : Location) : Node :=
  ⟨kind, text, location, []⟩

/-- The first child of a kind. -/
def child? (n : Node) (kind : NodeKind) : Option Node := n.children.find? (·.kind = kind)

/-- The children of some kinds, in order. -/
def childrenOf (n : Node) (kinds : List NodeKind) : List Node :=
  n.children.filter (·.kind ∈ kinds)

/-- The node that a path of child numbers leads to. -/
def descend? (n : Node) : List Nat → Option Node
  | [] => some n
  | i :: path => n.children[i]?.bind (descend? · path)

end Node

/-! ## The tree of a form -/

/-- The node of a word that begins at a place. -/
def Word.node (place : Location) (w : Word) : Node :=
  match w with
  | reference name =>
    ⟨.variableRef, w.text, place, [.leaf .identifier name (place.next '$')]⟩
  | quoted _ => .leaf .quotedString w.text place
  | bare _ => .leaf .unquotedString w.text place

/-- The node of an argument that begins at a place. -/
def Argument.node (place : Location) (a : Argument) : Node :=
  match a.key with
  | none => ⟨.positionalArg, a.text, place, [a.word.node place]⟩
  | some key =>
    ⟨.namedArg, a.text, place,
      [.leaf .identifier key place, a.word.node (place.after (key ++ [':']))]⟩

/-- The arguments of a list with their places, where the list's text begins at a place. -/
def placeArguments (place : Location) :
    List (List Char × Argument) → List (Location × Argument)
  | [] => []
  | (layout, a) :: arguments =>
    (place.after layout, a) :: placeArguments (place.after (layout ++ a.text)) arguments

/-- The arguments of a command with their places, where the command begins at a place. -/
def Call.places (place : Location) (c : Call) : List (Location × Argument) :=
  placeArguments (place.after ('(' :: (c.opening ++ c.name))) c.arguments

/-- The node of a command that begins at a place. -/
def Call.node (place : Location) (c : Call) : Node :=
  ⟨.command, c.text, place,
    .leaf .commandName c.name (place.after ('(' :: c.opening)) ::
      (c.places place).map fun (l, a) => a.node l⟩

/-- The place of a statement's command, where the statement begins at a place. -/
def Statement.callLocation (place : Location) (s : Statement) : Location :=
  match s.target with
  | none => place
  | some (name, layout) => place.after (name ++ ':' :: layout)

/-- The node of a statement that begins at a place. -/
def Statement.node (place : Location) (s : Statement) : Node :=
  match s.target with
  | none => ⟨.exec, s.text, place, [s.call.node place]⟩
  | some (name, _) =>
    ⟨.assignment, s.text, place,
      [.leaf .identifier name place, s.call.node (s.callLocation place)]⟩

/-- The statements of a list with their places, where the list's text begins at a place. -/
def placeStatements (place : Location) :
    List (Statement × List Char) → List (Location × Statement)
  | [] => []
  | (s, layout) :: statements =>
    (place, s) :: placeStatements (place.after (s.text ++ layout)) statements

/-- The statements of a program with their places. -/
def Program.places (p : Program) : List (Location × Statement) :=
  placeStatements (Location.start.after p.leading) p.statements

/-- The tree of a program. -/
def Program.node (p : Program) : Node :=
  ⟨.program, p.text, .start, p.places.map fun (l, s) => s.node l⟩

end Runbook.Source
