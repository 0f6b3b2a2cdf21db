/-
  The grammar of programs, as derivations of trees.

      program        := ws statement* ws
      statement      := assignment | exec
      assignment     := identifier ":" ws cmd-expr ws
      exec           := cmd-expr ws
      cmd-expr       := "(" ws cmd-name (ws argument)* ws ")"
      argument       := named-arg | positional-arg
      named-arg      := identifier ":" value
      positional-arg := value
      value          := "$" identifier | quoted-string | unquoted-string

  Every judgment is about a text that stands between what is `before` it and the
  `rest` of the source, and derives the node of that text; the node's place is the
  one after `before`.  Layout, names and unquoted strings are longest matches.  An
  argument is positional only if no named one begins at its position.  The layout
  that ends a statement belongs to no node.
-/
import Runbook.Proofs.Source.Words
import Runbook.Source.Node

namespace Runbook.Source.Grammar

/-- The place after a text at the beginning of the source. -/
def place (before : List Char) : Location := Location.start.after before

/-- An identifier as long as it can be. -/
abbrev Identifier := Longest (Run isNameChar)

/-- Layout as long as it can be. -/
abbrev Ws := Longest Layout

/-- Values.  What begins with `$` or a quote is no unquoted string. -/
inductive Value (before : List Char) : List Char → List Char → Node → Prop
  | variableRef {name rest : List Char} :
      Identifier name rest →
      Value before ('$' :: name) rest
        ⟨.variableRef, '$' :: name, place before,
          [⟨.identifier, name, place (before ++ ['$']), []⟩]⟩
  | quotedString {body rest : List Char} :
      Text.Body '"' body →
      Value before ('"' :: (body ++ ['"'])) rest
        ⟨.quotedString, '"' :: (body ++ ['"']), place before, []⟩
  | unquotedString {text rest : List Char} :
      text.head? ≠ some '"' → Longest (Run isBareChar) text rest →
      Value before text rest ⟨.unquotedString, text, place before, []⟩

/-- Named arguments. -/
inductive NamedArg (before : List Char) : List Char → List Char → Node → Prop
  | intro {key value rest : List Char} {v : Node} :
      Identifier key (':' :: (value ++ rest)) → Value (before ++ (key ++ [':'])) value rest v →
      NamedArg before (key ++ ':' :: value) rest
        ⟨.namedArg, key ++ ':' :: value, place before, [⟨.identifier, key, place before, []⟩, v]⟩

/-- Arguments: named ones first. -/
inductive Argument (before : List Char) : List Char → List Char → Node → Prop
  | named {text rest : List Char} {n : Node} :
      NamedArg before text rest n → Argument before text rest n
  | positional {text rest : List Char} {v : Node} :
      (∀ text' rest' n, text' ++ rest' = text ++ rest → ¬ NamedArg before text' rest' n) →
      Value before text rest v →
      Argument before text rest ⟨.positionalArg, text, place before, [v]⟩

/-- Arguments in a row, each after layout. -/
inductive Arguments : List Char → List Char → List Char → List Node → Prop
  | nil {before rest : List Char} : Arguments before [] rest []
  | cons {before layout text more rest : List Char} {n : Node} {ns : List Node} :
      Ws layout (text ++ (more ++ rest)) → Argument (before ++ layout) text (more ++ rest) n →
      Arguments (before ++ (layout ++ text)) more rest ns →
      Arguments before (layout ++ text ++ more) rest (n :: ns)

/-- Commands in their parentheses. -/
inductive Command (before : List Char) : List Char → List Char → Node → Prop
  | intro {opening name arguments closing rest : List Char} {ns : List Node} :
      Ws opening (name ++ (arguments ++ (closing ++ ')' :: rest))) →
      Longest (Run isCommandChar) name (arguments ++ (closing ++ ')' :: rest)) →
      Arguments (before ++ '(' :: (opening ++ name)) arguments (closing ++ ')' :: rest) ns →
      Ws closing (')' :: rest) →
      Command before ('(' :: (opening ++ name ++ arguments ++ closing ++ [')'])) rest
        ⟨.command, '(' :: (opening ++ name ++ arguments ++ closing ++ [')']), place before,
          ⟨.commandName, name, place (before ++ '(' :: opening), []⟩ :: ns⟩

/-- Statements, without the layout after them. -/
inductive Statement (before : List Char) : List Char → List Char → Node → Prop
  | exec {text rest : List Char} {c : Node} :
      Command before text rest c → Statement before text rest ⟨.exec, text, place before, [c]⟩
  | assignment {name layout text rest : List Char} {c : Node} :
      Identifier name (':' :: (layout ++ (text ++ rest))) → Ws layout (text ++ rest) →
      Command (before ++ (name ++ ':' :: layout)) text rest c →
      Statement before (name ++ ':' :: (layout ++ text)) rest
        ⟨.assignment, name ++ ':' :: (layout ++ text), place before,
          [⟨.identifier, name, place before, []⟩, c]⟩

/-- Statements in a row, each before layout. -/
inductive Statements : List Char → List Char → List Char → List Node → Prop
  | nil {before rest : List Char} : Statements before [] rest []
  | cons {before text layout more rest : List Char} {n : Node} {ns : List Node} :
      Statement before text (layout ++ (more ++ rest)) n → Ws layout (more ++ rest) →
      Statements (before ++ (text ++ layout)) more rest ns →
      Statements before (text ++ (layout ++ more)) rest (n :: ns)

/-- Programs: whole sources. -/
inductive Program : List Char → Node → Prop
  | intro {leading text trailing : List Char} {ns : List Node} :
      Ws leading (text ++ trailing) → Statements leading text trailing ns → Ws trailing [] →
      Program (leading ++ (text ++ trailing))
        ⟨.program, leading ++ (text ++ trailing), place [], ns⟩

end Runbook.Source.Grammar
