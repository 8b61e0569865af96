import VisualBasic.Proofs.Syntax.Nodes

/-!
How the statements and declarations of a list are set apart: a colon or the end of a line stands
between them.
-/

set_option autoImplicit false

namespace VisualBasic

/-- The token ends a statement. -/
def Token.isSeparator (t : Token) : Bool := t.kind == .mark .colon || t.kind == .lineTerminator

namespace Node

/-- The statements and the declarations that a node lists. -/
def lists : Node → List (List Node)
  | file f => [ofDeclarations f.declarations]
  | script s => [ofStatements s.statements]
  | declaration (.namespaceBlock d) => [ofDeclarations d.members]
  | declaration (.type d) => [ofDeclarations d.members]
  | declaration (.enum d) => [ofDeclarations d.members]
  | declaration (.method d) => (d.body.map ofStatements).toList
  | declaration (.operator d) => [ofStatements d.body]
  | declaration (.customEvent d) => [ofDeclarations d.accessors]
  | declaration (.property d) => (d.accessors.map ofDeclarations).toList
  | declaration (.accessor d) => [ofStatements d.body]
  | statement (.ifBlock b) => [ofStatements b.body]
  | statement (.lineIf b) => ofStatements b.statements :: (b.elseStatements.map ofStatements).toList
  | statement (.doBlock b) => [ofStatements b.body]
  | statement (.forBlock b) => [ofStatements b.body]
  | statement (.forEachBlock b) => [ofStatements b.body]
  | statement (.whileBlock b) => [ofStatements b.body]
  | statement (.objectBlock b) => [ofStatements b.body]
  | statement (.usingBlock b) => [ofStatements b.body]
  | statement (.tryBlock b) => [ofStatements b.body]
  | statement (.selectBlock b) => [ofStatements b.leading]
  | ifPart (.elseIf _ body _) => [ofStatements body]
  | ifPart (.elsePart _ body _) => [ofStatements body]
  | caseBlock b => [ofStatements b.body]
  | tryPart (.catchPart _ body _) => [ofStatements body]
  | tryPart (.finallyPart _ body _) => [ofStatements body]
  | _ => []

def isLabel : Node → Bool
  | statement (.label _ _) => true
  | _ => false

/-- The node is a single-line `If` with an end of its own. -/
def endsInLine : Node → Bool
  | statement (.lineIf b) => b.ending.isSome
  | _ => false

/-- The node is a loop that is closed by a variable which another loop has left over. -/
def ClosedByRest (n : Node) : Prop :=
  ∃ next named index, n.closing? = some (next, some named) ∧ 0 < index ∧
    next.loopVariables.items[index]? = some named

/-- The statement does not ask for a separator behind it. -/
def RunsOn (n : Node) : Prop := n.isLabel = true ∨ n.endsInLine = true ∨ n.ClosedByRest

/-- A separator stands between the two nodes. -/
abbrev Separated (tokens : List Token) (a b : Node) : Prop :=
  ∃ k ∈ tokens, k.isSeparator = true ∧ a.span.finish.index ≤ k.span.start.index ∧
    k.span.finish.index ≤ b.span.start.index

/-- The two nodes are separated, unless the first one runs on. -/
def Apart (tokens : List Token) (a b : Node) : Prop := a.RunsOn ∨ Separated tokens a b

/-- What the node lists is set apart. -/
def Tidy (tokens : List Token) (n : Node) : Prop :=
  ∀ l ∈ n.lists, l.IsChain (Apart tokens)

theorem Apart.mono {tokens others : List Token} {a b : Node} (apart : Apart tokens a b)
    (more : tokens ⊆ others) : Apart others a b :=
  apart.imp_right fun found => found.imp fun _ facts => ⟨more facts.1, facts.2⟩

theorem isChain_apart_mono {tokens others : List Token} {ns : List Node}
    (apart : ns.IsChain (Apart tokens)) (more : tokens ⊆ others) : ns.IsChain (Apart others) :=
  apart.imp fun _ _ apart => apart.mono more

end Node

end VisualBasic
