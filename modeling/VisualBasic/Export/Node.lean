import VisualBasic.Export.Statement
import VisualBasic.Syntax.Ancestry

/-!
Whole texts and the nodes of their trees as data.
-/

set_option autoImplicit false

namespace VisualBasic

def Comment.datum (c : Comment) : Datum :=
  .record [("text", .text c.text), ("is_rem", .flag c.isRem), ("span", c.span.datum)]

def SourceFile.datum (f : SourceFile) : Datum :=
  .record [("declarations", f.declarations.datum), ("comments", .ofList Comment.datum f.comments),
    ("span", f.span.datum)]

def Script.datum (s : Script) : Datum :=
  .record [("statements", s.statements.datum), ("comments", .ofList Comment.datum s.comments),
    ("span", s.span.datum)]

/-- What is worth knowing about a statement beyond its kind. -/
def Statement.facts : Statement → Datum
  | ifBlock b => .list [.ofNat b.elseIfs.length, .ofOption (fun p => p.span.datum) b.elsePart?,
      .ofList (fun p => p.span.datum) b.parts]
  | tryBlock b => .list [.ofNat b.catches.length,
      .ofOption (fun p => p.span.datum) b.finallyPart?, .ofList (fun p => p.span.datum) b.parts]
  | selectBlock b => .ofOption (fun c => c.span.datum) b.caseElse?
  | compoundAssignment s => .list [.text s.op.spelling, .text s.op.binary.spelling]
  | forBlock b => b.control.span.datum
  | forEachBlock b => b.control.span.datum
  | usingBlock b => b.resource.span.datum
  | endBlock e => e.kind.datum
  | label l _ | goTo l _ => l.span.datum
  | _ => .null

def Expression.facts : Expression → Datum
  | binary _ op _ _ _ => .text op.spelling
  | unary op _ _ => .text op.spelling
  | _ => .null

def DeclarationHead.facts (h : DeclarationHead) : Datum :=
  .list [.ofNat h.modifiers.flags, .flag h.modifiers.isEmpty,
    .flag (h.modifiers.contains .modShared)]

def TypeDeclaration.facts (d : TypeDeclaration Declaration) : Datum :=
  .list [d.kind.block.datum, .ofList (fun t => .text t.render) (d.listed .inheritsFrom),
    .ofList (fun t => .text t.render) (d.listed .implementsAll)]

/-- What is worth knowing about a declaration alone. -/
def Declaration.ownFacts : Declaration → Datum
  | type d => d.facts
  | accessor d => d.kind.block.datum
  | method d => .flag (d.kind == .function)
  | operator d => .ofOption (fun op => .text op.spelling) d.operator
  | _ => .null

def Declaration.facts (d : Declaration) : Datum :=
  .list [.ofOption DeclarationHead.facts d.head?, d.ownFacts]

namespace Node

/-- What is worth knowing about a node beyond its kind. -/
def facts : Node → Datum
  | typeName t => .text t.render
  | name n => .list [.text n.render, .ofOption (fun n => .text n.text) n.last?,
      .flag n.isIncomplete]
  | simpleName n => .list [.text n.text, .flag (n.isSpelled "NAME")]
  | variableName n => .ofOption (fun b => .flag b.isRankOnly) n.array
  | declarator d => .ofOption (fun c => .flag c.isNew) d.asClause
  | argument a => .list [.flag a.isNamed, .flag a.isOmitted]
  | caseBlock b => .flag b.header.isElse
  | statement s => s.facts
  | expression e => e.facts
  | declaration d => d.facts
  | _ => .null

/-- All nodes from `n` down in the order of the visits. -/
def walkDatum (n : Node) : Datum :=
  .ofList (fun (p, depth) => .list [.ofNat depth, .ofNat p.node.kind.code, p.node.kind.datum,
    .text p.node.kind.category.title, p.node.span.datum, .flag p.node.isBad, p.node.facts]) n.visits

/-- For all nodes from `n` down what they hang from, with the nodes numbered as they are visited. -/
def ancestryDatum (n : Node) : Datum :=
  let nodes := n.visits.map Prod.fst
  let parents := ParentMap.build n
  .record [("len", .ofNat parents.size), ("empty", .flag parents.isEmpty),
    ("parents", .ofList (fun p => .ofOption (fun q => .ofNat (nodes.findIdx (·.way == q.way)))
      (parents.parent p)) nodes),
    ("ancestors", .ofList (fun p => .ofNat (parents.ancestors p).length) nodes)]

end Node

end VisualBasic
