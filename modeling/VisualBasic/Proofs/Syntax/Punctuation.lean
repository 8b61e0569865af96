import VisualBasic.Proofs.Syntax.Nodes

/-!
Lists with commas, wherever in a tree they are: there is a comma between any two neighbours, and an
array has as many bounds as dimensions.
-/

set_option autoImplicit false

namespace VisualBasic

/-- A list as its commas see it: where its items and the commas are, and for the bounds of an array
the number of dimensions. -/
structure Punctuation where
  items : List Span
  commas : List Location
  rank : Option Nat

namespace Punctuation

/-- The list is consistent.  Where its commas stand is told of a clean text only: a dimension
without bounds leaves a comma that is not between its neighbours, and is reported. -/
structure Holds (p : Punctuation) (clean : Prop) : Prop where
  count : p.commas.length = p.items.length - 1
  between : clean → ∀ i a comma b, p.items[i]? = some a → p.commas[i]? = some comma →
    p.items[i + 1]? = some b → a.finish.index ≤ comma.index ∧ comma.index < b.start.index
  ranked : ∀ rank ∈ p.rank, 1 ≤ rank ∧ p.items.length ≤ rank
  filled : clean → ∀ rank ∈ p.rank, p.items ≠ [] → p.items.length = rank

theorem Holds.mono {p : Punctuation} {clean clean' : Prop} (holds : p.Holds clean)
    (cleaner : clean' → clean) : p.Holds clean' :=
  ⟨holds.count, fun is => holds.between (cleaner is), holds.ranked,
    fun is => holds.filled (cleaner is)⟩

variable {α : Type}

def ofList (span : α → Span) (l : CommaList α) : Punctuation :=
  ⟨l.items.map span, l.separators, none⟩

theorem holds_empty (span : α → Span) (place : Location) (clean : Prop) :
    (ofList span (.empty place)).Holds clean :=
  ⟨rfl, by simp [ofList, CommaList.empty], by simp [ofList], by simp [ofList]⟩

theorem holds_single (span : α → Span) (item : α) (extent : Span) (clean : Prop) :
    (ofList span (.single item extent)).Holds clean :=
  ⟨rfl, by simp [ofList, CommaList.single], by simp [ofList], by simp [ofList]⟩

-- The lists of a part that is no node itself

def ofTypeArguments (a : Option TypeArguments) : List Punctuation :=
  (a.map fun l => [ofList TypeName.span l.arguments]).getD []

def ofTypeParameters (p : Option TypeParameterList) : List Punctuation :=
  (p.map fun l => [ofList TypeParameter.span l.parameters]).getD []

def ofBounds (b : Option (ArrayBounds Expression)) : List Punctuation :=
  (b.map fun l =>
    [⟨l.bounds.items.map ArrayBound.span, l.bounds.separators, some l.rank⟩]).getD []

def ofArguments (a : Option Arguments) : List Punctuation :=
  (a.map fun l => [ofList Argument.span l.arguments]).getD []

def ofAttributes (blocks : List AttributeBlock) : List Punctuation :=
  blocks.map fun b => ofList Attribute.span b.attributes

def ofParameters (p : Option ParameterList) : List Punctuation :=
  (p.map fun l => [ofList Parameter.span l.parameters]).getD []

def ofReturnType (r : Option ReturnType) : List Punctuation :=
  (r.map fun t => ofAttributes t.attributes).getD []

def ofConstraints (c : Option ConstraintList) : List Punctuation :=
  (c.map fun l => [ofList Constraint.span l.constraints]).getD []

def ofImplements (c : Option ImplementsClause) : List Punctuation :=
  (c.map fun l => [ofList Name.span l.members]).getD []

def ofHandles (c : Option HandlesClause) : List Punctuation :=
  (c.map fun l => [ofList HandlesItem.span l.events]).getD []

def ofDeclarators (l : CommaList VariableDeclarator) : Punctuation :=
  ofList VariableDeclarator.span l

def ofResource : UsingResource → List Punctuation
  | .expression _ => []
  | .declarators d => [ofDeclarators d]

def ofCaseHeader : CaseHeader → List Punctuation
  | .case s => [ofList CaseClause.span s.clauses]
  | .caseElse _ => []

def ofNext (s : Option NextStatement) : List Punctuation :=
  (s.map fun next => [ofList Expression.span next.loopVariables]).getD []

-- The lists of a node.  All kinds of nodes are listed, so that none is overlooked

def ofExpression : Expression → List Punctuation
  | .simpleName _ arguments _ | .qualified _ _ _ arguments _ => ofTypeArguments arguments
  | .callOrIndex _ arguments _ => ofArguments (some arguments)
  | .newObject _ arguments _ => ofArguments arguments
  | .literal _ _ | .dictionaryLookup _ _ _ _ | .currentInstance _ _ | .globalNamespace _
  | .nothing _ | .parenthesized _ _ _ | .unary _ _ _ | .binary _ _ _ _ _ | .typeOf _ _ _ _
  | .getType _ _ _ | .cast _ _ _ _ _ _ | .intrinsicCast _ _ _ _ | .newArray _ _ _ | .addressOf _ _
  | .bad _ => []

def ofType : TypeName → List Punctuation
  | .constructed _ arguments _ => ofTypeArguments (some arguments)
  | .array _ _ bounds _ => ofBounds bounds
  | .intrinsic _ _ | .named _ _ | .bad _ => []

def ofDeclaration : Declaration → List Punctuation
  | .imports clauses _ => [ofList ImportsClause.span clauses]
  | .attributes blocks _ => ofAttributes blocks
  | .type d => ofAttributes d.head.attributes ++ ofTypeParameters d.typeParameters
  | .enum d => ofAttributes d.head.attributes
  | .enumValue d => ofAttributes d.attributes
  | .typeList d => [ofList TypeName.span d.types]
  | .variableList d => ofAttributes d.head.attributes ++ [ofDeclarators d.declarators]
  | .method d =>
    ofAttributes d.head.attributes ++ ofTypeParameters d.typeParameters
      ++ ofParameters d.parameters ++ ofReturnType d.returnType ++ ofHandles d.handledEvents
      ++ ofImplements d.implemented
  | .operator d =>
    ofAttributes d.head.attributes ++ ofParameters d.parameters ++ ofReturnType d.returnType
  | .external d =>
    ofAttributes d.head.attributes ++ ofParameters d.parameters ++ ofReturnType d.returnType
  | .delegate d =>
    ofAttributes d.head.attributes ++ ofTypeParameters d.typeParameters
      ++ ofParameters d.parameters ++ ofReturnType d.returnType
  | .event d =>
    ofAttributes d.head.attributes ++ ofParameters d.parameters ++ ofImplements d.implemented
  | .customEvent d => ofAttributes d.head.attributes ++ ofImplements d.implemented
  | .property d =>
    ofAttributes d.head.attributes ++ ofParameters d.parameters ++ ofReturnType d.returnType
      ++ ofImplements d.implemented
  | .accessor d => ofAttributes d.head.attributes ++ ofParameters d.parameters
  | .option _ _ _ | .namespaceBlock _ | .endBlock _ | .bad _ => []

def ofStatement : Statement → List Punctuation
  | .call s => ofArguments s.arguments
  | .localDeclaration s => [ofDeclarators s.declarators]
  | .raiseEvent _ arguments _ => ofArguments arguments
  | .reDim _ arrays _ | .erase arrays _ => [ofList Expression.span arrays]
  | .forBlock b => ofNext b.ending
  | .forEachBlock b => ofNext b.ending
  | .usingBlock b => ofResource b.resource
  | .next s => ofNext (some s)
  | .case s => ofCaseHeader (.case s)
  | .declaration d => ofDeclaration d
  | .assignment _ | .compoundAssignment _ | .midAssignment _ | .label _ _ | .goTo _ _
  | .exitBlock _ _ | .continueBlock _ _ | .stop _ | .endProgram _ | .returnValue _ _
  | .throwException _ _ | .raiseError _ _ | .handler _ | .onError _ _ | .resume _ _ | .ifBlock _
  | .lineIf _ | .doBlock _ | .whileBlock _ | .objectBlock _ | .tryBlock _ | .selectBlock _
  | .endBlock _ | .loop _ | .elseIf _ | .elsePart _ | .caseElse _ | .catchPart _ | .finallyPart _
  | .bad _ => []

end Punctuation

namespace Node

/-- The lists with commas that belong to the node itself. -/
def punctuation : Node → List Punctuation
  | declaration d => Punctuation.ofDeclaration d
  | statement s => Punctuation.ofStatement s
  | expression e => Punctuation.ofExpression e
  | typeName t => Punctuation.ofType t
  | variableName n => Punctuation.ofBounds n.array
  | aggregate a => [.ofList Initializer.span a.elements]
  | declarator d =>
    .ofList VariableName.span d.names
      :: Punctuation.ofArguments (d.asClause.bind AsClause.arguments)
  | parameter p => Punctuation.ofAttributes p.attributes
  | typeParameter p => Punctuation.ofConstraints p.constraints
  | appliedAttribute a => Punctuation.ofArguments a.arguments
  | caseBlock b => Punctuation.ofCaseHeader b.header
  | file _ | script _ | name _ | simpleName _ | argument _ | constraint _ | arrayBound _
  | importsClause _ | handlesItem _ | caseClause _ | ifPart _ | tryPart _ => []

/-- The lists of the node are consistent. -/
def HoldsLists (clean : Prop) (n : Node) : Prop := ∀ p ∈ n.punctuation, p.Holds clean

/-- The same is true of the variables of the `Next` that closes it, which need not be nodes of the
tree. -/
def IsPunctuated (clean : Prop) (n : Node) : Prop :=
  n.HoldsLists clean ∧ ∀ v ∈ n.closingVariables, (expression v).Everywhere (HoldsLists clean)

variable {clean clean' : Prop} {n : Node}

theorem HoldsLists.mono (holds : n.HoldsLists clean) (cleaner : clean' → clean) :
    n.HoldsLists clean' :=
  fun p member => (holds p member).mono cleaner

/-- A tree is consistent if its root is, which is no loop, and the trees below are. -/
theorem everywhere_of_lists {ls : List Punctuation} (own : (n.punctuation, n.closing?) = (ls, none))
    (lists : ∀ p ∈ ls, p.Holds clean) (below : ∀ c ∈ n.children, c.Everywhere (IsPunctuated clean)) :
    n.Everywhere (IsPunctuated clean) := by
  obtain ⟨punctuation, noLoop⟩ := Prod.mk.inj own
  refine everywhere_iff.2 ⟨⟨fun p member => lists p (punctuation ▸ member), ?_⟩, below⟩
  simp [closingVariables, noLoop]

theorem IsPunctuated.mono (punctuated : n.IsPunctuated clean) (cleaner : clean' → clean) :
    n.IsPunctuated clean' :=
  ⟨punctuated.1.mono cleaner, fun v member =>
    (punctuated.2 v member).mono fun _ holds => holds.mono cleaner⟩

end Node

end VisualBasic
