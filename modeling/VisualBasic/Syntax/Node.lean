import VisualBasic.Syntax.NodeKind
import VisualBasic.Syntax.Statement

/-!
The nodes of a syntax tree, seen alike whatever they are: each has a kind, a span and children in
the order of the source.
-/

set_option autoImplicit false

namespace VisualBasic

namespace Constant

def kind : Constant → NodeKind
  | boolean _ => .booleanLiteralExpression
  | literal (.integer _ _ _) => .integerLiteralExpression
  | literal (.floatingPoint _ _) => .floatingPointLiteralExpression
  | literal (.decimal _ _) => .decimalLiteralExpression
  | literal (.character _) => .characterLiteralExpression
  | literal (.string _) => .stringLiteralExpression
  | literal (.date _) => .dateLiteralExpression

end Constant

def InstanceKind.kind : InstanceKind → NodeKind
  | me => .meExpression
  | myBase => .myBaseExpression
  | myClass => .myClassExpression

def CastKind.kind : CastKind → NodeKind
  | cType => .cTypeExpression
  | directCast => .directCastExpression
  | tryCast => .tryCastExpression

def Name.kind : Name → NodeKind
  | simple _ => .simpleName
  | qualified _ _ _ _ => .qualifiedName
  | globalNamespace _ => .globalNamespaceName
  | special _ _ => .specialName

def TypeName.kind : TypeName → NodeKind
  | intrinsic _ _ => .intrinsicType
  | named _ _ => .namedType
  | constructed _ _ _ => .constructedType
  | array _ _ _ _ => .arrayType
  | bad _ => .badType

def Expression.kind : Expression → NodeKind
  | literal value _ => value.kind
  | simpleName _ _ _ => .simpleNameExpression
  | qualified _ _ _ _ _ => .qualifiedExpression
  | dictionaryLookup _ _ _ _ => .dictionaryLookupExpression
  | callOrIndex _ _ _ => .callOrIndexExpression
  | currentInstance k _ => k.kind
  | globalNamespace _ => .globalExpression
  | nothing _ => .nothingExpression
  | parenthesized _ _ _ => .parenthesizedExpression
  | unary _ _ _ => .unaryOperatorExpression
  | binary _ _ _ _ _ => .binaryOperatorExpression
  | typeOf _ _ _ _ => .typeOfExpression
  | getType _ _ _ => .getTypeExpression
  | cast k _ _ _ _ _ => k.kind
  | intrinsicCast _ _ _ _ => .intrinsicCastExpression
  | newObject _ _ _ => .newExpression
  | newArray _ _ _ => .newAggregateExpression
  | addressOf _ _ => .addressOfExpression
  | bad _ => .badExpression

def ObjectBlockKind.kind : ObjectBlockKind → NodeKind
  | withObject => .withBlockStatement
  | syncLock => .syncLockBlockStatement

def TypeKind.kind : TypeKind → NodeKind
  | classType => .classDeclaration
  | structureType => .structureDeclaration
  | moduleType => .moduleDeclaration
  | interfaceType => .interfaceDeclaration

def TypeListKind.kind : TypeListKind → NodeKind
  | inheritsFrom => .inheritsDeclaration
  | implementsAll => .implementsDeclaration

def MethodKind.kind : MethodKind → NodeKind
  | subroutine => .subDeclaration
  | function => .functionDeclaration
  | constructor => .constructorDeclaration

def AccessorKind.kind : AccessorKind → NodeKind
  | get => .getAccessorDeclaration
  | set => .setAccessorDeclaration
  | addHandler => .addHandlerAccessorDeclaration
  | removeHandler => .removeHandlerAccessorDeclaration
  | raiseEvent => .raiseEventAccessorDeclaration

def HandlerStatement.kind (s : HandlerStatement) : NodeKind :=
  if s.adds then .addHandlerStatement else .removeHandlerStatement

def ExternalDeclaration.kind (d : ExternalDeclaration) : NodeKind :=
  if d.isFunction then .externalFunctionDeclaration else .externalSubDeclaration

def DelegateDeclaration.kind (d : DelegateDeclaration) : NodeKind :=
  if d.isFunction then .delegateFunctionDeclaration else .delegateSubDeclaration

def Declaration.kind : Declaration → NodeKind
  | option _ _ _ => .optionDeclaration
  | imports _ _ => .importsDeclaration
  | attributes _ _ => .attributeDeclaration
  | namespaceBlock _ => .namespaceDeclaration
  | type d => d.kind.kind
  | enum _ => .enumDeclaration
  | enumValue _ => .enumValueDeclaration
  | typeList d => d.kind.kind
  | variableList _ => .variableListDeclaration
  | method d => d.kind.kind
  | operator _ => .operatorDeclaration
  | external d => d.kind
  | delegate d => d.kind
  | event _ => .eventDeclaration
  | customEvent _ => .customEventDeclaration
  | property _ => .propertyDeclaration
  | accessor d => d.kind.kind
  | endBlock _ => .endBlockDeclaration
  | bad _ => .badDeclaration

def Statement.kind : Statement → NodeKind
  | assignment _ => .assignmentStatement
  | compoundAssignment _ => .compoundAssignmentStatement
  | midAssignment _ => .midAssignmentStatement
  | call _ => .callStatement
  | localDeclaration _ => .localDeclarationStatement
  | label _ _ => .labelStatement
  | goTo _ _ => .goToStatement
  | exitBlock _ _ => .exitStatement
  | continueBlock _ _ => .continueStatement
  | stop _ => .stopStatement
  | endProgram _ => .endStatement
  | returnValue _ _ => .returnStatement
  | throwException _ _ => .throwStatement
  | raiseError _ _ => .errorStatement
  | raiseEvent _ _ _ => .raiseEventStatement
  | handler s => s.kind
  | onError _ _ => .onErrorStatement
  | resume _ _ => .resumeStatement
  | reDim _ _ _ => .reDimStatement
  | erase _ _ => .eraseStatement
  | ifBlock _ => .ifBlockStatement
  | lineIf _ => .lineIfStatement
  | doBlock _ => .doBlockStatement
  | forBlock _ => .forBlockStatement
  | forEachBlock _ => .forEachBlockStatement
  | whileBlock _ => .whileBlockStatement
  | objectBlock b => b.kind.kind
  | usingBlock _ => .usingBlockStatement
  | tryBlock _ => .tryBlockStatement
  | selectBlock _ => .selectBlockStatement
  | endBlock _ => .endBlockStatement
  | loop _ => .loopStatement
  | next _ => .nextStatement
  | elseIf _ => .elseIfStatement
  | elsePart _ => .elseStatement
  | case _ => .caseStatement
  | caseElse _ => .caseElseStatement
  | catchPart _ => .catchStatement
  | finallyPart _ => .finallyStatement
  | declaration d => d.kind
  | bad _ => .badStatement

def CaseClause.kind : CaseClause → NodeKind
  | value _ => .caseValueClause
  | range _ _ _ _ => .caseRangeClause
  | relational _ _ _ _ => .caseRelationalClause

inductive Node where
  | file (file : SourceFile)
  | script (script : Script)
  | declaration (declaration : Declaration)
  | statement (statement : Statement)
  | expression (expression : Expression)
  | typeName (type : TypeName)
  | name (name : Name)
  | simpleName (name : SimpleName)
  | variableName (name : VariableName)
  | argument (argument : Argument Expression)
  | aggregate (elements : Aggregate)
  | declarator (declarator : VariableDeclarator)
  | parameter (parameter : Parameter)
  | typeParameter (parameter : TypeParameter)
  | constraint (constraint : Constraint)
  | arrayBound (bound : ArrayBound Expression)
  | appliedAttribute (applied : Attribute)
  | importsClause (clause : ImportsClause)
  | handlesItem (item : HandlesItem)
  | caseClause (clause : CaseClause)
  | ifPart (part : IfPart Statement)
  | caseBlock (block : CaseBlock Statement)
  | tryPart (part : TryPart Statement)
deriving Inhabited

namespace Node

def span : Node → Span
  | file f => f.span
  | script s => s.span
  | declaration d => d.span
  | statement s => s.span
  | expression e => e.span
  | typeName t => t.span
  | name n => n.span
  | simpleName n => n.span
  | variableName n => n.span
  | argument a => a.span
  | aggregate a => a.span
  | declarator d => d.span
  | parameter p => p.span
  | typeParameter p => p.span
  | constraint c => c.span
  | arrayBound b => b.span
  | appliedAttribute a => a.span
  | importsClause c => c.span
  | handlesItem i => i.span
  | caseClause c => c.span
  | ifPart p => p.span
  | caseBlock b => b.span
  | tryPart p => p.span

def kind : Node → NodeKind
  | file _ => .file
  | script _ => .scriptBlock
  | declaration d => d.kind
  | statement s => s.kind
  | expression e => e.kind
  | typeName t => t.kind
  | name n => n.kind
  | simpleName _ => .simpleName
  | variableName _ => .variableName
  | argument _ => .argument
  | aggregate _ => .aggregateInitializer
  | declarator _ => .variableDeclarator
  | parameter _ => .parameter
  | typeParameter _ => .typeParameter
  | constraint _ => .constraint
  | arrayBound _ => .arrayBound
  | appliedAttribute _ => .appliedAttribute
  | importsClause _ => .importsClause
  | handlesItem _ => .handlesItem
  | caseClause c => c.kind
  | ifPart (.elseIf _ _ _) => .elseIfBlock
  | ifPart (.elsePart _ _ _) => .elseBlock
  | caseBlock _ => .caseBlock
  | tryPart (.catchPart _ _ _) => .catchBlock
  | tryPart (.finallyPart _ _ _) => .finallyBlock

/-- A node for source that is missing or could not be understood. -/
def isBad : Node → Bool
  | simpleName n => n.isMissing
  | n => n.kind.isBad

/-- A declaration among statements is the declaration itself. -/
def ofStatement : Statement → Node
  | .declaration d => declaration d
  | s => statement s

/-- A name without qualifier is a simple name. -/
def ofName : Name → Node
  | .simple n => simpleName n
  | n => name n

def ofInitializer : Initializer → Node
  | .expression e => expression e
  | .aggregate a => aggregate a

-- The nodes below a part that is no node itself.

def ofOption {α : Type} (f : α → Node) (a : Option α) : List Node := (a.map f).toList

def ofLabel : Label → List Node
  | .name n => [simpleName n]
  | .lineNumber _ _ => []

def ofTypeArguments (a : Option TypeArguments) : List Node :=
  (a.map fun l => l.arguments.items.map typeName).getD []

def ofTypeParameters (p : Option TypeParameterList) : List Node :=
  (p.map fun l => l.parameters.items.map typeParameter).getD []

def ofBounds (b : Option (ArrayBounds Expression)) : List Node :=
  (b.map fun l => l.bounds.items.map arrayBound).getD []

def ofArguments (a : Option Arguments) : List Node :=
  (a.map fun l => l.arguments.items.map argument).getD []

def ofAttributes (blocks : List AttributeBlock) : List Node :=
  blocks.flatMap fun b => b.attributes.items.map appliedAttribute

def ofParameters (p : Option ParameterList) : List Node :=
  (p.map fun l => l.parameters.items.map parameter).getD []

def ofReturnType (r : Option ReturnType) : List Node :=
  (r.map fun t => ofAttributes t.attributes ++ [typeName t.type]).getD []

def ofImplements (c : Option ImplementsClause) : List Node :=
  (c.map fun l => l.members.items.map ofName).getD []

def ofHandles (c : Option HandlesClause) : List Node :=
  (c.map fun l => l.events.items.map handlesItem).getD []

def ofStatements (l : Statements) : List Node := l.statements.map ofStatement

def ofDeclarations (l : Declarations) : List Node := l.declarations.map declaration

def ofDeclarators (l : CommaList VariableDeclarator) : List Node := l.items.map declarator

def ofLoopCondition (c : Option LoopCondition) : List Node :=
  ofOption (fun c => expression c.condition) c

def ofCatch (c : CatchStatement) : List Node :=
  ofOption simpleName c.name ++ ofOption typeName c.exceptionType ++ ofOption expression c.filter

def ofForControl : ForControl → Node
  | .expression e => expression e
  | .declarator d => declarator d

def ofCaseHeader : CaseHeader → List Node
  | .case s => s.clauses.items.map caseClause
  | .caseElse _ => []

def ofResource : UsingResource → List Node
  | .expression e => [expression e]
  | .declarators d => ofDeclarators d

def childrenOfName : Name → List Node
  | .qualified q _ n _ => [ofName q, simpleName n]
  | _ => []

def childrenOfType : TypeName → List Node
  | .intrinsic _ _ | .bad _ => []
  | .named n _ => [ofName n]
  | .constructed n args _ => ofName n :: args.arguments.items.map typeName
  | .array e _ bounds _ => typeName e :: ofBounds bounds

def childrenOfExpression : Expression → List Node
  | .literal _ _ | .currentInstance _ _ | .globalNamespace _ | .nothing _ | .bad _ => []
  | .simpleName n args _ => simpleName n :: ofTypeArguments args
  | .qualified q _ n args _ => ofOption expression q ++ simpleName n :: ofTypeArguments args
  | .dictionaryLookup q _ n _ => ofOption expression q ++ [simpleName n]
  | .callOrIndex t args _ => expression t :: ofArguments (some args)
  | .parenthesized e _ _ => [expression e]
  | .unary _ e _ => [expression e]
  | .binary l _ _ r _ => [expression l, expression r]
  | .typeOf e _ t _ => [expression e, typeName t]
  | .getType t _ _ => [typeName t]
  | .cast _ e _ t _ _ => [expression e, typeName t]
  | .intrinsicCast _ e _ _ => [expression e]
  | .newObject t args _ => typeName t :: ofArguments args
  | .newArray t a _ => [typeName t, aggregate a]
  | .addressOf e _ => [expression e]

def childrenOfDeclaration : Declaration → List Node
  | .option _ _ _ | .endBlock _ | .bad _ => []
  | .imports clauses _ => clauses.items.map importsClause
  | .attributes blocks _ => ofAttributes blocks
  | .namespaceBlock d => ofName d.name :: ofDeclarations d.members
  | .type d =>
    ofAttributes d.head.attributes ++ simpleName d.name :: ofTypeParameters d.typeParameters
      ++ ofDeclarations d.members
  | .enum d =>
    ofAttributes d.head.attributes ++ simpleName d.name :: ofOption typeName d.underlying
      ++ ofDeclarations d.members
  | .enumValue d => ofAttributes d.attributes ++ simpleName d.name :: ofOption expression d.value
  | .typeList d => d.types.items.map typeName
  | .variableList d => ofAttributes d.head.attributes ++ ofDeclarators d.declarators
  | .method d =>
    ofAttributes d.head.attributes ++ simpleName d.name :: ofTypeParameters d.typeParameters
      ++ ofParameters d.parameters ++ ofReturnType d.returnType ++ ofHandles d.handledEvents
      ++ ofImplements d.implemented ++ (d.body.map ofStatements).getD []
  | .operator d =>
    ofAttributes d.head.attributes ++ ofParameters d.parameters ++ ofReturnType d.returnType
      ++ ofStatements d.body
  | .external d =>
    ofAttributes d.head.attributes ++ simpleName d.name :: ofParameters d.parameters
      ++ ofReturnType d.returnType
  | .delegate d =>
    ofAttributes d.head.attributes ++ simpleName d.name :: ofTypeParameters d.typeParameters
      ++ ofParameters d.parameters ++ ofReturnType d.returnType
  | .event d =>
    ofAttributes d.head.attributes ++ simpleName d.name :: ofParameters d.parameters
      ++ ofOption typeName d.type ++ ofImplements d.implemented
  | .customEvent d =>
    ofAttributes d.head.attributes ++ simpleName d.name :: ofOption typeName d.type
      ++ ofImplements d.implemented ++ ofDeclarations d.accessors
  | .property d =>
    ofAttributes d.head.attributes ++ simpleName d.name :: ofParameters d.parameters
      ++ ofReturnType d.returnType ++ ofImplements d.implemented
      ++ (d.accessors.map ofDeclarations).getD []
  | .accessor d =>
    ofAttributes d.head.attributes ++ ofParameters d.parameters ++ ofStatements d.body

def childrenOfStatement : Statement → List Node
  | .assignment s => [expression s.target, expression s.source]
  | .compoundAssignment s => [expression s.target, expression s.source]
  | .midAssignment s =>
    expression s.target :: expression s.start :: ofOption expression s.length
      ++ [expression s.source]
  | .call s => expression s.target :: ofArguments s.arguments
  | .localDeclaration s => ofDeclarators s.declarators
  | .label l _ | .goTo l _ => ofLabel l
  | .exitBlock _ _ | .continueBlock _ _ | .stop _ | .endProgram _ | .endBlock _ | .elsePart _
  | .caseElse _ | .finallyPart _ | .bad _ => []
  | .returnValue e _ | .throwException e _ | .raiseError e _ => ofOption expression e
  | .raiseEvent n args _ => simpleName n :: ofArguments args
  | .handler s => [expression s.event, expression s.handler]
  | .onError (.goToLabel l) _ => ofLabel l
  | .onError _ _ => []
  | .resume (.label l) _ => ofLabel l
  | .resume _ _ => []
  | .reDim _ vars _ => vars.items.map expression
  | .erase vars _ => vars.items.map expression
  | .ifBlock b => expression b.condition :: ofStatements b.body ++ b.parts.map ifPart
  | .lineIf b =>
    expression b.condition :: ofStatements b.statements
      ++ (b.elseStatements.map ofStatements).getD []
  | .doBlock b =>
    ofLoopCondition b.condition ++ ofStatements b.body
      ++ ofLoopCondition (b.ending.bind LoopStatement.condition)
  | .forBlock b =>
    ofForControl b.control :: expression b.lower :: expression b.upper
      :: ofOption expression b.step ++ ofStatements b.body ++ ofOption expression b.endingVariable
  | .forEachBlock b =>
    ofForControl b.control :: expression b.collection :: ofStatements b.body
      ++ ofOption expression b.endingVariable
  | .whileBlock b => expression b.condition :: ofStatements b.body
  | .objectBlock b => expression b.object :: ofStatements b.body
  | .usingBlock b => ofResource b.resource ++ ofStatements b.body
  | .tryBlock b => ofStatements b.body ++ b.parts.map tryPart
  | .selectBlock b =>
    expression b.subject :: ofStatements b.leading ++ b.cases.map caseBlock
  | .loop s => ofLoopCondition s.condition
  | .next s => s.loopVariables.items.map expression
  | .elseIf s => [expression s.condition]
  | .case s => s.clauses.items.map caseClause
  | .catchPart s => ofCatch s
  | .declaration d => childrenOfDeclaration d

def childrenOfDeclarator (d : VariableDeclarator) : List Node :=
  d.names.items.map variableName
    ++ (d.asClause.map fun c => typeName c.type :: ofArguments c.arguments).getD []
    ++ ofOption ofInitializer d.initializer

/-- The nodes directly below a node. -/
def children : Node → List Node
  | file f => ofDeclarations f.declarations
  | script s => ofStatements s.statements
  | declaration d => childrenOfDeclaration d
  | statement s => childrenOfStatement s
  | expression e => childrenOfExpression e
  | typeName t => childrenOfType t
  | name n => childrenOfName n
  | simpleName _ => []
  | variableName n => simpleName n.name :: ofBounds n.array
  | argument a => ofOption simpleName a.name ++ ofOption expression a.value
  | aggregate a => a.elements.items.map ofInitializer
  | declarator d => childrenOfDeclarator d
  | parameter p =>
    ofAttributes p.attributes ++ variableName p.name :: ofOption typeName p.type
      ++ ofOption expression p.defaultValue
  | typeParameter p =>
    simpleName p.name :: (p.constraints.map fun l => l.constraints.items.map constraint).getD []
  | constraint (.type t) => [typeName t]
  | constraint _ => []
  | arrayBound b => ofOption expression b.lower ++ [expression b.upper]
  | appliedAttribute a => ofName a.name :: ofArguments a.arguments
  | importsClause c => ofOption simpleName c.aliasName ++ [typeName c.target]
  | handlesItem i => [ofName i.source, simpleName i.event]
  | caseClause (.value e) => [expression e]
  | caseClause (.range l _ u _) => [expression l, expression u]
  | caseClause (.relational _ _ e _) => [expression e]
  | ifPart (.elseIf h body _) => expression h.condition :: ofStatements body
  | ifPart (.elsePart _ body _) => ofStatements body
  | caseBlock b => ofCaseHeader b.header ++ ofStatements b.body
  | tryPart (.catchPart h body _) => ofCatch h ++ ofStatements body
  | tryPart (.finallyPart _ body _) => ofStatements body

end Node

end VisualBasic
