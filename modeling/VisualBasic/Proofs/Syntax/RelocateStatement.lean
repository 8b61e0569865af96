import VisualBasic.Proofs.Syntax.Relocate
import VisualBasic.Syntax.Statement

/-!
Relocating statements and declarations.  Relocation goes down into every part of a tree.
-/

set_option autoImplicit false

namespace VisualBasic

-- What has no location stays as it is

instance : Relocate Unit := ⟨fun _ a => a⟩
instance : Relocate Bool := ⟨fun _ a => a⟩
instance : Relocate Nat := ⟨fun _ a => a⟩
instance : Relocate Int := ⟨fun _ a => a⟩
instance : Relocate String := ⟨fun _ a => a⟩
instance : Relocate TokenKind := ⟨fun _ a => a⟩
instance : Relocate Problem := ⟨fun _ a => a⟩
instance : Relocate BlockKind := ⟨fun _ a => a⟩
instance : Relocate Terminator := ⟨fun _ a => a⟩
instance : Relocate Modifier := ⟨fun _ a => a⟩
instance : Relocate ParameterModifier := ⟨fun _ a => a⟩
instance : Relocate AttributeTarget := ⟨fun _ a => a⟩
instance : Relocate TypeListKind := ⟨fun _ a => a⟩
instance : Relocate OptionKind := ⟨fun _ a => a⟩
instance : Relocate OptionSetting := ⟨fun _ a => a⟩
instance : Relocate Charset := ⟨fun _ a => a⟩
instance : Relocate OverloadableOperator := ⟨fun _ a => a⟩
instance : Relocate CompoundOperator := ⟨fun _ a => a⟩
instance : Relocate BinaryOperator := ⟨fun _ a => a⟩
instance : Relocate MethodKind := ⟨fun _ a => a⟩
instance : Relocate AccessorKind := ⟨fun _ a => a⟩
instance : Relocate TypeKind := ⟨fun _ a => a⟩
instance : Relocate ObjectBlockKind := ⟨fun _ a => a⟩
instance : Relocate InstanceKind := ⟨fun _ a => a⟩

instance : Relocate Token := ⟨fun g t => { t with span := relocate g t.span }⟩
instance : Relocate Diagnostic := ⟨fun g d => { d with span := relocate g d.span }⟩
instance : Relocate Comment := ⟨fun g c => { c with span := relocate g c.span }⟩
instance : Relocate EndBlock := ⟨fun g e => { e with span := relocate g e.span }⟩
instance {α : Type} : Relocate (Placed α) := ⟨fun g p => { p with span := relocate g p.span }⟩

instance : Relocate ModifierList :=
  ⟨fun g a => ⟨relocate g a.modifiers, relocate g a.span⟩⟩

instance : Relocate Label :=
  ⟨fun g a => match a with
    | .name n => .name (relocate g n)
    | .lineNumber v s => .lineNumber v (relocate g s)⟩

-- The parts of statements and declarations

instance : Relocate Constraint :=
  ⟨fun g a => match a with
    | .isClass s => .isClass (relocate g s)
    | .isStructure s => .isStructure (relocate g s)
    | .hasNew s => .hasNew (relocate g s)
    | .type t => .type (relocate g t)⟩

instance : Relocate VariableName :=
  ⟨fun g a => ⟨relocate g a.name, relocate g a.array, relocate g a.span⟩⟩

instance : Relocate AsClause :=
  ⟨fun g a => ⟨relocate g a.asKeyword, relocate g a.newKeyword, relocate g a.type,
    relocate g a.arguments, relocate g a.span⟩⟩

instance : Relocate VariableDeclarator :=
  ⟨fun g a => ⟨relocate g a.names, relocate g a.asClause, relocate g a.equals,
    relocate g a.initializer, relocate g a.span⟩⟩

instance : Relocate Attribute :=
  ⟨fun g a => ⟨relocate g a.target, relocate g a.name, relocate g a.arguments, relocate g a.span⟩⟩

instance : Relocate AttributeBlock :=
  ⟨fun g a => ⟨relocate g a.openAngle, relocate g a.attributes, relocate g a.closeAngle,
    relocate g a.span⟩⟩

instance : Relocate Parameter :=
  ⟨fun g a => ⟨relocate g a.attributes, relocate g a.modifiers, relocate g a.name,
    relocate g a.type, relocate g a.defaultValue, relocate g a.span⟩⟩

instance : Relocate ParameterList :=
  ⟨fun g a => ⟨relocate g a.openParen, relocate g a.parameters, relocate g a.closeParen,
    relocate g a.span⟩⟩

instance : Relocate ReturnType :=
  ⟨fun g a => ⟨relocate g a.asKeyword, relocate g a.attributes, relocate g a.type,
    relocate g a.span⟩⟩

instance : Relocate ConstraintList :=
  ⟨fun g a => ⟨relocate g a.asKeyword, relocate g a.openBrace, relocate g a.constraints,
    relocate g a.closeBrace, relocate g a.span⟩⟩

instance : Relocate TypeParameter :=
  ⟨fun g a => ⟨relocate g a.name, relocate g a.constraints, relocate g a.span⟩⟩

instance : Relocate TypeParameterList :=
  ⟨fun g a => ⟨relocate g a.openParen, relocate g a.ofKeyword, relocate g a.parameters,
    relocate g a.closeParen, relocate g a.span⟩⟩

instance : Relocate HandlesItem :=
  ⟨fun g a => ⟨relocate g a.source, relocate g a.dot, relocate g a.event, relocate g a.span⟩⟩

instance : Relocate HandlesClause :=
  ⟨fun g a => ⟨relocate g a.keyword, relocate g a.events, relocate g a.span⟩⟩

instance : Relocate ImplementsClause :=
  ⟨fun g a => ⟨relocate g a.keyword, relocate g a.members, relocate g a.span⟩⟩

instance : Relocate ImportsClause :=
  ⟨fun g a => ⟨relocate g a.aliasName, relocate g a.equals, relocate g a.target, relocate g a.span⟩⟩

instance : Relocate OnErrorAction :=
  ⟨fun g a => match a with
    | .goToLabel l => .goToLabel (relocate g l)
    | .goToZero => .goToZero
    | .goToMinusOne => .goToMinusOne
    | .resumeNext => .resumeNext
    | .bad => .bad⟩

instance : Relocate ResumeTarget :=
  ⟨fun g a => match a with
    | .plain => .plain
    | .next => .next
    | .label l => .label (relocate g l)⟩

instance : Relocate ForControl :=
  ⟨fun g a => match a with
    | .expression e => .expression (relocate g e)
    | .declarator d => .declarator (relocate g d)⟩

instance : Relocate UsingResource :=
  ⟨fun g a => match a with
    | .expression e => .expression (relocate g e)
    | .declarators d => .declarators (relocate g d)⟩

instance : Relocate CaseClause :=
  ⟨fun g a => match a with
    | .value e => .value (relocate g e)
    | .range l k u s => .range (relocate g l) (g k) (relocate g u) (relocate g s)
    | .relational k op e s => .relational (relocate g k) op (relocate g e) (relocate g s)⟩

instance : Relocate Assignment :=
  ⟨fun g a => ⟨relocate g a.keyword, relocate g a.target, relocate g a.equals, relocate g a.source,
    relocate g a.span⟩⟩

instance : Relocate CompoundAssignment :=
  ⟨fun g a => ⟨relocate g a.target, relocate g a.op, relocate g a.opSpan, relocate g a.source,
    relocate g a.span⟩⟩

instance : Relocate MidAssignment :=
  ⟨fun g a => ⟨relocate g a.hasTypeCharacter, relocate g a.target, relocate g a.start,
    relocate g a.length, relocate g a.source, relocate g a.span⟩⟩

instance : Relocate CallStatement :=
  ⟨fun g a => ⟨relocate g a.callKeyword, relocate g a.target, relocate g a.arguments,
    relocate g a.span⟩⟩

instance : Relocate LocalDeclaration :=
  ⟨fun g a => ⟨relocate g a.modifiers, relocate g a.declarators, relocate g a.span⟩⟩

instance : Relocate HandlerStatement :=
  ⟨fun g a => ⟨relocate g a.adds, relocate g a.event, relocate g a.comma, relocate g a.handler,
    relocate g a.span⟩⟩

instance : Relocate ElseIfStatement :=
  ⟨fun g a => ⟨relocate g a.condition, relocate g a.thenKeyword, relocate g a.span⟩⟩

instance : Relocate LoopCondition :=
  ⟨fun g a => ⟨relocate g a.isWhile, relocate g a.keyword, relocate g a.condition,
    relocate g a.span⟩⟩

instance : Relocate LoopStatement :=
  ⟨fun g a => ⟨relocate g a.condition, relocate g a.span⟩⟩

instance : Relocate NextStatement :=
  ⟨fun g a => ⟨relocate g a.loopVariables, relocate g a.span⟩⟩

instance : Relocate CatchStatement :=
  ⟨fun g a => ⟨relocate g a.name, relocate g a.exceptionType, relocate g a.filter,
    relocate g a.span⟩⟩

instance : Relocate CaseStatement :=
  ⟨fun g a => ⟨relocate g a.clauses, relocate g a.span⟩⟩

instance : Relocate DeclarationHead :=
  ⟨fun g a => ⟨relocate g a.attributes, relocate g a.modifiers⟩⟩

instance : Relocate EnumValue :=
  ⟨fun g a => ⟨relocate g a.attributes, relocate g a.name, relocate g a.value, relocate g a.span⟩⟩

instance : Relocate TypeList :=
  ⟨fun g a => ⟨relocate g a.kind, relocate g a.types, relocate g a.span⟩⟩

instance : Relocate VariableListDeclaration :=
  ⟨fun g a => ⟨relocate g a.head, relocate g a.declarators, relocate g a.span⟩⟩

instance : Relocate ExternalDeclaration :=
  ⟨fun g a => ⟨relocate g a.isFunction, relocate g a.head, relocate g a.charset, relocate g a.name,
    relocate g a.library, relocate g a.aliasName, relocate g a.parameters, relocate g a.returnType,
    relocate g a.span⟩⟩

instance : Relocate DelegateDeclaration :=
  ⟨fun g a => ⟨relocate g a.isFunction, relocate g a.head, relocate g a.name,
    relocate g a.typeParameters, relocate g a.parameters, relocate g a.returnType,
    relocate g a.span⟩⟩

instance : Relocate EventDeclaration :=
  ⟨fun g a => ⟨relocate g a.head, relocate g a.name, relocate g a.parameters, relocate g a.type,
    relocate g a.implemented, relocate g a.span⟩⟩

instance : Relocate CaseHeader :=
  ⟨fun g a => match a with
    | .case s => .case (relocate g s)
    | .caseElse s => .caseElse (relocate g s)⟩

section Blocks

variable {σ : Type} [Relocate σ]

instance : Relocate (StatementList σ) :=
  ⟨fun g a => ⟨relocate g a.statements, relocate g a.colons, relocate g a.span⟩⟩

instance : Relocate (IfPart σ) :=
  ⟨fun g a => match a with
    | .elseIf h b s => .elseIf (relocate g h) (relocate g b) (relocate g s)
    | .elsePart h b s => .elsePart (relocate g h) (relocate g b) (relocate g s)⟩

instance : Relocate (TryPart σ) :=
  ⟨fun g a => match a with
    | .catchPart h b s => .catchPart (relocate g h) (relocate g b) (relocate g s)
    | .finallyPart h b s => .finallyPart (relocate g h) (relocate g b) (relocate g s)⟩

instance : Relocate (IfBlock σ) :=
  ⟨fun g a => ⟨relocate g a.condition, relocate g a.thenKeyword, relocate g a.body,
    relocate g a.parts, relocate g a.ending, relocate g a.span⟩⟩

instance : Relocate (LineIf σ) :=
  ⟨fun g a => ⟨relocate g a.condition, relocate g a.thenKeyword, relocate g a.statements,
    relocate g a.elseKeyword, relocate g a.elseStatements, relocate g a.ending, relocate g a.span⟩⟩

instance : Relocate (DoBlock σ) :=
  ⟨fun g a => ⟨relocate g a.condition, relocate g a.body, relocate g a.ending, relocate g a.span⟩⟩

instance : Relocate (ForBlock σ) :=
  ⟨fun g a => ⟨relocate g a.control, relocate g a.equals, relocate g a.lower,
    relocate g a.toKeyword, relocate g a.upper, relocate g a.step, relocate g a.body,
    relocate g a.ending, relocate g a.endingVariable, relocate g a.span⟩⟩

instance : Relocate (ForEachBlock σ) :=
  ⟨fun g a => ⟨relocate g a.control, relocate g a.inKeyword, relocate g a.collection,
    relocate g a.body, relocate g a.ending, relocate g a.endingVariable, relocate g a.span⟩⟩

instance : Relocate (WhileBlock σ) :=
  ⟨fun g a => ⟨relocate g a.condition, relocate g a.body, relocate g a.ending, relocate g a.span⟩⟩

instance : Relocate (ObjectBlock σ) :=
  ⟨fun g a => ⟨relocate g a.kind, relocate g a.object, relocate g a.body, relocate g a.ending,
    relocate g a.span⟩⟩

instance : Relocate (UsingBlock σ) :=
  ⟨fun g a => ⟨relocate g a.resource, relocate g a.body, relocate g a.ending, relocate g a.span⟩⟩

instance : Relocate (TryBlock σ) :=
  ⟨fun g a => ⟨relocate g a.body, relocate g a.parts, relocate g a.ending, relocate g a.span⟩⟩

instance : Relocate (CaseBlock σ) :=
  ⟨fun g a => ⟨relocate g a.header, relocate g a.body, relocate g a.span⟩⟩

instance : Relocate (SelectBlock σ) :=
  ⟨fun g a => ⟨relocate g a.caseKeyword, relocate g a.subject, relocate g a.leading,
    relocate g a.cases, relocate g a.ending, relocate g a.span⟩⟩

instance : Relocate (DeclarationList σ) :=
  ⟨fun g a => ⟨relocate g a.declarations, relocate g a.span⟩⟩

instance : Relocate (NamespaceDeclaration σ) :=
  ⟨fun g a => ⟨relocate g a.name, relocate g a.members, relocate g a.ending, relocate g a.span⟩⟩

instance : Relocate (TypeDeclaration σ) :=
  ⟨fun g a => ⟨relocate g a.kind, relocate g a.head, relocate g a.name, relocate g a.typeParameters,
    relocate g a.members, relocate g a.ending, relocate g a.span⟩⟩

instance : Relocate (EnumDeclaration σ) :=
  ⟨fun g a => ⟨relocate g a.head, relocate g a.name, relocate g a.underlying, relocate g a.members,
    relocate g a.ending, relocate g a.span⟩⟩

instance : Relocate (MethodDeclaration σ) :=
  ⟨fun g a => ⟨relocate g a.kind, relocate g a.head, relocate g a.name, relocate g a.typeParameters,
    relocate g a.parameters, relocate g a.returnType, relocate g a.handledEvents,
    relocate g a.implemented, relocate g a.body, relocate g a.ending, relocate g a.span⟩⟩

instance : Relocate (OperatorDeclaration σ) :=
  ⟨fun g a => ⟨relocate g a.head, relocate g a.operator, relocate g a.operatorSpan,
    relocate g a.parameters, relocate g a.returnType, relocate g a.body, relocate g a.ending,
    relocate g a.span⟩⟩

instance : Relocate (CustomEventDeclaration σ) :=
  ⟨fun g a => ⟨relocate g a.head, relocate g a.customKeyword, relocate g a.name, relocate g a.type,
    relocate g a.implemented, relocate g a.accessors, relocate g a.ending, relocate g a.span⟩⟩

instance : Relocate (PropertyDeclaration σ) :=
  ⟨fun g a => ⟨relocate g a.head, relocate g a.name, relocate g a.parameters,
    relocate g a.returnType, relocate g a.implemented, relocate g a.accessors, relocate g a.ending,
    relocate g a.span⟩⟩

instance : Relocate (AccessorDeclaration σ) :=
  ⟨fun g a => ⟨relocate g a.kind, relocate g a.head, relocate g a.parameters, relocate g a.body,
    relocate g a.ending, relocate g a.span⟩⟩

end Blocks

section Trees

variable (g : Location → Location)

mutual

def Statement.moved : Statement → Statement
  | .assignment s => .assignment (relocate g s)
  | .compoundAssignment s => .compoundAssignment (relocate g s)
  | .midAssignment s => .midAssignment (relocate g s)
  | .call s => .call (relocate g s)
  | .localDeclaration s => .localDeclaration (relocate g s)
  | .label l s => .label (relocate g l) (relocate g s)
  | .goTo l s => .goTo (relocate g l) (relocate g s)
  | .exitBlock b s => .exitBlock (relocate g b) (relocate g s)
  | .continueBlock b s => .continueBlock (relocate g b) (relocate g s)
  | .stop s => .stop (relocate g s)
  | .endProgram s => .endProgram (relocate g s)
  | .returnValue e s => .returnValue (relocate g e) (relocate g s)
  | .throwException e s => .throwException (relocate g e) (relocate g s)
  | .raiseError e s => .raiseError (relocate g e) (relocate g s)
  | .raiseEvent n a s => .raiseEvent (relocate g n) (relocate g a) (relocate g s)
  | .handler s => .handler (relocate g s)
  | .onError a s => .onError (relocate g a) (relocate g s)
  | .resume t s => .resume (relocate g t) (relocate g s)
  | .reDim p a s => .reDim (relocate g p) (relocate g a) (relocate g s)
  | .erase a s => .erase (relocate g a) (relocate g s)
  | .ifBlock ⟨condition, thenKeyword, body, parts, ending, s⟩ =>
    .ifBlock ⟨relocate g condition, relocate g thenKeyword, movedStatements body,
      movedIfParts parts, relocate g ending, relocate g s⟩
  | .lineIf ⟨condition, thenKeyword, statements, elseKeyword, elseStatements, ending, s⟩ =>
    .lineIf ⟨relocate g condition, g thenKeyword, movedStatements statements,
      relocate g elseKeyword, movedElse elseStatements, relocate g ending, relocate g s⟩
  | .doBlock ⟨condition, body, ending, s⟩ =>
    .doBlock ⟨relocate g condition, movedStatements body, relocate g ending, relocate g s⟩
  | .forBlock ⟨control, equals, lower, toKeyword, upper, step, body, ending, named, s⟩ =>
    .forBlock ⟨relocate g control, relocate g equals, relocate g lower, relocate g toKeyword,
      relocate g upper, relocate g step, movedStatements body, relocate g ending,
      relocate g named, relocate g s⟩
  | .forEachBlock ⟨control, inKeyword, collection, body, ending, named, s⟩ =>
    .forEachBlock ⟨relocate g control, relocate g inKeyword, relocate g collection,
      movedStatements body, relocate g ending, relocate g named, relocate g s⟩
  | .whileBlock ⟨condition, body, ending, s⟩ =>
    .whileBlock ⟨relocate g condition, movedStatements body, relocate g ending, relocate g s⟩
  | .objectBlock ⟨kind, object, body, ending, s⟩ =>
    .objectBlock ⟨kind, relocate g object, movedStatements body, relocate g ending,
      relocate g s⟩
  | .usingBlock ⟨resource, body, ending, s⟩ =>
    .usingBlock ⟨relocate g resource, movedStatements body, relocate g ending, relocate g s⟩
  | .tryBlock ⟨body, parts, ending, s⟩ =>
    .tryBlock ⟨movedStatements body, movedTryParts parts, relocate g ending, relocate g s⟩
  | .selectBlock ⟨caseKeyword, subject, leading, cases, ending, s⟩ =>
    .selectBlock ⟨relocate g caseKeyword, relocate g subject, movedStatements leading,
      movedCases cases, relocate g ending, relocate g s⟩
  | .endBlock e => .endBlock (relocate g e)
  | .loop s => .loop (relocate g s)
  | .next s => .next (relocate g s)
  | .elseIf s => .elseIf (relocate g s)
  | .elsePart s => .elsePart (relocate g s)
  | .case s => .case (relocate g s)
  | .caseElse s => .caseElse (relocate g s)
  | .catchPart s => .catchPart (relocate g s)
  | .finallyPart s => .finallyPart (relocate g s)
  | .declaration d => .declaration d.moved
  | .bad s => .bad (relocate g s)

def Declaration.moved : Declaration → Declaration
  | .option kind setting s => .option (relocate g kind) (relocate g setting) (relocate g s)
  | .imports clauses s => .imports (relocate g clauses) (relocate g s)
  | .attributes blocks s => .attributes (relocate g blocks) (relocate g s)
  | .namespaceBlock ⟨name, members, ending, s⟩ =>
    .namespaceBlock ⟨relocate g name, movedDeclarations members, relocate g ending,
      relocate g s⟩
  | .type ⟨kind, head, name, parameters, members, ending, s⟩ =>
    .type ⟨kind, relocate g head, relocate g name, relocate g parameters,
      movedDeclarations members, relocate g ending, relocate g s⟩
  | .enum ⟨head, name, underlying, members, ending, s⟩ =>
    .enum ⟨relocate g head, relocate g name, relocate g underlying,
      movedDeclarations members, relocate g ending, relocate g s⟩
  | .enumValue d => .enumValue (relocate g d)
  | .typeList d => .typeList (relocate g d)
  | .variableList d => .variableList (relocate g d)
  | .method ⟨kind, head, name, typeParameters, parameters, result, handled, implemented, body,
      ending, s⟩ =>
    .method ⟨kind, relocate g head, relocate g name, relocate g typeParameters,
      relocate g parameters, relocate g result, relocate g handled, relocate g implemented,
      movedElse body, relocate g ending, relocate g s⟩
  | .operator ⟨head, operator, operatorSpan, parameters, result, body, ending, s⟩ =>
    .operator ⟨relocate g head, relocate g operator, relocate g operatorSpan,
      relocate g parameters, relocate g result, movedStatements body, relocate g ending, relocate g s⟩
  | .external d => .external (relocate g d)
  | .delegate d => .delegate (relocate g d)
  | .event d => .event (relocate g d)
  | .customEvent ⟨head, customKeyword, name, type, implemented, accessors, ending, s⟩ =>
    .customEvent ⟨relocate g head, relocate g customKeyword, relocate g name, relocate g type,
      relocate g implemented, movedDeclarations accessors, relocate g ending, relocate g s⟩
  | .property ⟨head, name, parameters, result, implemented, accessors, ending, s⟩ =>
    .property ⟨relocate g head, relocate g name, relocate g parameters, relocate g result,
      relocate g implemented, movedAccessors accessors, relocate g ending, relocate g s⟩
  | .accessor ⟨kind, head, parameters, body, ending, s⟩ =>
    .accessor ⟨kind, relocate g head, relocate g parameters, movedStatements body,
      relocate g ending, relocate g s⟩
  | .endBlock e => .endBlock (relocate g e)
  | .bad s => .bad (relocate g s)

def movedStatements : Statements → Statements
  | ⟨items, colons, s⟩ => ⟨movedStatementItems items, relocate g colons, relocate g s⟩

def movedStatementItems : List Statement → List Statement
  | [] => []
  | s :: rest => s.moved :: movedStatementItems rest

def movedElse : Option Statements → Option Statements
  | none => none
  | some body => some (movedStatements body)

def movedIfParts : List (IfPart Statement) → List (IfPart Statement)
  | [] => []
  | .elseIf header body s :: rest =>
    .elseIf (relocate g header) (movedStatements body) (relocate g s) :: movedIfParts rest
  | .elsePart header body s :: rest =>
    .elsePart (relocate g header) (movedStatements body) (relocate g s) :: movedIfParts rest

def movedTryParts : List (TryPart Statement) → List (TryPart Statement)
  | [] => []
  | .catchPart header body s :: rest =>
    .catchPart (relocate g header) (movedStatements body) (relocate g s) :: movedTryParts rest
  | .finallyPart header body s :: rest =>
    .finallyPart (relocate g header) (movedStatements body) (relocate g s) :: movedTryParts rest

def movedCases : List (CaseBlock Statement) → List (CaseBlock Statement)
  | [] => []
  | ⟨header, body, s⟩ :: rest =>
    ⟨relocate g header, movedStatements body, relocate g s⟩ :: movedCases rest

def movedDeclarations : Declarations → Declarations
  | ⟨items, s⟩ => ⟨movedDeclarationItems items, relocate g s⟩

def movedDeclarationItems : List Declaration → List Declaration
  | [] => []
  | d :: rest => d.moved :: movedDeclarationItems rest

def movedAccessors : Option Declarations → Option Declarations
  | none => none
  | some members => some (movedDeclarations members)

end

end Trees

instance : Relocate Statement := ⟨Statement.moved⟩
instance : Relocate Declaration := ⟨Declaration.moved⟩

instance : Relocate SourceFile :=
  ⟨fun g f => ⟨relocate g f.declarations, relocate g f.comments, relocate g f.span⟩⟩

instance : Relocate Script :=
  ⟨fun g s => ⟨relocate g s.statements, relocate g s.comments, relocate g s.span⟩⟩

-- How relocation goes down into a tree

section Equations

variable (g : Location → Location)

theorem relocate_append {α : Type} [Relocate α] (xs ys : List α) :
    relocate g (xs ++ ys) = relocate g xs ++ relocate g ys :=
  List.map_append

theorem relocate_some {α : Type} [Relocate α] (a : α) :
    relocate g (some a) = some (relocate g a) :=
  rfl

theorem length_relocate {α : Type} [Relocate α] (xs : List α) :
    (relocate g xs).length = xs.length :=
  List.length_map _

theorem head?_relocate {α : Type} [Relocate α] (xs : List α) :
    (relocate g xs).head? = relocate g xs.head? :=
  List.head?_map

theorem getLast?_relocate {α : Type} [Relocate α] (xs : List α) :
    (relocate g xs).getLast? = relocate g xs.getLast? :=
  List.getLast?_map

theorem take_relocate {α : Type} [Relocate α] (n : Nat) (xs : List α) :
    (relocate g xs).take n = relocate g (xs.take n) :=
  List.map_take.symm

theorem any_relocate {α : Type} [Relocate α] {test : α → Bool} (xs : List α)
    (same : ∀ a, test (relocate g a) = test a) : (relocate g xs).any test = xs.any test := by
  show (xs.map (relocate g)).any test = _
  rw [List.any_map]
  congr 1
  funext a
  exact same a

theorem find?_relocate {α : Type} [Relocate α] {test : α → Bool} (xs : List α)
    (same : ∀ a, test (relocate g a) = test a) :
    (relocate g xs).find? test = relocate g (xs.find? test) := by
  show (xs.map (relocate g)).find? test = _
  rw [List.find?_map, show test ∘ relocate g = test from funext same]
  rfl

theorem movedQualifier_eq (e : Option Expression) : movedQualifier g e = relocate g e := by
  cases e <;> rfl

theorem movedTypes_eq (types : List TypeName) : movedTypes g types = relocate g types := by
  induction types with
  | nil => rfl
  | cons t rest ih => exact congrArg (t.moved g :: ·) ih

theorem movedTypeArgumentList_eq (a : TypeArguments) : movedTypeArgumentList g a = relocate g a := by
  obtain ⟨_, _, ⟨types, _, _⟩, _, _⟩ := a
  rw [movedTypeArgumentList, movedTypes_eq]
  rfl

theorem movedTypeArguments_eq (a : Option TypeArguments) : movedTypeArguments g a = relocate g a := by
  cases a with
  | none => rfl
  | some a => exact congrArg some (movedTypeArgumentList_eq g a)

theorem movedArgumentItems_eq (items : List (Argument Expression)) :
    movedArgumentItems g items = relocate g items := by
  induction items with
  | nil => rfl
  | cons a rest ih =>
    rw [movedArgumentItems, movedQualifier_eq, ih]
    rfl

theorem movedArguments_eq (a : Arguments) : movedArguments g a = relocate g a := by
  obtain ⟨_, ⟨items, _, _⟩, _, _⟩ := a
  rw [movedArguments, movedArgumentItems_eq]
  rfl

theorem movedBoundItems_eq (items : List (ArrayBound Expression)) :
    movedBoundItems g items = relocate g items := by
  induction items with
  | nil => rfl
  | cons b rest ih =>
    rw [movedBoundItems, movedQualifier_eq, ih]
    rfl

theorem movedArrayBounds_eq (b : Option (ArrayBounds Expression)) :
    movedArrayBounds g b = relocate g b := by
  cases b with
  | none => rfl
  | some b =>
    obtain ⟨_, _, ⟨items, _, _⟩, _, _⟩ := b
    rw [movedArrayBounds, movedBoundItems_eq]
    rfl

theorem movedInitializers_eq (items : List Initializer) :
    movedInitializers g items = relocate g items := by
  induction items with
  | nil => rfl
  | cons i rest ih => exact congrArg (i.moved g :: ·) ih

theorem movedAggregate_eq (a : Aggregate) : movedAggregate g a = relocate g a := by
  obtain ⟨_, ⟨items, _, _⟩, _, _⟩ := a
  rw [movedAggregate, movedInitializers_eq]
  rfl

theorem relocate_simpleName (n : SimpleName) (a : Option TypeArguments) (s : Span) :
    relocate g (Expression.simpleName n a s) =
      .simpleName (relocate g n) (relocate g a) (relocate g s) :=
  congrArg (Expression.simpleName _ · _) (movedTypeArguments_eq g a)

theorem relocate_qualified (q : Option Expression) (dot : Location) (n : SimpleName)
    (a : Option TypeArguments) (s : Span) :
    relocate g (Expression.qualified q dot n a s) =
      .qualified (relocate g q) (g dot) (relocate g n) (relocate g a) (relocate g s) := by
  rw [← movedQualifier_eq, ← movedTypeArguments_eq]
  rfl

theorem relocate_dictionaryLookup (q : Option Expression) (bang : Location) (n : SimpleName)
    (s : Span) :
    relocate g (Expression.dictionaryLookup q bang n s) =
      .dictionaryLookup (relocate g q) (g bang) (relocate g n) (relocate g s) :=
  congrArg (Expression.dictionaryLookup · _ _ _) (movedQualifier_eq g q)

theorem relocate_callOrIndex (e : Expression) (a : Arguments) (s : Span) :
    relocate g (Expression.callOrIndex e a s) =
      .callOrIndex (relocate g e) (relocate g a) (relocate g s) :=
  congrArg (Expression.callOrIndex _ · _) (movedArguments_eq g a)

theorem relocate_newObject (t : TypeName) (a : Option Arguments) (s : Span) :
    relocate g (Expression.newObject t a s) =
      .newObject (relocate g t) (relocate g a) (relocate g s) := by
  cases a with
  | none => rfl
  | some a =>
    show Expression.newObject _ (some (movedArguments g a)) _ = _
    rw [movedArguments_eq]
    rfl

theorem relocate_newArray (t : TypeName) (a : Aggregate) (s : Span) :
    relocate g (Expression.newArray t a s) =
      .newArray (relocate g t) (relocate g a) (relocate g s) :=
  congrArg (Expression.newArray _ · _) (movedAggregate_eq g a)

theorem relocate_constructed (n : Name) (a : TypeArguments) (s : Span) :
    relocate g (TypeName.constructed n a s) =
      .constructed (relocate g n) (relocate g a) (relocate g s) :=
  congrArg (TypeName.constructed _ · _) (movedTypeArgumentList_eq g a)

theorem relocate_array (e : TypeName) (rank : Nat) (b : Option (ArrayBounds Expression)) (s : Span) :
    relocate g (TypeName.array e rank b s) =
      .array (relocate g e) rank (relocate g b) (relocate g s) :=
  congrArg (TypeName.array _ _ · _) (movedArrayBounds_eq g b)

theorem relocate_aggregate (a : Aggregate) :
    relocate g (Initializer.aggregate a) = .aggregate (relocate g a) :=
  congrArg Initializer.aggregate (movedAggregate_eq g a)

theorem movedStatementItems_eq (items : List Statement) :
    movedStatementItems g items = relocate g items := by
  induction items with
  | nil => rfl
  | cons s rest ih => exact congrArg (s.moved g :: ·) ih

theorem movedStatements_eq (b : Statements) : movedStatements g b = relocate g b := by
  obtain ⟨items, _, _⟩ := b
  rw [movedStatements, movedStatementItems_eq]
  rfl

theorem movedElse_eq (b : Option Statements) : movedElse g b = relocate g b := by
  cases b with
  | none => rfl
  | some b => exact congrArg some (movedStatements_eq g b)

theorem movedIfParts_eq (parts : List (IfPart Statement)) :
    movedIfParts g parts = relocate g parts := by
  induction parts with
  | nil => rfl
  | cons part rest ih =>
    cases part <;> (rw [movedIfParts, movedStatements_eq, ih]; rfl)

theorem movedTryParts_eq (parts : List (TryPart Statement)) :
    movedTryParts g parts = relocate g parts := by
  induction parts with
  | nil => rfl
  | cons part rest ih =>
    cases part <;> (rw [movedTryParts, movedStatements_eq, ih]; rfl)

theorem movedCases_eq (cases : List (CaseBlock Statement)) :
    movedCases g cases = relocate g cases := by
  induction cases with
  | nil => rfl
  | cons part rest ih =>
    rw [movedCases, movedStatements_eq, ih]
    rfl

theorem movedDeclarationItems_eq (items : List Declaration) :
    movedDeclarationItems g items = relocate g items := by
  induction items with
  | nil => rfl
  | cons d rest ih => exact congrArg (d.moved g :: ·) ih

theorem movedDeclarations_eq (b : Declarations) : movedDeclarations g b = relocate g b := by
  obtain ⟨items, _⟩ := b
  rw [movedDeclarations, movedDeclarationItems_eq]
  rfl

theorem movedAccessors_eq (b : Option Declarations) : movedAccessors g b = relocate g b := by
  cases b with
  | none => rfl
  | some b => exact congrArg some (movedDeclarations_eq g b)

theorem relocate_ifBlock (b : IfBlock Statement) :
    relocate g (Statement.ifBlock b) = .ifBlock (relocate g b) := by
  show Statement.ifBlock ⟨_, _, movedStatements g b.body, movedIfParts g b.parts, _, _⟩ = _
  rw [movedStatements_eq, movedIfParts_eq]
  rfl

theorem relocate_lineIf (b : LineIf Statement) :
    relocate g (Statement.lineIf b) = .lineIf (relocate g b) := by
  show Statement.lineIf ⟨_, _, movedStatements g b.statements, _, movedElse g b.elseStatements,
    _, _⟩ = _
  rw [movedStatements_eq, movedElse_eq]
  rfl

theorem relocate_doBlock (b : DoBlock Statement) :
    relocate g (Statement.doBlock b) = .doBlock (relocate g b) :=
  congrArg (fun body => Statement.doBlock ⟨_, body, _, _⟩) (movedStatements_eq g b.body)

theorem relocate_forBlock (b : ForBlock Statement) :
    relocate g (Statement.forBlock b) = .forBlock (relocate g b) :=
  congrArg (fun body => Statement.forBlock ⟨_, _, _, _, _, _, body, _, _, _⟩)
    (movedStatements_eq g b.body)

theorem relocate_forEachBlock (b : ForEachBlock Statement) :
    relocate g (Statement.forEachBlock b) = .forEachBlock (relocate g b) :=
  congrArg (fun body => Statement.forEachBlock ⟨_, _, _, body, _, _, _⟩)
    (movedStatements_eq g b.body)

theorem relocate_whileBlock (b : WhileBlock Statement) :
    relocate g (Statement.whileBlock b) = .whileBlock (relocate g b) :=
  congrArg (fun body => Statement.whileBlock ⟨_, body, _, _⟩) (movedStatements_eq g b.body)

theorem relocate_objectBlock (b : ObjectBlock Statement) :
    relocate g (Statement.objectBlock b) = .objectBlock (relocate g b) :=
  congrArg (fun body => Statement.objectBlock ⟨_, _, body, _, _⟩) (movedStatements_eq g b.body)

theorem relocate_usingBlock (b : UsingBlock Statement) :
    relocate g (Statement.usingBlock b) = .usingBlock (relocate g b) :=
  congrArg (fun body => Statement.usingBlock ⟨_, body, _, _⟩) (movedStatements_eq g b.body)

theorem relocate_tryBlock (b : TryBlock Statement) :
    relocate g (Statement.tryBlock b) = .tryBlock (relocate g b) := by
  show Statement.tryBlock ⟨movedStatements g b.body, movedTryParts g b.parts, _, _⟩ = _
  rw [movedStatements_eq, movedTryParts_eq]
  rfl

theorem relocate_selectBlock (b : SelectBlock Statement) :
    relocate g (Statement.selectBlock b) = .selectBlock (relocate g b) := by
  show Statement.selectBlock ⟨_, _, movedStatements g b.leading, movedCases g b.cases, _, _⟩ = _
  rw [movedStatements_eq, movedCases_eq]
  rfl

theorem relocate_namespaceBlock (d : NamespaceDeclaration Declaration) :
    relocate g (Declaration.namespaceBlock d) = .namespaceBlock (relocate g d) :=
  congrArg (fun members => Declaration.namespaceBlock ⟨_, members, _, _⟩)
    (movedDeclarations_eq g d.members)

theorem relocate_type (d : TypeDeclaration Declaration) :
    relocate g (Declaration.type d) = .type (relocate g d) :=
  congrArg (fun members => Declaration.type ⟨_, _, _, _, members, _, _⟩)
    (movedDeclarations_eq g d.members)

theorem relocate_enum (d : EnumDeclaration Declaration) :
    relocate g (Declaration.enum d) = .enum (relocate g d) :=
  congrArg (fun members => Declaration.enum ⟨_, _, _, members, _, _⟩)
    (movedDeclarations_eq g d.members)

theorem relocate_method (d : MethodDeclaration Statement) :
    relocate g (Declaration.method d) = .method (relocate g d) :=
  congrArg (fun body => Declaration.method ⟨_, _, _, _, _, _, _, _, body, _, _⟩)
    (movedElse_eq g d.body)

theorem relocate_operator (d : OperatorDeclaration Statement) :
    relocate g (Declaration.operator d) = .operator (relocate g d) :=
  congrArg (fun body => Declaration.operator ⟨_, _, _, _, _, body, _, _⟩)
    (movedStatements_eq g d.body)

theorem relocate_customEvent (d : CustomEventDeclaration Declaration) :
    relocate g (Declaration.customEvent d) = .customEvent (relocate g d) :=
  congrArg (fun members => Declaration.customEvent ⟨_, _, _, _, _, members, _, _⟩)
    (movedDeclarations_eq g d.accessors)

theorem relocate_property (d : PropertyDeclaration Declaration) :
    relocate g (Declaration.property d) = .property (relocate g d) :=
  congrArg (fun members => Declaration.property ⟨_, _, _, _, _, members, _, _⟩)
    (movedAccessors_eq g d.accessors)

theorem relocate_accessor (d : AccessorDeclaration Statement) :
    relocate g (Declaration.accessor d) = .accessor (relocate g d) :=
  congrArg (fun body => Declaration.accessor ⟨_, _, _, body, _, _⟩)
    (movedStatements_eq g d.body)

-- What does not depend on locations, and spans

theorem Token.lexeme_relocate (t : Token) : (relocate g t).lexeme = t.lexeme := rfl

theorem Token.kind_relocate (t : Token) : (relocate g t).kind = t.kind := rfl

theorem SimpleName.ofToken_relocate (t : Token) :
    SimpleName.ofToken (relocate g t) = relocate g (SimpleName.ofToken t) := by
  have name : (relocate g t).name? = t.name? := rfl
  unfold SimpleName.ofToken
  rw [name]
  split <;> rfl

theorem SimpleName.isMissing_relocate (n : SimpleName) :
    (relocate g n).isMissing = n.isMissing := rfl

theorem Name.span_relocate (n : Name) : (relocate g n).span = relocate g n.span := by
  cases n <;> rfl

theorem Name.isIncomplete_relocate (n : Name) : (relocate g n).isIncomplete = n.isIncomplete := by
  induction n with
  | qualified q dot n s ih => exact congrArg (n.isMissing || ·) ih
  | _ => rfl

theorem Expression.span_relocate (e : Expression) : (relocate g e).span = relocate g e.span := by
  cases e with
  | newObject t a s => cases a <;> rfl
  | _ => rfl

theorem Expression.isBad_relocate (e : Expression) : (relocate g e).isBad = e.isBad := by
  cases e with
  | newObject t a s => cases a <;> rfl
  | _ => rfl

theorem TypeName.span_relocate (t : TypeName) : (relocate g t).span = relocate g t.span := by
  cases t <;> rfl

theorem TypeName.isBad_relocate (t : TypeName) : (relocate g t).isBad = t.isBad := by
  cases t <;> rfl

theorem Initializer.span_relocate (i : Initializer) : (relocate g i).span = relocate g i.span := by
  cases i with
  | expression e => exact e.span_relocate g
  | aggregate a =>
    rw [relocate_aggregate]
    rfl

theorem Constraint.span_relocate (k : Constraint) : (relocate g k).span = relocate g k.span := by
  cases k with
  | type t => exact t.span_relocate g
  | _ => rfl

theorem CaseClause.span_relocate (k : CaseClause) : (relocate g k).span = relocate g k.span := by
  cases k with
  | value e => exact e.span_relocate g
  | _ => rfl

theorem Declaration.span_relocate (d : Declaration) : (relocate g d).span = relocate g d.span := by
  cases d <;> rfl

theorem Statement.span_relocate (s : Statement) : (relocate g s).span = relocate g s.span := by
  cases s with
  | declaration d => exact d.span_relocate g
  | _ => rfl

end Equations

end VisualBasic
