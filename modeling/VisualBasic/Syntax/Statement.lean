import VisualBasic.Block
import VisualBasic.Syntax.Clause

/-!
Statements and declarations.  A block owns the list of its statements and what ended it, if
anything did.  Parts of blocks that stand where no block expects them are statements too.
-/

set_option autoImplicit false

namespace VisualBasic

/-- The statement that ends a block. -/
structure EndBlock where
  kind : BlockKind
  span : Span
deriving DecidableEq, Inhabited

structure Assignment where
  keyword : Option Span
  target : Expression
  equals : Location
  source : Expression
  span : Span
deriving Inhabited

structure CompoundAssignment where
  target : Expression
  op : CompoundOperator
  opSpan : Span
  source : Expression
  span : Span
deriving Inhabited

/-- An assignment to a part of a string. -/
structure MidAssignment where
  hasTypeCharacter : Bool
  target : Expression
  start : Expression
  length : Option Expression
  source : Expression
  span : Span
deriving Inhabited

structure CallStatement where
  callKeyword : Option Location
  target : Expression
  arguments : Option Arguments
  span : Span
deriving Inhabited

structure LocalDeclaration where
  modifiers : ModifierList
  declarators : CommaList VariableDeclarator
  span : Span
deriving Inhabited

/-- Adds a handler to an event or removes it. -/
structure HandlerStatement where
  adds : Bool
  event : Expression
  comma : Option Location
  handler : Expression
  span : Span
deriving Inhabited

inductive OnErrorAction where
  | goToLabel (label : Label)
  | goToZero
  | goToMinusOne
  | resumeNext
  | bad
deriving DecidableEq, Inhabited

inductive ResumeTarget where
  | plain
  | next
  | label (label : Label)
deriving DecidableEq, Inhabited

structure ElseIfStatement where
  condition : Expression
  thenKeyword : Option Location
  span : Span
deriving Inhabited

structure LoopCondition where
  isWhile : Bool
  keyword : Span
  condition : Expression
  span : Span
deriving Inhabited

structure LoopStatement where
  condition : Option LoopCondition
  span : Span
deriving Inhabited

structure NextStatement where
  loopVariables : CommaList Expression
  span : Span
deriving Inhabited

inductive ForControl where
  | expression (value : Expression)
  | declarator (declarator : VariableDeclarator)
deriving Inhabited

def ForControl.span : ForControl → Span
  | .expression e => e.span
  | .declarator d => d.span

inductive UsingResource where
  | expression (value : Expression)
  | declarators (declarators : CommaList VariableDeclarator)
deriving Inhabited

def UsingResource.span : UsingResource → Span
  | .expression e => e.span
  | .declarators d => d.span

structure CatchStatement where
  name : Option SimpleName
  exceptionType : Option TypeName
  filter : Option Expression
  span : Span
deriving Inhabited

inductive CaseClause where
  | value (value : Expression)
  | range (lower : Expression) (toKeyword : Location) (upper : Expression) (span : Span)
  | relational (isKeyword : Option Location) (op : BinaryOperator) (operand : Expression)
      (span : Span)
deriving Inhabited

def CaseClause.span : CaseClause → Span
  | .value e => e.span
  | .range _ _ _ s | .relational _ _ _ s => s

structure CaseStatement where
  clauses : CommaList CaseClause
  span : Span
deriving Inhabited

inductive CaseHeader where
  | case (statement : CaseStatement)
  | caseElse (span : Span)
deriving Inhabited

namespace CaseHeader

def span : CaseHeader → Span
  | case s => s.span
  | caseElse s => s

def isElse : CaseHeader → Bool
  | case _ => false
  | caseElse _ => true

end CaseHeader

-- The blocks are stated for any statements `σ` and declarations `δ`, which are defined together
-- after them.

structure StatementList (σ : Type) where
  statements : List σ
  colons : List Location
  span : Span
deriving Inhabited

/-- A further part of an `If` block. -/
inductive IfPart (σ : Type) where
  | elseIf (header : ElseIfStatement) (body : StatementList σ) (span : Span)
  | elsePart (header : Span) (body : StatementList σ) (span : Span)

def IfPart.span {σ : Type} : IfPart σ → Span
  | elseIf _ _ s | elsePart _ _ s => s

def IfPart.isElse {σ : Type} : IfPart σ → Bool
  | elseIf _ _ _ => false
  | elsePart _ _ _ => true

structure IfBlock (σ : Type) where
  condition : Expression
  thenKeyword : Option Location
  body : StatementList σ
  parts : List (IfPart σ)
  ending : Option EndBlock
  span : Span

namespace IfBlock

variable {σ : Type}

def elseIfs (b : IfBlock σ) : List (IfPart σ) := b.parts.filter fun p => !p.isElse

/-- The part for when no condition holds; the first of them, should there be several. -/
def elsePart? (b : IfBlock σ) : Option (IfPart σ) := b.parts.find? IfPart.isElse

end IfBlock

structure LineIf (σ : Type) where
  condition : Expression
  thenKeyword : Location
  statements : StatementList σ
  elseKeyword : Option Location
  elseStatements : Option (StatementList σ)
  ending : Option EndBlock
  span : Span

structure DoBlock (σ : Type) where
  condition : Option LoopCondition
  body : StatementList σ
  ending : Option LoopStatement
  span : Span

structure ForBlock (σ : Type) where
  control : ForControl
  equals : Option Location
  lower : Expression
  toKeyword : Option Location
  upper : Expression
  step : Option Expression
  body : StatementList σ
  ending : Option NextStatement
  endingVariable : Option Expression
  span : Span

structure ForEachBlock (σ : Type) where
  control : ForControl
  inKeyword : Option Location
  collection : Expression
  body : StatementList σ
  ending : Option NextStatement
  endingVariable : Option Expression
  span : Span

structure WhileBlock (σ : Type) where
  condition : Expression
  body : StatementList σ
  ending : Option EndBlock
  span : Span

/-- The blocks that hold an object while their statements run. -/
inductive ObjectBlockKind where
  | withObject
  | syncLock
deriving DecidableEq, Inhabited

def ObjectBlockKind.block : ObjectBlockKind → BlockKind
  | withObject => .withBlock
  | syncLock => .syncLockBlock

structure ObjectBlock (σ : Type) where
  kind : ObjectBlockKind
  object : Expression
  body : StatementList σ
  ending : Option EndBlock
  span : Span

structure UsingBlock (σ : Type) where
  resource : UsingResource
  body : StatementList σ
  ending : Option EndBlock
  span : Span

/-- A further part of a `Try` block. -/
inductive TryPart (σ : Type) where
  | catchPart (header : CatchStatement) (body : StatementList σ) (span : Span)
  | finallyPart (header : Span) (body : StatementList σ) (span : Span)

def TryPart.span {σ : Type} : TryPart σ → Span
  | catchPart _ _ s | finallyPart _ _ s => s

def TryPart.isFinally {σ : Type} : TryPart σ → Bool
  | catchPart _ _ _ => false
  | finallyPart _ _ _ => true

structure TryBlock (σ : Type) where
  body : StatementList σ
  parts : List (TryPart σ)
  ending : Option EndBlock
  span : Span

namespace TryBlock

variable {σ : Type}

def catches (b : TryBlock σ) : List (TryPart σ) := b.parts.filter fun p => !p.isFinally

/-- The part that runs in any case; the first of them, should there be several. -/
def finallyPart? (b : TryBlock σ) : Option (TryPart σ) := b.parts.find? TryPart.isFinally

end TryBlock

structure CaseBlock (σ : Type) where
  header : CaseHeader
  body : StatementList σ
  span : Span

/-- A `Select` block.  Statements before its first case belong to no case. -/
structure SelectBlock (σ : Type) where
  caseKeyword : Option Location
  subject : Expression
  leading : StatementList σ
  cases : List (CaseBlock σ)
  ending : Option EndBlock
  span : Span

/-- The case for all other values; the first of them, should there be several. -/
def SelectBlock.caseElse? {σ : Type} (b : SelectBlock σ) : Option (CaseBlock σ) :=
  b.cases.find? fun c => c.header.isElse

structure DeclarationList (δ : Type) where
  declarations : List δ
  span : Span
deriving Inhabited

/-- What stands in front of a declaration. -/
structure DeclarationHead where
  attributes : List AttributeBlock
  modifiers : ModifierList
deriving Inhabited

inductive OptionKind where
  | explicit
  | strict
  | compare
deriving DecidableEq, Inhabited

inductive OptionSetting where
  | turnedOn
  | turnedOff
  | binary
  | text
deriving DecidableEq, Inhabited

structure NamespaceDeclaration (δ : Type) where
  name : Name
  members : DeclarationList δ
  ending : Option EndBlock
  span : Span

inductive TypeKind where
  | classType
  | structureType
  | moduleType
  | interfaceType
deriving DecidableEq, Inhabited

def TypeKind.block : TypeKind → BlockKind
  | classType => .classBlock
  | structureType => .structureBlock
  | moduleType => .moduleBlock
  | interfaceType => .interfaceBlock

structure TypeDeclaration (δ : Type) where
  kind : TypeKind
  head : DeclarationHead
  name : SimpleName
  typeParameters : Option TypeParameterList
  members : DeclarationList δ
  ending : Option EndBlock
  span : Span

structure EnumDeclaration (δ : Type) where
  head : DeclarationHead
  name : SimpleName
  underlying : Option TypeName
  members : DeclarationList δ
  ending : Option EndBlock
  span : Span

structure EnumValue where
  attributes : List AttributeBlock
  name : SimpleName
  value : Option Expression
  span : Span
deriving Inhabited

inductive TypeListKind where
  | inheritsFrom
  | implementsAll
deriving DecidableEq, Inhabited

structure TypeList where
  kind : TypeListKind
  types : CommaList TypeName
  span : Span
deriving Inhabited

structure VariableListDeclaration where
  head : DeclarationHead
  declarators : CommaList VariableDeclarator
  span : Span
deriving Inhabited

inductive MethodKind where
  | subroutine
  | function
  | constructor
deriving DecidableEq, Inhabited

def MethodKind.block : MethodKind → BlockKind
  | function => .functionBlock
  | subroutine | constructor => .subBlock

structure MethodDeclaration (σ : Type) where
  kind : MethodKind
  head : DeclarationHead
  name : SimpleName
  typeParameters : Option TypeParameterList
  parameters : Option ParameterList
  returnType : Option ReturnType
  handledEvents : Option HandlesClause
  implemented : Option ImplementsClause
  body : Option (StatementList σ)
  ending : Option EndBlock
  span : Span

structure OperatorDeclaration (σ : Type) where
  head : DeclarationHead
  operator : Option OverloadableOperator
  operatorSpan : Span
  parameters : Option ParameterList
  returnType : Option ReturnType
  body : StatementList σ
  ending : Option EndBlock
  span : Span

inductive Charset where
  | ansi
  | unicode
  | auto
deriving DecidableEq, Inhabited

/-- A procedure of another library. -/
structure ExternalDeclaration where
  isFunction : Bool
  head : DeclarationHead
  charset : Option Charset
  name : SimpleName
  library : Option String
  aliasName : Option String
  parameters : Option ParameterList
  returnType : Option ReturnType
  span : Span
deriving Inhabited

structure DelegateDeclaration where
  isFunction : Bool
  head : DeclarationHead
  name : SimpleName
  typeParameters : Option TypeParameterList
  parameters : Option ParameterList
  returnType : Option ReturnType
  span : Span
deriving Inhabited

structure EventDeclaration where
  head : DeclarationHead
  name : SimpleName
  parameters : Option ParameterList
  type : Option TypeName
  implemented : Option ImplementsClause
  span : Span
deriving Inhabited

structure CustomEventDeclaration (δ : Type) where
  head : DeclarationHead
  customKeyword : Span
  name : SimpleName
  type : Option TypeName
  implemented : Option ImplementsClause
  accessors : DeclarationList δ
  ending : Option EndBlock
  span : Span

structure PropertyDeclaration (δ : Type) where
  head : DeclarationHead
  name : SimpleName
  parameters : Option ParameterList
  returnType : Option ReturnType
  implemented : Option ImplementsClause
  accessors : Option (DeclarationList δ)
  ending : Option EndBlock
  span : Span

inductive AccessorKind where
  | get
  | set
  | addHandler
  | removeHandler
  | raiseEvent
deriving DecidableEq, Inhabited

def AccessorKind.block : AccessorKind → BlockKind
  | get => .getBlock
  | set => .setBlock
  | addHandler => .addHandlerBlock
  | removeHandler => .removeHandlerBlock
  | raiseEvent => .raiseEventBlock

/-- The accessor that a keyword introduces. -/
def AccessorKind.ofKind? : TokenKind → Option AccessorKind
  | .word .kwGet => some get
  | .word .kwSet => some set
  | .word .kwAddHandler => some addHandler
  | .word .kwRemoveHandler => some removeHandler
  | .word .kwRaiseEvent => some raiseEvent
  | _ => none

/-- The accessor belongs to a property, not to an event. -/
def AccessorKind.isOfProperty : AccessorKind → Bool
  | get | set => true
  | _ => false

structure AccessorDeclaration (σ : Type) where
  kind : AccessorKind
  head : DeclarationHead
  parameters : Option ParameterList
  body : StatementList σ
  ending : Option EndBlock
  span : Span

mutual

inductive Statement where
  | assignment (statement : Assignment)
  | compoundAssignment (statement : CompoundAssignment)
  | midAssignment (statement : MidAssignment)
  | call (statement : CallStatement)
  | localDeclaration (statement : LocalDeclaration)
  | label (label : Label) (span : Span)
  | goTo (label : Label) (span : Span)
  | exitBlock (block : Option BlockKind) (span : Span)
  | continueBlock (block : Option BlockKind) (span : Span)
  | stop (span : Span)
  | endProgram (span : Span)
  | returnValue (operand : Option Expression) (span : Span)
  | throwException (operand : Option Expression) (span : Span)
  | raiseError (operand : Option Expression) (span : Span)
  | raiseEvent (name : SimpleName) (arguments : Option Arguments) (span : Span)
  | handler (statement : HandlerStatement)
  | onError (action : OnErrorAction) (span : Span)
  | resume (target : ResumeTarget) (span : Span)
  | reDim (preserve : Option Span) (arrays : CommaList Expression) (span : Span)
  | erase (arrays : CommaList Expression) (span : Span)
  | ifBlock (block : IfBlock Statement)
  | lineIf (block : LineIf Statement)
  | doBlock (block : DoBlock Statement)
  | forBlock (block : ForBlock Statement)
  | forEachBlock (block : ForEachBlock Statement)
  | whileBlock (block : WhileBlock Statement)
  | objectBlock (block : ObjectBlock Statement)
  | usingBlock (block : UsingBlock Statement)
  | tryBlock (block : TryBlock Statement)
  | selectBlock (block : SelectBlock Statement)
  | endBlock (ending : EndBlock)
  | loop (statement : LoopStatement)
  | next (statement : NextStatement)
  | elseIf (statement : ElseIfStatement)
  | elsePart (span : Span)
  | case (statement : CaseStatement)
  | caseElse (span : Span)
  | catchPart (statement : CatchStatement)
  | finallyPart (span : Span)
  | declaration (declaration : Declaration)
  | bad (span : Span)

inductive Declaration where
  | option (kind : Option OptionKind) (setting : Option OptionSetting) (span : Span)
  | imports (clauses : CommaList ImportsClause) (span : Span)
  | attributes (blocks : List AttributeBlock) (span : Span)
  | namespaceBlock (declaration : NamespaceDeclaration Declaration)
  | type (declaration : TypeDeclaration Declaration)
  | enum (declaration : EnumDeclaration Declaration)
  | enumValue (declaration : EnumValue)
  | typeList (declaration : TypeList)
  | variableList (declaration : VariableListDeclaration)
  | method (declaration : MethodDeclaration Statement)
  | operator (declaration : OperatorDeclaration Statement)
  | external (declaration : ExternalDeclaration)
  | delegate (declaration : DelegateDeclaration)
  | event (declaration : EventDeclaration)
  | customEvent (declaration : CustomEventDeclaration Declaration)
  | property (declaration : PropertyDeclaration Declaration)
  | accessor (declaration : AccessorDeclaration Statement)
  | endBlock (ending : EndBlock)
  | bad (span : Span)

end

instance : Inhabited Statement := ⟨.bad default⟩
instance : Inhabited Declaration := ⟨.bad default⟩

abbrev Statements := StatementList Statement
abbrev Declarations := DeclarationList Declaration

namespace Declaration

def span : Declaration → Span
  | option _ _ s | imports _ s | attributes _ s | bad s => s
  | namespaceBlock d => d.span
  | type d => d.span
  | enum d => d.span
  | enumValue d => d.span
  | typeList d => d.span
  | variableList d => d.span
  | method d => d.span
  | operator d => d.span
  | external d => d.span
  | delegate d => d.span
  | event d => d.span
  | customEvent d => d.span
  | property d => d.span
  | accessor d => d.span
  | endBlock e => e.span

def isBad : Declaration → Bool
  | bad _ => true
  | _ => false

def head? : Declaration → Option DeclarationHead
  | type d => some d.head
  | enum d => some d.head
  | variableList d => some d.head
  | method d => some d.head
  | operator d => some d.head
  | external d => some d.head
  | delegate d => some d.head
  | event d => some d.head
  | customEvent d => some d.head
  | property d => some d.head
  | accessor d => some d.head
  | _ => none

end Declaration

namespace Statement

def span : Statement → Span
  | assignment s => s.span
  | compoundAssignment s => s.span
  | midAssignment s => s.span
  | call s => s.span
  | localDeclaration s => s.span
  | label _ s | goTo _ s | exitBlock _ s | continueBlock _ s | stop s | endProgram s
  | returnValue _ s | throwException _ s | raiseError _ s | raiseEvent _ _ s | onError _ s
  | resume _ s | reDim _ _ s | erase _ s | elsePart s | caseElse s | finallyPart s | bad s => s
  | handler s => s.span
  | ifBlock b => b.span
  | lineIf b => b.span
  | doBlock b => b.span
  | forBlock b => b.span
  | forEachBlock b => b.span
  | whileBlock b => b.span
  | objectBlock b => b.span
  | usingBlock b => b.span
  | tryBlock b => b.span
  | selectBlock b => b.span
  | endBlock e => e.span
  | loop s => s.span
  | next s => s.span
  | elseIf s => s.span
  | case s => s.span
  | catchPart s => s.span
  | declaration d => d.span

def isBad : Statement → Bool
  | bad _ => true
  | _ => false

end Statement

/-- The types that a type's members of the given kind name. -/
def TypeDeclaration.listed (d : TypeDeclaration Declaration) (kind : TypeListKind) :
    List TypeName :=
  d.members.declarations.flatMap fun member =>
    match member with
    | .typeList list => if list.kind = kind then list.types.items else []
    | _ => []

structure Comment where
  text : String
  isRem : Bool
  span : Span
deriving DecidableEq, Inhabited

structure SourceFile where
  declarations : Declarations
  comments : List Comment
  span : Span
deriving Inhabited

/-- A script, in which statements and declarations stand side by side. -/
structure Script where
  statements : Statements
  comments : List Comment
  span : Span
deriving Inhabited

end VisualBasic
