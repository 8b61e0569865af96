import VisualBasic.Syntax.NodeKind
import VisualBasic.Syntax.Operator

/-!
The names of tokens, operators and nodes in exported data.
-/

set_option autoImplicit false

namespace VisualBasic

/-- A keyword is named as it is spelled in mixed case. -/
def Keyword.title : Keyword → String
  | .kwRem => "Rem"
  | k => k.spelling

def Punctuator.title : Punctuator → String
  | leftParenthesis => "LeftParenthesis"
  | rightParenthesis => "RightParenthesis"
  | leftCurlyBrace => "LeftCurlyBrace"
  | rightCurlyBrace => "RightCurlyBrace"
  | exclamation => "Exclamation"
  | pound => "Pound"
  | comma => "Comma"
  | period => "Period"
  | colon => "Colon"
  | colonEquals => "ColonEquals"
  | ampersand => "Ampersand"
  | ampersandEquals => "AmpersandEquals"
  | star => "Star"
  | starEquals => "StarEquals"
  | plus => "Plus"
  | plusEquals => "PlusEquals"
  | minus => "Minus"
  | minusEquals => "MinusEquals"
  | forwardSlash => "ForwardSlash"
  | forwardSlashEquals => "ForwardSlashEquals"
  | backwardSlash => "BackwardSlash"
  | backwardSlashEquals => "BackwardSlashEquals"
  | caret => "Caret"
  | caretEquals => "CaretEquals"
  | lessThan => "LessThan"
  | lessThanEquals => "LessThanEquals"
  | notEquals => "NotEquals"
  | lessThanLessThan => "LessThanLessThan"
  | lessThanLessThanEquals => "LessThanLessThanEquals"
  | equals => "Equals"
  | greaterThan => "GreaterThan"
  | greaterThanEquals => "GreaterThanEquals"
  | greaterThanGreaterThan => "GreaterThanGreaterThan"
  | greaterThanGreaterThanEquals => "GreaterThanGreaterThanEquals"
  | questionMark => "QuestionMark"

def TokenKind.title : TokenKind → String
  | lexicalError => "LexicalError"
  | endOfStream => "EndOfStream"
  | lineTerminator => "LineTerminator"
  | comment => "Comment"
  | identifier => "Identifier"
  | integerLiteral => "IntegerLiteral"
  | unsignedIntegerLiteral => "UnsignedIntegerLiteral"
  | floatingPointLiteral => "FloatingPointLiteral"
  | decimalLiteral => "DecimalLiteral"
  | characterLiteral => "CharacterLiteral"
  | stringLiteral => "StringLiteral"
  | dateLiteral => "DateLiteral"
  | word k => k.title
  | mark p => p.title

def TypeCharacter.title : TypeCharacter → String
  | integerSymbol => "IntegerSymbol"
  | longSymbol => "LongSymbol"
  | decimalSymbol => "DecimalSymbol"
  | singleSymbol => "SingleSymbol"
  | doubleSymbol => "DoubleSymbol"
  | stringSymbol => "StringSymbol"
  | shortChar => "ShortChar"
  | unsignedShortChar => "UnsignedShortChar"
  | integerChar => "IntegerChar"
  | unsignedIntegerChar => "UnsignedIntegerChar"
  | longChar => "LongChar"
  | unsignedLongChar => "UnsignedLongChar"
  | singleChar => "SingleChar"
  | doubleChar => "DoubleChar"
  | decimalChar => "DecimalChar"

def IntegerBase.title : IntegerBase → String
  | decimal => "Decimal"
  | octal => "Octal"
  | hexadecimal => "Hexadecimal"

def UnaryOperator.title : UnaryOperator → String
  | negate => "Negate"
  | unaryPlus => "UnaryPlus"
  | complement => "Not"

def BinaryOperator.title : BinaryOperator → String
  | plus => "Plus"
  | minus => "Minus"
  | multiply => "Multiply"
  | divide => "Divide"
  | integralDivide => "IntegralDivide"
  | modulus => "Modulus"
  | power => "Power"
  | concatenate => "Concatenate"
  | shiftLeft => "ShiftLeft"
  | shiftRight => "ShiftRight"
  | equals => "Equals"
  | notEquals => "NotEquals"
  | lessThan => "LessThan"
  | lessThanEquals => "LessThanEquals"
  | greaterThan => "GreaterThan"
  | greaterThanEquals => "GreaterThanEquals"
  | isSame => "Is"
  | isNotSame => "IsNot"
  | like => "Like"
  | conjunction => "And"
  | andAlso => "AndAlso"
  | disjunction => "Or"
  | orElse => "OrElse"
  | exclusiveOr => "Xor"

def CompoundOperator.title (op : CompoundOperator) : String := op.binary.title

def Precedence.title : Precedence → String
  | lowest => "None"
  | xor => "Xor"
  | or => "Or"
  | and => "And"
  | not => "Not"
  | relational => "Relational"
  | shift => "Shift"
  | concatenate => "Concatenate"
  | additive => "Additive"
  | modulus => "Modulus"
  | integralDivide => "IntegralDivide"
  | multiplicative => "Multiplicative"
  | negate => "Negate"
  | power => "Power"

namespace NodeKind

def title : NodeKind → String
  | file => "File"
  | scriptBlock => "ScriptBlock"
  | argument => "Argument"
  | aggregateInitializer => "AggregateInitializer"
  | variableDeclarator => "VariableDeclarator"
  | parameter => "Parameter"
  | typeParameter => "TypeParameter"
  | constraint => "Constraint"
  | arrayBound => "ArrayBound"
  | appliedAttribute => "Attribute"
  | importsClause => "ImportsClause"
  | handlesItem => "HandlesItem"
  | caseValueClause => "CaseValueClause"
  | caseRangeClause => "CaseRangeClause"
  | caseRelationalClause => "CaseRelationalClause"
  | elseIfBlock => "ElseIfBlock"
  | elseBlock => "ElseBlock"
  | caseBlock => "CaseBlock"
  | catchBlock => "CatchBlock"
  | finallyBlock => "FinallyBlock"
  | simpleName => "SimpleName"
  | qualifiedName => "QualifiedName"
  | globalNamespaceName => "GlobalNamespaceName"
  | specialName => "SpecialName"
  | variableName => "VariableName"
  | intrinsicType => "IntrinsicType"
  | namedType => "NamedType"
  | constructedType => "ConstructedType"
  | arrayType => "ArrayType"
  | badType => "BadType"
  | booleanLiteralExpression => "BooleanLiteralExpression"
  | integerLiteralExpression => "IntegerLiteralExpression"
  | floatingPointLiteralExpression => "FloatingPointLiteralExpression"
  | decimalLiteralExpression => "DecimalLiteralExpression"
  | characterLiteralExpression => "CharacterLiteralExpression"
  | stringLiteralExpression => "StringLiteralExpression"
  | dateLiteralExpression => "DateLiteralExpression"
  | simpleNameExpression => "SimpleNameExpression"
  | qualifiedExpression => "QualifiedExpression"
  | dictionaryLookupExpression => "DictionaryLookupExpression"
  | callOrIndexExpression => "CallOrIndexExpression"
  | meExpression => "MeExpression"
  | myClassExpression => "MyClassExpression"
  | myBaseExpression => "MyBaseExpression"
  | globalExpression => "GlobalExpression"
  | nothingExpression => "NothingExpression"
  | parenthesizedExpression => "ParenthesizedExpression"
  | unaryOperatorExpression => "UnaryOperatorExpression"
  | binaryOperatorExpression => "BinaryOperatorExpression"
  | typeOfExpression => "TypeOfExpression"
  | getTypeExpression => "GetTypeExpression"
  | cTypeExpression => "CTypeExpression"
  | directCastExpression => "DirectCastExpression"
  | tryCastExpression => "TryCastExpression"
  | intrinsicCastExpression => "IntrinsicCastExpression"
  | newExpression => "NewExpression"
  | newAggregateExpression => "NewAggregateExpression"
  | addressOfExpression => "AddressOfExpression"
  | badExpression => "BadExpression"
  | assignmentStatement => "AssignmentStatement"
  | compoundAssignmentStatement => "CompoundAssignmentStatement"
  | midAssignmentStatement => "MidAssignmentStatement"
  | callStatement => "CallStatement"
  | localDeclarationStatement => "LocalDeclarationStatement"
  | labelStatement => "LabelStatement"
  | goToStatement => "GoToStatement"
  | exitStatement => "ExitStatement"
  | continueStatement => "ContinueStatement"
  | stopStatement => "StopStatement"
  | endStatement => "EndStatement"
  | returnStatement => "ReturnStatement"
  | throwStatement => "ThrowStatement"
  | errorStatement => "ErrorStatement"
  | raiseEventStatement => "RaiseEventStatement"
  | addHandlerStatement => "AddHandlerStatement"
  | removeHandlerStatement => "RemoveHandlerStatement"
  | onErrorStatement => "OnErrorStatement"
  | resumeStatement => "ResumeStatement"
  | reDimStatement => "ReDimStatement"
  | eraseStatement => "EraseStatement"
  | ifBlockStatement => "IfBlockStatement"
  | lineIfStatement => "LineIfStatement"
  | doBlockStatement => "DoBlockStatement"
  | forBlockStatement => "ForBlockStatement"
  | forEachBlockStatement => "ForEachBlockStatement"
  | whileBlockStatement => "WhileBlockStatement"
  | withBlockStatement => "WithBlockStatement"
  | syncLockBlockStatement => "SyncLockBlockStatement"
  | usingBlockStatement => "UsingBlockStatement"
  | tryBlockStatement => "TryBlockStatement"
  | selectBlockStatement => "SelectBlockStatement"
  | endBlockStatement => "EndBlockStatement"
  | loopStatement => "LoopStatement"
  | nextStatement => "NextStatement"
  | elseIfStatement => "ElseIfStatement"
  | elseStatement => "ElseStatement"
  | caseStatement => "CaseStatement"
  | caseElseStatement => "CaseElseStatement"
  | catchStatement => "CatchStatement"
  | finallyStatement => "FinallyStatement"
  | badStatement => "BadStatement"
  | optionDeclaration => "OptionDeclaration"
  | importsDeclaration => "ImportsDeclaration"
  | attributeDeclaration => "AttributeDeclaration"
  | namespaceDeclaration => "NamespaceDeclaration"
  | classDeclaration => "ClassDeclaration"
  | structureDeclaration => "StructureDeclaration"
  | moduleDeclaration => "ModuleDeclaration"
  | interfaceDeclaration => "InterfaceDeclaration"
  | enumDeclaration => "EnumDeclaration"
  | enumValueDeclaration => "EnumValueDeclaration"
  | inheritsDeclaration => "InheritsDeclaration"
  | implementsDeclaration => "ImplementsDeclaration"
  | variableListDeclaration => "VariableListDeclaration"
  | subDeclaration => "SubDeclaration"
  | functionDeclaration => "FunctionDeclaration"
  | constructorDeclaration => "ConstructorDeclaration"
  | operatorDeclaration => "OperatorDeclaration"
  | externalSubDeclaration => "ExternalSubDeclaration"
  | externalFunctionDeclaration => "ExternalFunctionDeclaration"
  | delegateSubDeclaration => "DelegateSubDeclaration"
  | delegateFunctionDeclaration => "DelegateFunctionDeclaration"
  | eventDeclaration => "EventDeclaration"
  | customEventDeclaration => "CustomEventDeclaration"
  | propertyDeclaration => "PropertyDeclaration"
  | getAccessorDeclaration => "GetAccessorDeclaration"
  | setAccessorDeclaration => "SetAccessorDeclaration"
  | addHandlerAccessorDeclaration => "AddHandlerAccessorDeclaration"
  | removeHandlerAccessorDeclaration => "RemoveHandlerAccessorDeclaration"
  | raiseEventAccessorDeclaration => "RaiseEventAccessorDeclaration"
  | endBlockDeclaration => "EndBlockDeclaration"
  | badDeclaration => "BadDeclaration"

def Category.title : Category → String
  | name => "name"
  | type => "type"
  | expression => "expression"
  | statement => "statement"
  | declaration => "declaration"
  | other => "other"

end NodeKind

end VisualBasic
