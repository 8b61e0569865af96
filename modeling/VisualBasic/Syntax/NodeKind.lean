/-!
The kinds of nodes of a syntax tree.  Every kind has a number, which other tools rely on; the
numbers of names, types, expressions, statements and declarations lie in ranges of their own.
-/

set_option autoImplicit false

namespace VisualBasic

inductive NodeKind where
  | file
  | scriptBlock
  | argument
  | aggregateInitializer
  | variableDeclarator
  | parameter
  | typeParameter
  | constraint
  | arrayBound
  | appliedAttribute
  | importsClause
  | handlesItem
  | caseValueClause
  | caseRangeClause
  | caseRelationalClause
  | elseIfBlock
  | elseBlock
  | caseBlock
  | catchBlock
  | finallyBlock
  | simpleName
  | qualifiedName
  | globalNamespaceName
  | specialName
  | variableName
  | intrinsicType
  | namedType
  | constructedType
  | arrayType
  | badType
  | booleanLiteralExpression
  | integerLiteralExpression
  | floatingPointLiteralExpression
  | decimalLiteralExpression
  | characterLiteralExpression
  | stringLiteralExpression
  | dateLiteralExpression
  | simpleNameExpression
  | qualifiedExpression
  | dictionaryLookupExpression
  | callOrIndexExpression
  | meExpression
  | myClassExpression
  | myBaseExpression
  | globalExpression
  | nothingExpression
  | parenthesizedExpression
  | unaryOperatorExpression
  | binaryOperatorExpression
  | typeOfExpression
  | getTypeExpression
  | cTypeExpression
  | directCastExpression
  | tryCastExpression
  | intrinsicCastExpression
  | newExpression
  | newAggregateExpression
  | addressOfExpression
  | badExpression
  | assignmentStatement
  | compoundAssignmentStatement
  | midAssignmentStatement
  | callStatement
  | localDeclarationStatement
  | labelStatement
  | goToStatement
  | exitStatement
  | continueStatement
  | stopStatement
  | endStatement
  | returnStatement
  | throwStatement
  | errorStatement
  | raiseEventStatement
  | addHandlerStatement
  | removeHandlerStatement
  | onErrorStatement
  | resumeStatement
  | reDimStatement
  | eraseStatement
  | ifBlockStatement
  | lineIfStatement
  | doBlockStatement
  | forBlockStatement
  | forEachBlockStatement
  | whileBlockStatement
  | withBlockStatement
  | syncLockBlockStatement
  | usingBlockStatement
  | tryBlockStatement
  | selectBlockStatement
  | endBlockStatement
  | loopStatement
  | nextStatement
  | elseIfStatement
  | elseStatement
  | caseStatement
  | caseElseStatement
  | catchStatement
  | finallyStatement
  | badStatement
  | optionDeclaration
  | importsDeclaration
  | attributeDeclaration
  | namespaceDeclaration
  | classDeclaration
  | structureDeclaration
  | moduleDeclaration
  | interfaceDeclaration
  | enumDeclaration
  | enumValueDeclaration
  | inheritsDeclaration
  | implementsDeclaration
  | variableListDeclaration
  | subDeclaration
  | functionDeclaration
  | constructorDeclaration
  | operatorDeclaration
  | externalSubDeclaration
  | externalFunctionDeclaration
  | delegateSubDeclaration
  | delegateFunctionDeclaration
  | eventDeclaration
  | customEventDeclaration
  | propertyDeclaration
  | getAccessorDeclaration
  | setAccessorDeclaration
  | addHandlerAccessorDeclaration
  | removeHandlerAccessorDeclaration
  | raiseEventAccessorDeclaration
  | endBlockDeclaration
  | badDeclaration
deriving DecidableEq, Inhabited

namespace NodeKind

def all : List NodeKind := [
  file, scriptBlock, argument, aggregateInitializer, variableDeclarator, parameter, typeParameter,
  constraint, arrayBound, appliedAttribute, importsClause, handlesItem, caseValueClause,
  caseRangeClause, caseRelationalClause, elseIfBlock, elseBlock, caseBlock, catchBlock,
  finallyBlock, simpleName,
  qualifiedName, globalNamespaceName, specialName, variableName, intrinsicType, namedType,
  constructedType, arrayType, badType, booleanLiteralExpression, integerLiteralExpression,
  floatingPointLiteralExpression, decimalLiteralExpression, characterLiteralExpression,
  stringLiteralExpression, dateLiteralExpression, simpleNameExpression, qualifiedExpression,
  dictionaryLookupExpression, callOrIndexExpression, meExpression, myClassExpression,
  myBaseExpression, globalExpression, nothingExpression, parenthesizedExpression,
  unaryOperatorExpression, binaryOperatorExpression, typeOfExpression, getTypeExpression,
  cTypeExpression, directCastExpression, tryCastExpression, intrinsicCastExpression,
  newExpression, newAggregateExpression, addressOfExpression, badExpression, assignmentStatement,
  compoundAssignmentStatement, midAssignmentStatement, callStatement, localDeclarationStatement,
  labelStatement, goToStatement, exitStatement, continueStatement, stopStatement, endStatement,
  returnStatement, throwStatement, errorStatement, raiseEventStatement, addHandlerStatement,
  removeHandlerStatement, onErrorStatement, resumeStatement, reDimStatement, eraseStatement,
  ifBlockStatement, lineIfStatement, doBlockStatement, forBlockStatement, forEachBlockStatement,
  whileBlockStatement, withBlockStatement, syncLockBlockStatement, usingBlockStatement,
  tryBlockStatement, selectBlockStatement, endBlockStatement, loopStatement, nextStatement,
  elseIfStatement, elseStatement, caseStatement, caseElseStatement, catchStatement,
  finallyStatement, badStatement, optionDeclaration, importsDeclaration, attributeDeclaration,
  namespaceDeclaration, classDeclaration, structureDeclaration, moduleDeclaration,
  interfaceDeclaration, enumDeclaration, enumValueDeclaration, inheritsDeclaration,
  implementsDeclaration, variableListDeclaration, subDeclaration, functionDeclaration,
  constructorDeclaration, operatorDeclaration, externalSubDeclaration,
  externalFunctionDeclaration, delegateSubDeclaration, delegateFunctionDeclaration,
  eventDeclaration, customEventDeclaration, propertyDeclaration, getAccessorDeclaration,
  setAccessorDeclaration, addHandlerAccessorDeclaration, removeHandlerAccessorDeclaration,
  raiseEventAccessorDeclaration, endBlockDeclaration, badDeclaration]

def code : NodeKind → Nat
  | file => 0
  | scriptBlock => 1
  | argument => 2
  | aggregateInitializer => 3
  | variableDeclarator => 4
  | parameter => 5
  | typeParameter => 6
  | constraint => 7
  | arrayBound => 8
  | appliedAttribute => 9
  | importsClause => 10
  | handlesItem => 11
  | caseValueClause => 12
  | caseRangeClause => 13
  | caseRelationalClause => 14
  | elseIfBlock => 15
  | elseBlock => 16
  | caseBlock => 17
  | catchBlock => 18
  | finallyBlock => 19
  | simpleName => 100
  | qualifiedName => 101
  | globalNamespaceName => 102
  | specialName => 103
  | variableName => 104
  | intrinsicType => 200
  | namedType => 201
  | constructedType => 202
  | arrayType => 203
  | badType => 204
  | booleanLiteralExpression => 300
  | integerLiteralExpression => 301
  | floatingPointLiteralExpression => 302
  | decimalLiteralExpression => 303
  | characterLiteralExpression => 304
  | stringLiteralExpression => 305
  | dateLiteralExpression => 306
  | simpleNameExpression => 307
  | qualifiedExpression => 308
  | dictionaryLookupExpression => 309
  | callOrIndexExpression => 310
  | meExpression => 311
  | myClassExpression => 312
  | myBaseExpression => 313
  | globalExpression => 314
  | nothingExpression => 315
  | parenthesizedExpression => 316
  | unaryOperatorExpression => 317
  | binaryOperatorExpression => 318
  | typeOfExpression => 319
  | getTypeExpression => 320
  | cTypeExpression => 321
  | directCastExpression => 322
  | tryCastExpression => 323
  | intrinsicCastExpression => 324
  | newExpression => 325
  | newAggregateExpression => 326
  | addressOfExpression => 327
  | badExpression => 328
  | assignmentStatement => 500
  | compoundAssignmentStatement => 501
  | midAssignmentStatement => 502
  | callStatement => 503
  | localDeclarationStatement => 504
  | labelStatement => 505
  | goToStatement => 506
  | exitStatement => 507
  | continueStatement => 508
  | stopStatement => 509
  | endStatement => 510
  | returnStatement => 511
  | throwStatement => 512
  | errorStatement => 513
  | raiseEventStatement => 514
  | addHandlerStatement => 515
  | removeHandlerStatement => 516
  | onErrorStatement => 517
  | resumeStatement => 518
  | reDimStatement => 519
  | eraseStatement => 520
  | ifBlockStatement => 521
  | lineIfStatement => 522
  | doBlockStatement => 523
  | forBlockStatement => 524
  | forEachBlockStatement => 525
  | whileBlockStatement => 526
  | withBlockStatement => 527
  | syncLockBlockStatement => 528
  | usingBlockStatement => 529
  | tryBlockStatement => 530
  | selectBlockStatement => 531
  | endBlockStatement => 532
  | loopStatement => 533
  | nextStatement => 534
  | elseIfStatement => 535
  | elseStatement => 536
  | caseStatement => 537
  | caseElseStatement => 538
  | catchStatement => 539
  | finallyStatement => 540
  | badStatement => 541
  | optionDeclaration => 700
  | importsDeclaration => 701
  | attributeDeclaration => 702
  | namespaceDeclaration => 703
  | classDeclaration => 704
  | structureDeclaration => 705
  | moduleDeclaration => 706
  | interfaceDeclaration => 707
  | enumDeclaration => 708
  | enumValueDeclaration => 709
  | inheritsDeclaration => 710
  | implementsDeclaration => 711
  | variableListDeclaration => 712
  | subDeclaration => 713
  | functionDeclaration => 714
  | constructorDeclaration => 715
  | operatorDeclaration => 716
  | externalSubDeclaration => 717
  | externalFunctionDeclaration => 718
  | delegateSubDeclaration => 719
  | delegateFunctionDeclaration => 720
  | eventDeclaration => 721
  | customEventDeclaration => 722
  | propertyDeclaration => 723
  | getAccessorDeclaration => 724
  | setAccessorDeclaration => 725
  | addHandlerAccessorDeclaration => 726
  | removeHandlerAccessorDeclaration => 727
  | raiseEventAccessorDeclaration => 728
  | endBlockDeclaration => 729
  | badDeclaration => 730

def ofCode? (code : Nat) : Option NodeKind := all.find? fun k => k.code == code

/-- The message for a number that is no kind. -/
def unknownCode (code : Nat) : String :=
  "No discriminant in enum `TreeType` matches the value `" ++ toString code ++ "`"

inductive Category where
  | other
  | name
  | type
  | expression
  | statement
  | declaration
deriving DecidableEq, Inhabited

def category (k : NodeKind) : Category :=
  if k.code < 100 then .other
  else if k.code < 200 then .name
  else if k.code < 300 then .type
  else if k.code < 500 then .expression
  else if k.code < 700 then .statement
  else .declaration

/-- A node that stands for source that could not be understood. -/
def isBad : NodeKind → Bool
  | badType | badExpression | badStatement | badDeclaration => true
  | _ => false

end NodeKind

end VisualBasic
