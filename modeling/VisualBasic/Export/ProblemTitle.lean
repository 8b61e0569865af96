import VisualBasic.Diagnostic

/-!
The names of problems in exported data.
-/

set_option autoImplicit false

namespace VisualBasic

def compact (text : String) : String := String.ofList (text.toList.filter fun c => c != ' ')

def LexicalFault.title : LexicalFault → String
  | invalidCharacter => "InvalidCharacter"
  | invalidIdentifier => "InvalidIdentifier"
  | invalidEscapedIdentifier => "InvalidEscapedIdentifier"
  | invalidTypeCharacter => "InvalidTypeCharacter"
  | invalidIntegerLiteral => "InvalidIntegerLiteral"
  | invalidFloatingPointLiteral => "InvalidFloatingPointLiteral"
  | invalidDecimalLiteral => "InvalidDecimalLiteral"
  | invalidStringLiteral => "InvalidStringLiteral"
  | invalidCharacterLiteral => "InvalidCharacterLiteral"
  | invalidDateLiteral => "InvalidDateLiteral"
  | invalidLineContinuation => "InvalidLineContinuation"

def LexicalFault.all : List LexicalFault := [
  .invalidCharacter, .invalidIdentifier, .invalidEscapedIdentifier, .invalidTypeCharacter,
  .invalidIntegerLiteral, .invalidFloatingPointLiteral, .invalidDecimalLiteral,
  .invalidStringLiteral, .invalidCharacterLiteral, .invalidDateLiteral, .invalidLineContinuation]

namespace Problem

def title : Problem → String
  | lexical f => f.title
  | unclosed b => "Expected" ++ compact b.ending
  | stray t => compact t.quoted ++ "Without" ++ t.block.spelling
  | expectedEndOfStatement => "ExpectedEndOfStatement"
  | expectedIdentifier => "ExpectedIdentifier"
  | expectedComma => "ExpectedComma"
  | expectedLeftParenthesis => "ExpectedLeftParenthesis"
  | expectedRightParenthesis => "ExpectedRightParenthesis"
  | expectedLeftCurlyBrace => "ExpectedLeftCurlyBrace"
  | expectedRightCurlyBrace => "ExpectedRightCurlyBrace"
  | expectedGreaterThan => "ExpectedGreaterThan"
  | expectedEquals => "ExpectedEquals"
  | expectedAs => "ExpectedAs"
  | expectedPeriod => "ExpectedPeriod"
  | expectedIs => "ExpectedIs"
  | expectedIn => "ExpectedIn"
  | expectedTo => "ExpectedTo"
  | expectedThen => "ExpectedThen"
  | expectedOf => "ExpectedOf"
  | expectedLib => "ExpectedLib"
  | expectedStringLiteral => "ExpectedStringLiteral"
  | expectedIntegerLiteral => "ExpectedIntegerLiteral"
  | expectedExpression => "ExpectedExpression"
  | expectedType => "ExpectedType"
  | expectedRelationalOperator => "ExpectedRelationalOperator"
  | expectedOverloadableOperator => "ExpectedOverloadableOperator"
  | expectedNamedArgument => "ExpectedNamedArgument"
  | expectedSubOrFunction => "ExpectedSubOrFunction"
  | expectedDeclaration => "ExpectedDeclaration"
  | expectedStatement => "ExpectedStatement"
  | expectedCase => "ExpectedCase"
  | expectedExitKind => "ExpectedExitKind"
  | expectedContinueKind => "ExpectedContinueKind"
  | expectedEndKind => "ExpectedEndKind"
  | expectedOptionKind => "ExpectedOptionKind"
  | expectedOnOrOff => "ExpectedOnOrOff"
  | expectedBinaryOrText => "ExpectedBinaryOrText"
  | expectedError => "ExpectedError"
  | expectedResumeOrGoTo => "ExpectedResumeOrGoTo"
  | expectedLabel => "ExpectedLabel"
  | expectedGetOrSet => "ExpectedGetOrSet"
  | expectedEventAccessor => "ExpectedEventAccessor"
  | expectedWhileOrUntil => "ExpectedWhileOrUntil"
  | expectedConstraint => "ExpectedConstraint"
  | expectedInitializer => "ExpectedInitializer"
  | expectedOptionalDefault => "ExpectedOptionalDefault"
  | elseAfterElse => "ElseAfterElse"
  | elseIfAfterElse => "ElseIfAfterElse"
  | loopConditionAlreadySpecified => "LoopConditionAlreadySpecified"
  | caseAfterCaseElse => "CaseAfterCaseElse"
  | caseElseAfterCaseElse => "CaseElseAfterCaseElse"
  | catchAfterFinally => "CatchAfterFinally"
  | finallyAfterFinally => "FinallyAfterFinally"
  | inheritsMustBeFirst => "InheritsMustBeFirst"
  | noMultipleInheritance => "NoMultipleInheritance"
  | implementsInWrongOrder => "ImplementsInWrongOrder"
  | inheritsNotValidHere => "InheritsNotValidHere"
  | implementsNotValidHere => "ImplementsNotValidHere"
  | optionStatementWrongOrder => "OptionStatementWrongOrder"
  | importsStatementWrongOrder => "ImportsStatementWrongOrder"
  | attributeStatementWrongOrder => "AttributeStatementWrongOrder"
  | invalidInsideType => "InvalidInsideType"
  | invalidInsideEnum => "InvalidInsideEnum"
  | invalidInsideInterface => "InvalidInsideInterface"
  | invalidInsideNamespace => "InvalidInsideNamespace"
  | invalidInsideProcedure => "InvalidInsideProcedure"
  | labelNotAtLineStart => "LabelNotAtLineStart"
  | invalidModifier => "InvalidModifier"
  | duplicateModifier => "DuplicateModifier"
  | duplicateParameterSpecifier => "DuplicateParameterSpecifier"
  | conflictingParameterSpecifiers => "ConflictingParameterSpecifiers"
  | paramArrayMustBeLast => "ParamArrayMustBeLast"
  | invalidUseOfCustomModifier => "InvalidUseOfCustomModifier"
  | invalidUseOfKeyword => "InvalidUseOfKeyword"
  | arrayBoundsNotAllowed => "ArrayBoundsNotAllowed"
  | meNotValidInHandles => "MeNotValidInHandles"
  | obsoleteGosub => "ObsoleteGosub"
  | invalidPreprocessorDirective => "InvalidPreprocessorDirective"
  | nestedExternalSourceStatement => "NestedExternalSourceStatement"
  | endExternalSourceWithoutExternalSource => "EndExternalSourceWithoutExternalSource"
  | expectedEndExternalSource => "ExpectedEndExternalSource"
  | endRegionWithoutRegion => "EndRegionWithoutRegion"
  | expectedEndRegion => "ExpectedEndRegion"
  | ccElseIfWithoutCcIf => "CcElseIfWithoutCcIf"
  | ccElseWithoutCcIf => "CcElseWithoutCcIf"
  | ccEndIfWithoutCcIf => "CcEndIfWithoutCcIf"
  | ccElseIfAfterCcElse => "CcElseIfAfterCcElse"
  | ccElseAfterCcElse => "CcElseAfterCcElse"
  | expectedCcEndIf => "ExpectedCcEndIf"

/-- The problems that are about nothing in particular. -/
def simple : List Problem := [
  expectedEndOfStatement, expectedIdentifier, expectedComma, expectedLeftParenthesis,
  expectedRightParenthesis, expectedLeftCurlyBrace, expectedRightCurlyBrace, expectedGreaterThan,
  expectedEquals, expectedAs, expectedPeriod, expectedIs, expectedIn, expectedTo, expectedThen,
  expectedOf, expectedLib, expectedStringLiteral, expectedIntegerLiteral, expectedExpression,
  expectedType, expectedRelationalOperator, expectedOverloadableOperator, expectedNamedArgument,
  expectedSubOrFunction, expectedDeclaration, expectedStatement, expectedCase, expectedExitKind,
  expectedContinueKind, expectedEndKind, expectedOptionKind, expectedOnOrOff,
  expectedBinaryOrText, expectedError, expectedResumeOrGoTo, expectedLabel, expectedGetOrSet,
  expectedEventAccessor, expectedWhileOrUntil, expectedConstraint, expectedInitializer,
  expectedOptionalDefault, elseAfterElse, elseIfAfterElse, loopConditionAlreadySpecified,
  caseAfterCaseElse, caseElseAfterCaseElse, catchAfterFinally, finallyAfterFinally,
  inheritsMustBeFirst, noMultipleInheritance, implementsInWrongOrder, inheritsNotValidHere,
  implementsNotValidHere, optionStatementWrongOrder, importsStatementWrongOrder,
  attributeStatementWrongOrder, invalidInsideType, invalidInsideEnum, invalidInsideInterface,
  invalidInsideNamespace, invalidInsideProcedure, labelNotAtLineStart, invalidModifier,
  duplicateModifier, duplicateParameterSpecifier, conflictingParameterSpecifiers,
  paramArrayMustBeLast, invalidUseOfCustomModifier, invalidUseOfKeyword, arrayBoundsNotAllowed,
  meNotValidInHandles, obsoleteGosub, invalidPreprocessorDirective, nestedExternalSourceStatement,
  endExternalSourceWithoutExternalSource, expectedEndExternalSource, endRegionWithoutRegion,
  expectedEndRegion, ccElseIfWithoutCcIf, ccElseWithoutCcIf, ccEndIfWithoutCcIf,
  ccElseIfAfterCcElse, ccElseAfterCcElse, expectedCcEndIf]

def all : List Problem :=
  LexicalFault.all.map lexical ++ BlockKind.all.map unclosed ++ Terminator.all.map stray ++ simple

/-- The problem with a given name. -/
def ofTitle? (title : String) : Option Problem := all.find? fun p => p.title == title

end Problem

end VisualBasic
