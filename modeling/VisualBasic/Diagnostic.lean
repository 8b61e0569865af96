import VisualBasic.Location
import VisualBasic.Block
import VisualBasic.Text.Lines

/-!
What can be wrong with a source text.  A lexical fault is a property of a single token; the other
problems are found while parsing.  Problems never stop the parser: it records them as diagnostics
and goes on.
-/

set_option autoImplicit false

namespace VisualBasic

inductive LexicalFault where
  | invalidCharacter
  | invalidIdentifier
  | invalidEscapedIdentifier
  | invalidTypeCharacter
  | invalidIntegerLiteral
  | invalidFloatingPointLiteral
  | invalidDecimalLiteral
  | invalidStringLiteral
  | invalidCharacterLiteral
  | invalidDateLiteral
  | invalidLineContinuation
deriving DecidableEq, Inhabited

def LexicalFault.message : LexicalFault → String
  | invalidCharacter => "invalid character"
  | invalidIdentifier => "invalid identifier"
  | invalidEscapedIdentifier => "invalid escaped identifier"
  | invalidTypeCharacter => "type character is not valid here"
  | invalidIntegerLiteral => "invalid integer literal"
  | invalidFloatingPointLiteral => "invalid floating-point literal"
  | invalidDecimalLiteral => "invalid decimal literal"
  | invalidStringLiteral => "string literal is not terminated"
  | invalidCharacterLiteral => "character literal must contain exactly one character"
  | invalidDateLiteral => "invalid date literal"
  | invalidLineContinuation => "line continuation must be followed by a line terminator"

/-- The cause of a diagnostic. -/
inductive Problem where
  | lexical (fault : LexicalFault)
  -- a block that the text does not end
  | unclosed (block : BlockKind)
  -- a terminator that no open block accepts
  | stray (terminator : Terminator)
  | expectedEndOfStatement
  | expectedIdentifier
  | expectedComma
  | expectedLeftParenthesis
  | expectedRightParenthesis
  | expectedLeftCurlyBrace
  | expectedRightCurlyBrace
  | expectedGreaterThan
  | expectedEquals
  | expectedAs
  | expectedPeriod
  | expectedIs
  | expectedIn
  | expectedTo
  | expectedThen
  | expectedOf
  | expectedLib
  | expectedStringLiteral
  | expectedIntegerLiteral
  | expectedExpression
  | expectedType
  | expectedRelationalOperator
  | expectedOverloadableOperator
  | expectedNamedArgument
  | expectedSubOrFunction
  | expectedDeclaration
  | expectedStatement
  | expectedCase
  | expectedExitKind
  | expectedContinueKind
  | expectedEndKind
  | expectedOptionKind
  | expectedOnOrOff
  | expectedBinaryOrText
  | expectedError
  | expectedResumeOrGoTo
  | expectedLabel
  | expectedGetOrSet
  | expectedEventAccessor
  | expectedWhileOrUntil
  | expectedConstraint
  | expectedInitializer
  | expectedOptionalDefault
  | elseAfterElse
  | elseIfAfterElse
  | loopConditionAlreadySpecified
  | caseAfterCaseElse
  | caseElseAfterCaseElse
  | catchAfterFinally
  | finallyAfterFinally
  | inheritsMustBeFirst
  | noMultipleInheritance
  | implementsInWrongOrder
  | inheritsNotValidHere
  | implementsNotValidHere
  | optionStatementWrongOrder
  | importsStatementWrongOrder
  | attributeStatementWrongOrder
  | invalidInsideType
  | invalidInsideEnum
  | invalidInsideInterface
  | invalidInsideNamespace
  | invalidInsideProcedure
  | labelNotAtLineStart
  | invalidModifier
  | duplicateModifier
  | duplicateParameterSpecifier
  | conflictingParameterSpecifiers
  | paramArrayMustBeLast
  | invalidUseOfCustomModifier
  | invalidUseOfKeyword
  | arrayBoundsNotAllowed
  | meNotValidInHandles
  | obsoleteGosub
  | invalidPreprocessorDirective
  | nestedExternalSourceStatement
  | endExternalSourceWithoutExternalSource
  | expectedEndExternalSource
  | endRegionWithoutRegion
  | expectedEndRegion
  | ccElseIfWithoutCcIf
  | ccElseWithoutCcIf
  | ccEndIfWithoutCcIf
  | ccElseIfAfterCcElse
  | ccElseAfterCcElse
  | expectedCcEndIf
deriving DecidableEq, Inhabited

namespace Problem

def message : Problem → String
  | lexical fault => fault.message
  | unclosed b => "'" ++ b.opening ++ "' must end with a matching '" ++ b.ending ++ "'"
  | stray t => "'" ++ t.quoted ++ "' must be preceded by a matching " ++ t.precededBy
  | expectedEndOfStatement => "expected end of statement"
  | expectedIdentifier => "expected identifier"
  | expectedComma => "expected ','"
  | expectedLeftParenthesis => "expected '('"
  | expectedRightParenthesis => "expected ')'"
  | expectedLeftCurlyBrace => "expected '\x7b'"
  | expectedRightCurlyBrace => "expected '\x7d'"
  | expectedGreaterThan => "expected '>'"
  | expectedEquals => "expected '='"
  | expectedAs => "expected 'As'"
  | expectedPeriod => "expected '.'"
  | expectedIs => "expected 'Is'"
  | expectedIn => "expected 'In'"
  | expectedTo => "expected 'To'"
  | expectedThen => "expected 'Then'"
  | expectedOf => "expected 'Of'"
  | expectedLib => "expected 'Lib'"
  | expectedStringLiteral => "expected string literal"
  | expectedIntegerLiteral => "expected integer literal"
  | expectedExpression => "expected expression"
  | expectedType => "expected type"
  | expectedRelationalOperator => "expected relational operator"
  | expectedOverloadableOperator => "expected overloadable operator"
  | expectedNamedArgument => "named argument expected"
  | expectedSubOrFunction => "expected 'Sub' or 'Function'"
  | expectedDeclaration => "expected declaration"
  | expectedStatement => "expected statement"
  | expectedCase => "expected 'Case'"
  | expectedExitKind =>
    "expected 'Do', 'For', 'While', 'Select', 'Sub', 'Function', 'Property' or 'Try'"
  | expectedContinueKind => "expected 'Do', 'For' or 'While'"
  | expectedEndKind => "expected block kind after 'End'"
  | expectedOptionKind => "expected 'Explicit', 'Strict' or 'Compare'"
  | expectedOnOrOff => "expected 'On' or 'Off'"
  | expectedBinaryOrText => "expected 'Binary' or 'Text'"
  | expectedError => "expected 'Error'"
  | expectedResumeOrGoTo => "expected 'Resume' or 'GoTo'"
  | expectedLabel => "expected label or line number"
  | expectedGetOrSet => "expected 'Get' or 'Set' accessor"
  | expectedEventAccessor => "expected 'AddHandler', 'RemoveHandler' or 'RaiseEvent' accessor"
  | expectedWhileOrUntil => "expected 'While' or 'Until'"
  | expectedConstraint => "expected type constraint"
  | expectedInitializer => "expected initializer"
  | expectedOptionalDefault => "optional parameter requires a default value"
  | elseAfterElse => "'Else' cannot follow 'Else'"
  | elseIfAfterElse => "'ElseIf' cannot follow 'Else'"
  | loopConditionAlreadySpecified => "loop condition cannot appear on both 'Do' and 'Loop'"
  | caseAfterCaseElse => "'Case' cannot follow 'Case Else'"
  | caseElseAfterCaseElse => "'Case Else' cannot follow 'Case Else'"
  | catchAfterFinally => "'Catch' cannot follow 'Finally'"
  | finallyAfterFinally => "'Finally' cannot follow 'Finally'"
  | inheritsMustBeFirst => "'Inherits' must be the first statement in a type"
  | noMultipleInheritance => "a class can inherit from only one type"
  | implementsInWrongOrder => "'Implements' must follow 'Inherits' and precede other members"
  | inheritsNotValidHere => "'Inherits' is not valid in this type"
  | implementsNotValidHere => "'Implements' is not valid in this type"
  | optionStatementWrongOrder => "'Option' statements must precede all other declarations"
  | importsStatementWrongOrder =>
    "'Imports' statements must precede all declarations except 'Option'"
  | attributeStatementWrongOrder =>
    "assembly and module attributes must precede all other declarations"
  | invalidInsideType => "declaration is not valid inside a type"
  | invalidInsideEnum => "statement is not valid inside an enum"
  | invalidInsideInterface => "declaration is not valid inside an interface"
  | invalidInsideNamespace => "declaration is not valid inside a namespace"
  | invalidInsideProcedure => "declaration is not valid inside a method"
  | labelNotAtLineStart => "labels must appear at the start of a line"
  | invalidModifier => "modifier is not valid on this declaration"
  | duplicateModifier => "modifier specified more than once"
  | duplicateParameterSpecifier => "parameter specifier specified more than once"
  | conflictingParameterSpecifiers => "'ByVal' and 'ByRef' cannot be combined"
  | paramArrayMustBeLast => "'ParamArray' parameter must be the last parameter"
  | invalidUseOfCustomModifier => "'Custom' is only valid before 'Event'"
  | invalidUseOfKeyword => "keyword is not valid as an identifier"
  | arrayBoundsNotAllowed => "array bounds cannot appear here"
  | meNotValidInHandles => "'Me' is not valid in a 'Handles' clause for this language version"
  | obsoleteGosub => "'GoSub' is no longer supported"
  | invalidPreprocessorDirective => "invalid preprocessor directive"
  | nestedExternalSourceStatement => "'#ExternalSource' directives cannot be nested"
  | endExternalSourceWithoutExternalSource =>
    "'#End ExternalSource' must be preceded by a matching '#ExternalSource'"
  | expectedEndExternalSource => "'#ExternalSource' must end with a matching '#End ExternalSource'"
  | endRegionWithoutRegion => "'#End Region' must be preceded by a matching '#Region'"
  | expectedEndRegion => "'#Region' must end with a matching '#End Region'"
  | ccElseIfWithoutCcIf => "'#ElseIf' must be preceded by a matching '#If'"
  | ccElseWithoutCcIf => "'#Else' must be preceded by a matching '#If'"
  | ccEndIfWithoutCcIf => "'#End If' must be preceded by a matching '#If'"
  | ccElseIfAfterCcElse => "'#ElseIf' cannot follow '#Else'"
  | ccElseAfterCcElse => "'#Else' cannot follow '#Else'"
  | expectedCcEndIf => "'#If' must end with a matching '#End If'"

def isLexical : Problem → Bool
  | lexical _ => true
  | _ => false

end Problem

structure Diagnostic where
  problem : Problem
  span : Span
deriving DecidableEq, Inhabited

namespace Diagnostic

def render (d : Diagnostic) : String := d.problem.message ++ " at " ++ d.span.render

def spaces (n : Nat) : String := String.ofList (List.replicate n ' ')

def carets (n : Nat) : String := String.ofList (List.replicate n '^')

/-- The number of characters to underline: the span when it stays on its line, else one. -/
def markWidth (s : Span) : Nat :=
  if s.start.line = s.finish.line then max s.length 1 else 1

/-- The message over the source line it is about, with the place marked below it. -/
def renderIn (source : String) (d : Diagnostic) : String :=
  match (textLines source.toList)[d.span.start.line - 1]? with
  | none => d.render
  | some line =>
    "error: " ++ d.problem.message ++ "\n --> " ++ d.span.start.render ++ "\n  |\n  | "
      ++ String.ofList line ++ "\n  | " ++ spaces (max d.span.start.column 1 - 1) ++ carets (markWidth d.span)

def renderAll (ds : List Diagnostic) : String := "\n".intercalate (ds.map render)

end Diagnostic

end VisualBasic
