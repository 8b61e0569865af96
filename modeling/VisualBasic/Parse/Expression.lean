import VisualBasic.Parse.Argument
import VisualBasic.Parse.Type

/-!
Expressions.  An operand is a primary expression with members, arguments and the like behind it.
Operators are read by how tightly they bind: an expression takes in all operators that bind tighter
than what it stands in, each with a right operand that binds tighter still, so operators of one
level group to the left.
-/

set_option autoImplicit false

namespace VisualBasic.Parse

/-- The name that a token spells, with type arguments. -/
def nameExpression (r : Rules) (token : Token) : Parse Expression := do
  let arguments ← optionally (← get).atTypeArguments (typeArguments r)
  return .simpleName (.ofToken token) arguments (← spanFrom token.span.start)

/-- The member behind a dot. -/
def memberAccess (r : Rules) (qualifier : Option Expression) (dot : Location) :
    Parse Expression := do
  let name ← memberName
  let arguments ← optionally (!name.isMissing && (← get).atTypeArguments) (typeArguments r)
  let start := (qualifier.map fun q => q.span.start).getD dot
  return .qualified qualifier dot name arguments (← spanFrom start)

/-- The key behind an exclamation mark. -/
def dictionaryLookup (qualifier : Option Expression) (bang : Location) : Parse Expression := do
  let name ← memberName
  let start := (qualifier.map fun q => q.span.start).getD bang
  return .dictionaryLookup qualifier bang name (← spanFrom start)

def parenthesized (r : Rules) : Parse Expression := do
  let openParen := (← read).span.start
  let operand ← r.value
  let closeParen ← closeParenthesis
  return .parenthesized operand closeParen (← spanFrom openParen)

def openParenthesis : Parse Unit := do
  let _ ← expect (.mark .leftParenthesis) .expectedLeftParenthesis

def typeTest (r : Rules) : Parse Expression := do
  let start := (← read).span.start
  let operand ← r.expression .relational
  let isKeyword ← expectPlace (.word .kwIs) .expectedIs
  let type ←
    if isKeyword.isSome then r.typeName
    else do pure (.bad (.point (← placeholder)))
  return .typeOf operand isKeyword type (← spanFrom start)

def typeObject (r : Rules) : Parse Expression := do
  let start := (← read).span.start
  openParenthesis
  let type ← r.typeName
  let closeParen ← closeParenthesis
  return .getType type closeParen (← spanFrom start)

def cast (r : Rules) (kind : CastKind) : Parse Expression := do
  let start := (← read).span.start
  openParenthesis
  let operand ← r.value
  let comma ← expectPlace (.mark .comma) .expectedComma
  let type ← r.typeName
  let closeParen ← closeParenthesis
  return .cast kind operand comma type closeParen (← spanFrom start)

def intrinsicCast (r : Rules) (target : IntrinsicType) : Parse Expression := do
  let start := (← read).span.start
  openParenthesis
  let operand ← r.value
  let closeParen ← closeParenthesis
  return .intrinsicCast target operand closeParen (← spanFrom start)

def initializer (r : Rules) : Parse Initializer := do
  if ← check (.mark .leftCurlyBrace) then return .aggregate (← r.elements)
  else return .expression (← r.value)

def missingElements : Parse Aggregate := do
  reportUnexpected .expectedLeftCurlyBrace
  let place ← placeholder
  return ⟨place, .empty place, none, .point place⟩

/-- The elements of an array in braces. -/
def elements (r : Rules) : Parse Aggregate := do
  match ← eatPlace (.mark .leftCurlyBrace) with
  | none => missingElements
  | some openBrace =>
    let elements ←
      if ← check (.mark .rightCurlyBrace) then do pure (.empty (← here))
      else commaList Initializer.span (initializer r)
    let closeBrace ← expectPlace (.mark .rightCurlyBrace) .expectedRightCurlyBrace
    return ⟨openBrace, elements, closeBrace, ← spanFrom openBrace⟩

/-- A new object, or a new array when elements or a second group follow the first. -/
def creation (r : Rules) : Parse Expression := do
  let start := (← read).span.start
  let type ← elementType r
  if !type.isBad && (← get).atArraySize then
    let bounds ← arrayBounds r true
    let array := arrayOver type bounds (← spanFrom type.span.start)
    let array ← arraySuffixes r (← get).remaining array
    let elements ← elements r
    return .newArray array elements (← spanFrom start)
  else
    let arguments ← optionally (!type.isBad && (← check (.mark .leftParenthesis))) (argumentList r)
    return .newObject type arguments (← spanFrom start)

def badExpression : Parse Expression := do
  reportUnexpected .expectedExpression
  return .bad (.point (← placeholder))

/-- An expression that begins with a keyword which has a rule of its own. -/
def keywordExpression (r : Rules) (token : Token) (keyword : Keyword) : Parse Expression := do
  match keyword with
  | .kwGlobal =>
    skip
    unless ← check (.mark .period) do reportUnexpected .expectedPeriod
    return .globalNamespace token.span
  | .kwNothing =>
    skip
    return .nothing token.span
  | .kwTypeOf => typeTest r
  | .kwGetType => typeObject r
  | .kwCType => cast r .cType
  | .kwDirectCast => cast r .directCast
  | .kwTryCast => cast r .tryCast
  | .kwNew => creation r
  | .kwAddressOf =>
    skip
    let operand ← r.operand
    return .addressOf operand (← spanFrom token.span.start)
  | _ =>
    match InstanceKind.ofKind? token.kind, IntrinsicType.ofCastKind? token.kind with
    | some kind, _ =>
      skip
      return .currentInstance kind token.span
    | none, some target => intrinsicCast r target
    | none, none =>
      if (IntrinsicType.ofKind? token.kind).isSome && (← kindAfter) == .mark .period then
        skip
        nameExpression r token
      else badExpression

/-- An expression to which members and arguments can be added. -/
def primary (r : Rules) : Parse Expression := do
  let token ← peek
  match Constant.ofToken? token with
  | some value =>
    skip
    return .literal value token.span
  | none =>
    match token.kind with
    | .identifier =>
      skip
      nameExpression r token
    | .word keyword => keywordExpression r token keyword
    | .mark .leftParenthesis => parenthesized r
    | .mark .period =>
      skip
      memberAccess r none token.span.start
    | .mark .exclamation =>
      skip
      dictionaryLookup none token.span.start
    | .lexicalError =>
      reportUnexpected .expectedExpression
      skip
      return .bad token.span
    | _ => badExpression

/-- The expression ends in a name that is missing. -/
def endsInMissingName : Expression → Bool
  | .qualified _ _ name _ _ => name.isMissing
  | .dictionaryLookup _ _ name _ => name.isMissing
  | _ => false

/-- Members, keys and arguments behind an expression, as many as follow. -/
def postfixes (r : Rules) : Nat → Expression → Parse Expression
  | 0, target => return target
  | n + 1, target => do
    let token ← peek
    match token.kind with
    | .mark .period =>
      skip
      let target ← memberAccess r (some target) token.span.start
      if endsInMissingName target then return target else postfixes r n target
    | .mark .exclamation =>
      skip
      let target ← dictionaryLookup (some target) token.span.start
      if endsInMissingName target then return target else postfixes r n target
    | .mark .leftParenthesis =>
      let arguments ← argumentList r
      let span ← spanFrom target.span.start
      postfixes r n (.callOrIndex target arguments span)
    | _ => return target

def operand (r : Rules) : Parse Expression := do
  let target ← primary r
  if target.isBad then return target else postfixes r (← get).remaining target

/-- An operand with the unary operator before it, if there is one. -/
def unary (r : Rules) : Parse Expression := do
  let token ← peek
  match UnaryOperator.ofKind? token.kind with
  | none => operand r
  | some op =>
    skip
    let operand ← r.expression op.operandPrecedence
    return .unary op operand (← spanFrom token.span.start)

/-- The binary operators that follow and bind tighter than `pending`, with their right operands. -/
def binaries (r : Rules) (pending : Precedence) : Nat → Expression → Parse Expression
  | 0, left => return left
  | n + 1, left => do
    let token ← peek
    match BinaryOperator.ofKind? token.kind with
    | none => return left
    | some op =>
      if op.precedence ≤ pending then return left
      else
        skip
        let right ← r.expression op.precedence
        let span ← spanFrom left.span.start
        binaries r pending n (.binary left op token.span right span)

def expression (r : Rules) (pending : Precedence) : Parse Expression := do
  let left ← unary r
  binaries r pending (← get).remaining left

end VisualBasic.Parse

namespace VisualBasic

/-- The rules for phrases nested up to a depth.  Every phrase takes a token before the phrases in
it, so the number of tokens bounds the depth. -/
def Rules.ofDepth (version : Version) : Nat → Rules
  | 0 => ⟨version, fun _ => Parse.badExpression, Parse.badExpression,
      Parse.badType .expectedType, Parse.missingElements⟩
  | n + 1 => ⟨version,
      fun pending s => Parse.expression (ofDepth version n) pending s,
      fun s => Parse.operand (ofDepth version n) s,
      fun s => Parse.typeName (ofDepth version n) s,
      fun s => Parse.elements (ofDepth version n) s⟩

end VisualBasic
