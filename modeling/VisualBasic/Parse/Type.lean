import VisualBasic.Parse.Lookahead
import VisualBasic.Parse.Name
import VisualBasic.Parse.Rules
import VisualBasic.Parse.Sequence

/-!
Type names, type arguments and parameters, and the bounds of arrays.
-/

set_option autoImplicit false

namespace VisualBasic.Parse

def badType (problem : Problem) : Parse TypeName := do
  reportUnexpected problem
  return .bad (.point (← placeholder))

/-- Items in parentheses behind `Of`: where the parenthesis and the word stand, the items and where
the closing parenthesis stands. -/
def genericList {α : Type} (span : α → Span) (item : Parse α) :
    Parse (Location × Location × CommaList α × Option Location) := do
  let openParen := (← read).span.start
  let ofKeyword := (← read).span.start
  let items ← separated item
  let listSpan := (span items.first).upTo (← spanFrom openParen)
  return (openParen, ofKeyword, items.toCommaList listSpan, ← closeParenthesis)

def typeArguments (r : Rules) : Parse TypeArguments := do
  let (openParen, ofKeyword, arguments, closeParen) ← genericList TypeName.span r.typeName
  return ⟨openParen, ofKeyword, arguments, closeParen, ← spanFrom openParen⟩

/-- A type name without array suffixes. -/
def elementType (r : Rules) : Parse TypeName := do
  let token ← peek
  match IntrinsicType.ofKind? token.kind with
  | some type =>
    skip
    return .intrinsic type token.span
  | none =>
    if token.kind = .identifier ∨ token.kind = .word .kwGlobal then
      let name ← name
      if (← get).atTypeArguments then
        let arguments ← typeArguments r
        return .constructed name arguments (← spanFrom token.span.start)
      else return .named name name.span
    else badType .expectedType

/-- The extent of one dimension. -/
def arrayBound (r : Rules) : Parse (ArrayBound Expression) := do
  let first ← r.value
  match ← eatPlace (.word .kwTo) with
  | some toKeyword =>
    let upper ← r.value
    return ⟨some first, some toKeyword, upper, ← spanFrom first.span.start⟩
  | none => return ⟨none, none, first, first.span⟩

/-- A dimension, which may be empty. -/
def dimension (r : Rules) : Parse (Option (ArrayBound Expression)) := do
  let s ← get
  optionally (!(s.kind == .mark .comma || s.kind == .mark .rightParenthesis || s.atStatementEnd))
    (arrayBound r)

/-- Bounds or a number of dimensions in parentheses.  Either all dimensions have bounds or none, and
bounds are reported where none are allowed. -/
def arrayBounds (r : Rules) (allowBounds : Bool) : Parse (ArrayBounds Expression) := do
  let openParen := (← read).span.start
  let dimensions ← separated (dimension r)
  let rank := dimensions.items.length
  let bounds := dimensions.items.filterMap id
  let list ← match bounds.head?, bounds.getLast? with
    | some first, some last => do
      if bounds.length ≠ rank then
        let place ← placeholder
        report .expectedExpression (.point place)
      let span := first.span.merge last.span
      unless allowBounds do report .arrayBoundsNotAllowed span
      pure ⟨bounds, dimensions.separators.take (bounds.length - 1), span⟩
    | _, _ => pure (CommaList.empty openParen)
  let closeParen ← closeParenthesis
  return ⟨openParen, rank, list, closeParen, ← spanFrom openParen⟩

/-- The array type over an element type, for bounds that have been read. -/
def arrayOver (element : TypeName) (bounds : ArrayBounds Expression) (span : Span) : TypeName :=
  .array element bounds.rank (if bounds.isRankOnly then none else some bounds) span

def arraySuffixes (r : Rules) : Nat → TypeName → Parse TypeName
  | 0, element => return element
  | n + 1, element => do
    let s ← get
    if s.kind == .mark .leftParenthesis && !s.atTypeArguments then
      let bounds ← arrayBounds r false
      arraySuffixes r n (arrayOver element bounds (← spanFrom element.span.start))
    else return element

def typeName (r : Rules) : Parse TypeName := do
  let element ← elementType r
  if element.isBad then return element
  else arraySuffixes r (← get).remaining element

def constraint (r : Rules) : Parse Constraint := do
  let token ← peek
  match token.kind with
  | .word .kwClass =>
    skip
    return .isClass token.span
  | .word .kwStructure =>
    skip
    return .isStructure token.span
  | .word .kwNew =>
    skip
    return .hasNew token.span
  | .identifier | .word .kwGlobal => return .type (← elementType r)
  | kind =>
    if (IntrinsicType.ofKind? kind).isSome then return .type (← elementType r)
    else return .type (← badType .expectedConstraint)

/-- One constraint, or several in braces, behind `As`. -/
def constraints (r : Rules) (asKeyword : Location) : Parse ConstraintList := do
  match ← eatPlace (.mark .leftCurlyBrace) with
  | none =>
    let only ← constraint r
    return ⟨asKeyword, none, .single only only.span, none, ← spanFrom asKeyword⟩
  | some openBrace =>
    let items ← separated (constraint r)
    let listSpan := items.first.span.upTo (← spanFrom openBrace)
    let closeBrace ← expectPlace (.mark .rightCurlyBrace) .expectedRightCurlyBrace
    return ⟨asKeyword, some openBrace, items.toCommaList listSpan, closeBrace, ← spanFrom asKeyword⟩

def typeParameter (r : Rules) : Parse TypeParameter := do
  let name ← identifier
  let constraints ← match ← eatPlace (.word .kwAs) with
    | some asKeyword => some <$> constraints r asKeyword
    | none => pure none
  return ⟨name, constraints, ← spanFrom name.span.start⟩

def typeParameters (r : Rules) : Parse (Option TypeParameterList) := do
  if (← get).atTypeArguments then
    let (openParen, ofKeyword, parameters, closeParen) ←
      genericList TypeParameter.span (typeParameter r)
    return some ⟨openParen, ofKeyword, parameters, closeParen, ← spanFrom openParen⟩
  else return none

end VisualBasic.Parse
