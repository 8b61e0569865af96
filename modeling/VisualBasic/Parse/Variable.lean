import VisualBasic.Parse.Expression

/-!
Declared variables and the modifiers before them.
-/

set_option autoImplicit false

namespace VisualBasic.Parse

/-- Reads modifiers, given those that have been read.  One that is repeated is reported and kept. -/
def modifiersAfter : Nat → List (Placed Modifier) → Parse (List (Placed Modifier))
  | 0, found => return found
  | n + 1, found => do
    let token ← peek
    match Modifier.ofKind? token.kind with
    | none => return found
    | some modifier =>
      skip
      if found.any fun m => m.value == modifier then report .duplicateModifier token.span
      modifiersAfter n (found ++ [⟨modifier, token.span⟩])

/-- From the first word to the last, or an empty span when there is none. -/
def hullOf {α : Type} (words : List (Placed α)) (place : Location) : Span :=
  match words.head?, words.getLast? with
  | some first, some last => first.span.merge last.span
  | _, _ => .point place

def modifiers : Parse ModifierList := do
  let start ← here
  let found ← modifiersAfter (← get).remaining []
  return ⟨found, hullOf found start⟩

/-- Reports the first modifier that is not allowed. -/
def checkModifiers (list : ModifierList) (allowed : List Modifier) : Parse Unit := do
  match list.modifiers.find? fun m => !allowed.contains m.value with
  | some invalid => report .invalidModifier invalid.span
  | none => return

/-- A declared name with the bounds or the dimensions of an array. -/
def variableName (r : Rules) (allowBounds : Bool) : Parse VariableName := do
  let name ← identifier
  let array ← optionally (!name.isMissing && (← check (.mark .leftParenthesis)))
    (arrayBounds r allowBounds)
  return ⟨name, array, ← spanFrom name.span.start⟩

/-- The arguments of a type's constructor. -/
def constructorArguments (r : Rules) (type : TypeName) : Parse (Option Arguments) := do
  optionally (!type.isBad && (← check (.mark .leftParenthesis))) (argumentList r)

/-- The type of a variable, perhaps with an object that is created for it. -/
def asClause (r : Rules) (allowNew : Bool) : Parse (Option AsClause) := do
  match ← eatPlace (.word .kwAs) with
  | none => return none
  | some asKeyword =>
    let newKeyword ← if allowNew then eatPlace (.word .kwNew) else pure none
    if newKeyword.isSome then
      let type ← elementType r
      let arguments ← constructorArguments r type
      return some ⟨asKeyword, newKeyword, type, arguments, ← spanFrom asKeyword⟩
    else
      let type ← r.typeName
      return some ⟨asKeyword, none, type, none, ← spanFrom asKeyword⟩

/-- The names of one declarator; a name that is missing is the last. -/
def variableNames (r : Rules) (allowBounds : Bool) : Parse (CommaList VariableName) := do
  let item (_ : Unit) : Parse (VariableName × Option Unit) := do
    let found ← variableName r allowBounds
    return (found, if found.name.isMissing then none else some ())
  return (← separatedFrom item (← get).remaining ()).toHullList VariableName.span

/-- Names that share the type and the value behind them. -/
def variableDeclarator (r : Rules) (allowBounds : Bool) : Parse VariableDeclarator := do
  let start ← here
  let names ← variableNames r allowBounds
  let type ← asClause r true
  let equals ← eatPlace (.mark .equals)
  let value ← optionally equals.isSome (initializer r)
  return ⟨names, type, equals, value, ← spanFrom start⟩

def variableDeclarators (r : Rules) (allowBounds : Bool) : Parse (CommaList VariableDeclarator) :=
  commaList VariableDeclarator.span (variableDeclarator r allowBounds)

/-- The variable that a loop declares. -/
def loopDeclarator (r : Rules) : Parse VariableDeclarator := do
  let name ← variableName r false
  let type ← asClause r false
  return ⟨.single name name.span, type, none, none, ← spanFrom name.span.start⟩

end VisualBasic.Parse
