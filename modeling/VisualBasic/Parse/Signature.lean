import VisualBasic.Parse.Variable

/-!
The parts of a member's first line: attributes, parameters, the type of its result, and the events
and members that it stands for.
-/

set_option autoImplicit false

namespace VisualBasic.Parse

def attributeTarget? (s : ParseState) : Option AttributeTarget :=
  if s.kindAfter != .mark .colon then none
  else if s.current.isContextual .kwAssembly then some .assembly
  else if s.kind == .word .kwModule then some .module
  else none

def appliedAttribute (r : Rules) : Parse Attribute := do
  let start ← here
  let target := attributeTarget? (← get)
  if target.isSome then
    skip
    skip
  let name ← name
  let arguments ← optionally (!name.isIncomplete && (← check (.mark .leftParenthesis)))
    (argumentList r)
  return ⟨target, name, arguments, ← spanFrom start⟩

/-- Attributes in angle brackets.  When the closing one is missing, the statement is searched for
it. -/
def attributeBlock (r : Rules) : Parse AttributeBlock := do
  let openAngle := (← read).span.start
  let attributes ← commaList Attribute.span (appliedAttribute r)
  let closeAngle ← expectPlace (.mark .greaterThan) .expectedGreaterThan
  if closeAngle.isNone then
    resync [.mark .greaterThan]
    let _ ← eat (.mark .greaterThan)
  return ⟨openAngle, attributes, closeAngle, ← spanFrom openAngle⟩

def attributeBlocksWithin (r : Rules) : Nat → Parse (List AttributeBlock)
  | 0 => return []
  | n + 1 => do
    if ← check (.mark .lessThan) then
      let block ← attributeBlock r
      return block :: (← attributeBlocksWithin r n)
    else return []

def attributeBlocks (r : Rules) : Parse (List AttributeBlock) := do
  attributeBlocksWithin r (← get).remaining

/-- Reads the modifiers of a parameter, given those that have been read. -/
def parameterModifiersAfter :
    Nat → List (Placed ParameterModifier) → Parse (List (Placed ParameterModifier))
  | 0, found => return found
  | n + 1, found => do
    let token ← peek
    match ParameterModifier.ofKind? token.kind with
    | none => return found
    | some modifier =>
      skip
      let has (m : ParameterModifier) := m == modifier || found.any fun f => f.value == m
      if found.any fun f => f.value == modifier then
        report .duplicateParameterSpecifier token.span
      else if ParameterModifier.conflicts.any fun (a, b) => has a && has b then
        report .conflictingParameterSpecifiers token.span
      parameterModifiersAfter n (found ++ [⟨modifier, token.span⟩])

def parameter (r : Rules) : Parse Parameter := do
  let start ← here
  let attributes ← attributeBlocks r
  let modifiers ← parameterModifiersAfter (← get).remaining []
  let name ← variableName r false
  let type ← whenEaten (.word .kwAs) r.typeName
  let value ← whenEaten (.mark .equals) r.value
  if value.isNone && modifiers.any fun m => m.value == .optional then
    reportUnexpected .expectedOptionalDefault
  return ⟨attributes, modifiers, name, type, value, ← spanFrom start⟩

/-- Reports a parameter that takes all further arguments and is not the last. -/
def checkParameters (parameters : List Parameter) : Parse Unit := do
  match parameters.dropLast.find? fun p => p.has .paramArray with
  | some early => report .paramArrayMustBeLast early.span
  | none => return

def parameterList (r : Rules) : Parse (Option ParameterList) := do
  match ← eatPlace (.mark .leftParenthesis) with
  | none => return none
  | some openParen =>
    let parameters ←
      if ← check (.mark .rightParenthesis) then do pure (.empty (← here))
      else commaList Parameter.span (parameter r)
    checkParameters parameters.items
    let closeParen ← closeParenthesis
    if closeParen.isNone then
      resync [.mark .rightParenthesis]
      let _ ← eat (.mark .rightParenthesis)
    return some ⟨openParen, parameters, closeParen, ← spanFrom openParen⟩

def returnType (r : Rules) : Parse (Option ReturnType) := do
  match ← eatPlace (.word .kwAs) with
  | none => return none
  | some asKeyword =>
    let attributes ← attributeBlocks r
    let type ← r.typeName
    return some ⟨asKeyword, attributes, type, ← spanFrom asKeyword⟩

/-- An event that a method handles.  Early versions do not allow the object itself as its source. -/
def handlesItem (r : Rules) : Parse HandlesItem := do
  let token ← peek
  let source ← match InstanceKind.ofKind? token.kind with
    | some kind => do
      if kind = .me && !r.version.supportsV8 then report .meNotValidInHandles token.span
      skip
      pure (.special kind token.span)
    | none => do pure (.simple (← identifier))
  let dot ← expectPlace (.mark .period) .expectedPeriod
  let event ← if dot.isSome then memberName else do pure (.missing (← placeholder))
  return ⟨source, dot, event, ← spanFrom token.span.start⟩

def handlesClause (r : Rules) : Parse (Option HandlesClause) := do
  match ← eatPlace (.word .kwHandles) with
  | none => return none
  | some keyword =>
    let events ← commaList HandlesItem.span (handlesItem r)
    return some ⟨keyword, events, ← spanFrom keyword⟩

def implementsClause : Parse (Option ImplementsClause) := do
  match ← eatPlace (.word .kwImplements) with
  | none => return none
  | some keyword =>
    let members ← commaList Name.span name
    return some ⟨keyword, members, ← spanFrom keyword⟩

end VisualBasic.Parse
