import VisualBasic.Parse.Variable

/-!
Statements that hold no other statements, and the lines that end a block or start its next part.
-/

set_option autoImplicit false

namespace VisualBasic.Parse

-- Labels and jumps

/-- A line number labels the statement behind it.  It should stand at the start of a line. -/
def lineNumber : Parse Statement := do
  let token ← peek
  unless (← get).atLineStart do report .labelNotAtLineStart token.span
  return .label (← label) token.span

def goToStatement : Parse Statement := do
  let start := (← read).span.start
  let target ← label
  return .goTo target (← endStatement start)

/-- The block that a word names, reported if it names none. -/
def namedBlock (ofKind? : TokenKind → Option BlockKind) (problem : Problem) :
    Parse (Option BlockKind) := do
  match ofKind? (← peekKind) with
  | some block =>
    skip
    return some block
  | none =>
    reportUnexpected problem
    return none

def exitStatement : Parse Statement := do
  let start := (← read).span.start
  let block ← namedBlock BlockKind.ofExitKind? .expectedExitKind
  return .exitBlock block (← endStatement start)

def continueStatement : Parse Statement := do
  let start := (← read).span.start
  let block ← namedBlock BlockKind.ofContinueKind? .expectedContinueKind
  return .continueBlock block (← endStatement start)

def stopStatement : Parse Statement := do
  let start := (← read).span.start
  return .stop (← endStatement start)

/-- The statement `End` alone, which ends the program. -/
def endProgram : Parse Statement := do
  let span := (← read).span
  unless ← atStatementEnd do
    reportUnexpected .expectedEndKind
    resync []
  return .endProgram span

/-- A keyword with an operand that can be left out. -/
def optionalOperand (r : Rules) (build : Option Expression → Span → Statement) :
    Parse Statement := do
  let start := (← read).span.start
  let operand ← optionally (!(← atStatementEnd)) r.value
  return build operand (← endStatement start)

def raiseError (r : Rules) : Parse Statement := do
  let start := (← read).span.start
  let operand ← r.value
  return .raiseError (some operand) (← endStatement start)

def obsoleteJump : Parse Statement := do
  let token ← peek
  report .obsoleteGosub token.span
  skip
  skipStatement
  return .bad (← spanFrom token.span.start)

-- Errors

/-- Where an error handler leads, behind `GoTo`. -/
def handlerTarget : Parse OnErrorAction := do
  let s ← get
  if integerOf? s.current = some 0 then
    skip
    return .goToZero
  else if s.kind = .mark .minus ∧ s.following.head?.bind integerOf? = some 1 then
    skip
    skip
    return .goToMinusOne
  else return .goToLabel (← label)

def onErrorAction : Parse OnErrorAction := do
  match ← peekKind with
  | .word .kwGoTo =>
    skip
    handlerTarget
  | .word .kwResume =>
    skip
    match ← expect (.word .kwNext) .expectedResumeOrGoTo with
    | some _ => return .resumeNext
    | none => return .bad
  | _ =>
    reportUnexpected .expectedResumeOrGoTo
    return .bad

def onErrorStatement : Parse Statement := do
  let start := (← read).span.start
  match ← expect (.word .kwError) .expectedError with
  | none =>
    resync []
    return .onError .bad (← spanFrom start)
  | some _ =>
    let action ← onErrorAction
    return .onError action (← endStatement start)

def resumeTarget : Parse ResumeTarget := do
  match ← eat (.word .kwNext) with
  | some _ => return .next
  | none => if ← atStatementEnd then return .plain else return .label (← label)

def resumeStatement : Parse Statement := do
  let start := (← read).span.start
  let target ← resumeTarget
  return .resume target (← endStatement start)

-- Assignments and calls

/-- The target of an assignment or call can start with the current token. -/
def startsOperand (s : ParseState) : Bool :=
  match s.kind with
  | .identifier | .word .kwMe | .word .kwMyBase | .word .kwMyClass | .word .kwGlobal
  | .mark .period | .mark .exclamation | .word .kwCType | .word .kwDirectCast | .word .kwTryCast
  | .word .kwGetType => true
  | k =>
    (IntrinsicType.ofCastKind? k).isSome
      || (IntrinsicType.ofKind? k).isSome && s.kindAfter == .mark .period

/-- The argument that a parenthesized group is when more arguments follow it, and what it was taken
for an argument of: `F (1), 2` passes two arguments to `F`. -/
def regroup? : Expression → Option (Expression × Argument Expression)
  | .callOrIndex target ⟨_, ⟨[⟨none, _, some value, _⟩], _, _⟩, closeParen, span⟩ _ =>
    some (target, ⟨none, none, some (.parenthesized value closeParen span), span⟩)
  | _ => none

/-- The target of a call statement with the arguments behind it. -/
def callArguments (r : Rules) (target : Expression) : Parse (Expression × Option Arguments) := do
  match regroup? target, ← check (.mark .comma) with
  | some (callee, first), true => return (callee, some (← bareArgumentsFrom r first))
  | _, _ => return (target, some (← bareArguments r))

/-- An assignment, a compound assignment or a call. -/
def assignmentOrCall (r : Rules) : Parse Statement := do
  let target ← operand r
  let start := target.span.start
  let token ← peek
  if token.kind = .mark .equals then
    skip
    let source ← r.value
    return .assignment ⟨none, target, token.span.start, source, ← endStatement start⟩
  else
    match CompoundOperator.ofKind? token.kind with
    | some op =>
      skip
      let source ← r.value
      return .compoundAssignment ⟨target, op, token.span, source, ← endStatement start⟩
    | none =>
      let (target, arguments) ←
        if (← atStatementEnd) || target.isBad then pure (target, none)
        else callArguments r target
      return .call ⟨none, target, arguments, ← endStatement start⟩

def callStatement (r : Rules) : Parse Statement := do
  let start := (← read).span.start
  let target ← operand r
  return .call ⟨some start, target, none, ← endStatement start⟩

/-- An assignment that begins with a keyword. -/
def keywordAssignment (r : Rules) : Parse Statement := do
  let keyword := (← read).span
  let target ← operand r
  let equals ← match ← expectPlace (.mark .equals) .expectedEquals with
    | some place => pure place
    | none => placeholder
  let source ← r.value
  return .assignment ⟨some keyword, target, equals, source, ← endStatement keyword.start⟩

def midAssignment (r : Rules) : Parse Statement := do
  let mid ← read
  skip
  let target ← r.value
  let _ ← expect (.mark .comma) .expectedComma
  let start ← r.value
  let length ← whenEaten (.mark .comma) r.value
  let _ ← closeParenthesis
  let _ ← expect (.mark .equals) .expectedEquals
  let source ← r.value
  let span ← endStatement mid.span.start
  return .midAssignment
    ⟨mid.typeCharacter == some .stringSymbol, target, start, length, source, span⟩

-- Other statements of one line

def localDeclaration (r : Rules) : Parse Statement := do
  let start ← here
  let modifiers ← modifiers
  checkModifiers modifiers Modifier.locals
  let declarators ← variableDeclarators r true
  return .localDeclaration ⟨modifiers, declarators, ← endStatement start⟩

def raiseEvent (r : Rules) : Parse Statement := do
  let start := (← read).span.start
  let name ← identifier
  let arguments ← optionally (!name.isMissing && (← check (.mark .leftParenthesis)))
    (argumentList r)
  return .raiseEvent name arguments (← endStatement start)

def handlerStatement (r : Rules) (adds : Bool) : Parse Statement := do
  let start := (← read).span.start
  let event ← r.value
  let comma ← expectPlace (.mark .comma) .expectedComma
  let handler ← r.value
  return .handler ⟨adds, event, comma, handler, ← endStatement start⟩

def values (r : Rules) : Parse (CommaList Expression) := commaList Expression.span r.value

def reDimStatement (r : Rules) : Parse Statement := do
  let start := (← read).span.start
  let preserve := (← eatContextual .kwPreserve).map Token.span
  let arrays ← values r
  return .reDim preserve arrays (← endStatement start)

def eraseStatement (r : Rules) : Parse Statement := do
  let start := (← read).span.start
  let arrays ← values r
  return .erase arrays (← endStatement start)

-- The ends and parts of blocks

/-- The end of a block: `End` and the word for the block, or a single word. -/
def endBlock (kind : BlockKind) : Parse EndBlock := do
  let first ← read
  unless first.kind = .word .kwWend do skip
  return ⟨kind, ← endStatement first.span.start⟩

/-- A word alone on its statement. -/
def wordLine : Parse Span := do
  let start := (← read).span.start
  endStatement start

/-- Reports what stands in the way of the statement's end where `Then` should be. -/
def expectThen (thenKeyword : Option Location) : Parse Unit := do
  if thenKeyword.isNone && !(← atStatementEnd) then
    reportUnexpected .expectedThen
    resync []

def elseIfLine (r : Rules) : Parse ElseIfStatement := do
  let first ← read
  if first.kind = .word .kwElse then skip
  let condition ← r.value
  let thenKeyword ← eatPlace (.word .kwThen)
  expectThen thenKeyword
  return ⟨condition, thenKeyword, ← endStatement first.span.start⟩

/-- The condition of a loop, if there is one. -/
def loopCondition (r : Rules) : Parse (Option LoopCondition) := do
  let token ← peek
  let isWhile := token.kind == .word .kwWhile
  if isWhile || token.isContextual .kwUntil then
    skip
    let condition ← r.value
    return some ⟨isWhile, token.span, condition, ← spanFrom token.span.start⟩
  else
    unless ← atStatementEnd do
      reportUnexpected .expectedWhileOrUntil
      resync []
    return none

def loopLine (r : Rules) : Parse LoopStatement := do
  let start := (← read).span.start
  let condition ← loopCondition r
  return ⟨condition, ← endStatement start⟩

def nextLine (r : Rules) : Parse NextStatement := do
  let start := (← read).span.start
  let loopVariables ← if ← atStatementEnd then do pure (.empty (← here)) else values r
  return ⟨loopVariables, ← endStatement start⟩

def catchLine (r : Rules) : Parse CatchStatement := do
  let start := (← read).span.start
  let name ← optionally (← check .identifier) identifier
  let type ← if name.isSome then whenEaten (.word .kwAs) (elementType r) else pure none
  let filter ← whenEaten (.word .kwWhen) r.value
  return ⟨name, type, filter, ← endStatement start⟩

/-- A value, a range of values, or a comparison with a value. -/
def caseClause (r : Rules) : Parse CaseClause := do
  let start ← here
  let isKeyword ← eatPlace (.word .kwIs)
  match (BinaryOperator.ofKind? (← peekKind)).filter BinaryOperator.isComparison, isKeyword with
  | some op, _ =>
    skip
    let operand ← r.value
    return .relational isKeyword op operand (← spanFrom start)
  | none, some _ =>
    reportUnexpected .expectedRelationalOperator
    let operand := .bad (.point (← placeholder))
    return .relational isKeyword .equals operand (← spanFrom start)
  | none, none =>
    let lower ← r.value
    match ← eatPlace (.word .kwTo) with
    | some toKeyword =>
      let upper ← r.value
      return .range lower toKeyword upper (← spanFrom start)
    | none => return .value lower

def caseLine (r : Rules) : Parse CaseStatement := do
  let start := (← read).span.start
  let clauses ← commaList CaseClause.span (caseClause r)
  return ⟨clauses, ← endStatement start⟩

def caseElseLine : Parse Span := do
  let start := (← read).span.start
  skip
  endStatement start

/-- A terminator that no open block accepts.  It is reported and kept as a statement. -/
def strayTerminator (r : Rules) (t : Terminator) : Parse Statement := do
  report (.stray t) (← peek).span
  match t with
  | .endOf kind => return .endBlock (← endBlock kind)
  | .loop => return .loop (← loopLine r)
  | .next => return .next (← nextLine r)
  | .elseIf => return .elseIf (← elseIfLine r)
  | .elsePart => return .elsePart (← wordLine)
  | .case => return .case (← caseLine r)
  | .caseElse => return .caseElse (← caseElseLine)
  | .catchPart => return .catchPart (← catchLine r)
  | .finallyPart => return .finallyPart (← wordLine)

end VisualBasic.Parse
