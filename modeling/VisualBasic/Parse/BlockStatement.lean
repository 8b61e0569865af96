import VisualBasic.Parse.Bodies

/-!
Statements that hold other statements.
-/

set_option autoImplicit false

namespace VisualBasic.Parse

-- Conditions

/-- The further parts of an `If` block, from the terminator that ended the part before. -/
def ifParts (r : Rules) (b : Bodies) :
    Nat → Bool → Option Terminator → Parse (List (IfPart Statement) × Option EndBlock)
  | n + 1, seenElse, some .elseIf => do
    beginConstruct
    if seenElse then report .elseIfAfterElse (← peek).span
    let header ← elseIfLine r
    let (body, terminator) ← b.statements
    let (parts, ending) ← ifParts r b n seenElse terminator
    return (.elseIf header body (header.span.merge body.span) :: parts, ending)
  | n + 1, seenElse, some .elsePart => do
    beginConstruct
    if seenElse then report .elseAfterElse (← peek).span
    let header ← wordLine
    let (body, terminator) ← b.statements
    let (parts, ending) ← ifParts r b n true terminator
    return (.elsePart header body (header.merge body.span) :: parts, ending)
  | _, _, terminator => do return ([], ← takeEnd .ifBlock terminator)

/-- An `If` block, from the end of its condition. -/
def ifBlock (r : Rules) (b : Bodies) (start : Location) (condition : Expression)
    (thenKeyword : Option Location) : Parse Statement := do
  expectThen thenKeyword
  let header ← endStatement start
  let (body, parts, ending) ← within ⟨.ifBlock, header, true⟩ do
    let (body, terminator) ← b.statements
    let (parts, ending) ← ifParts r b (← get).remaining false terminator
    return (body, parts, ending)
  return .ifBlock ⟨condition, thenKeyword, body, parts, ending, ← spanFrom start⟩

def lineEndIf : Parse (Option EndBlock) := do
  if (← check (.word .kwEnd)) && (← kindAfter) == .word .kwIf then
    let start := (← read).span.start
    skip
    return some ⟨.ifBlock, ← spanFrom start⟩
  else return none

/-- Runs a parser within a single-line `If`. -/
def withinLineIf {α : Type} (parser : Parse α) : Parse α := do
  modify fun s => { s with lineIfDepth := s.lineIfDepth + 1 }
  let result ← parser
  modify fun s => { s with lineIfDepth := s.lineIfDepth - 1 }
  return result

/-- An `If` on a single line, from the word `Then`. -/
def lineIf (b : Bodies) (start : Location) (condition : Expression) (thenKeyword : Location) :
    Parse Statement := do
  let (statements, elseKeyword, elseStatements) ← withinLineIf do
    let statements ← b.line
    match ← eatPlace (.word .kwElse) with
    | some place => return (statements, some place, some (← b.line))
    | none => return (statements, none, none)
  let ending ← lineEndIf
  return .lineIf
    ⟨condition, thenKeyword, statements, elseKeyword, elseStatements, ending, ← spanFrom start⟩

/-- An `If` block, or a single-line `If` when anything follows `Then` on its line. -/
def ifStatement (r : Rules) (b : Bodies) : Parse Statement := do
  let start := (← read).span.start
  let condition ← r.value
  let thenKeyword ← eatPlace (.word .kwThen)
  match thenKeyword, (← peekKind).endsLine with
  | some place, false => lineIf b start condition place
  | _, _ => ifBlock r b start condition thenKeyword

-- Loops

/-- The end of a `Do` block.  Its condition is reported when the block began with one. -/
def takeLoop (r : Rules) (hasCondition : Bool) (terminator : Option Terminator) :
    Parse (Option LoopStatement) := do
  if terminator = some .loop then
    beginConstruct
    let ending ← loopLine r
    match ending.condition, hasCondition with
    | some repeated, true => report .loopConditionAlreadySpecified repeated.span
    | _, _ => pure ()
    return some ending
  else return none

def doBlock (r : Rules) (b : Bodies) : Parse Statement := do
  let start := (← read).span.start
  let condition ← loopCondition r
  let header ← endStatement start
  let (body, terminator) ← statementBody b .doBlock header
  let ending ← takeLoop r condition.isSome terminator
  return .doBlock ⟨condition, body, ending, ← spanFrom start⟩

/-- The `Next` that closes a loop: the one that is left over from the loops within, or the one that
stands here.  Its variables close one loop each. -/
def next (r : Rules) : Parse (NextStatement × Option Expression) := do
  let (statement, index) ← match (← get).pendingNext with
    | some pending => pure (pending.statement, pending.index)
    | none => do
      beginConstruct
      pure (← nextLine r, 0)
  let isLast := statement.loopVariables.items.length ≤ index + 1
  modify fun s =>
    { s with pendingNext := if isLast then none else some ⟨statement, index + 1⟩ }
  return (statement, statement.loopVariables.items[index]?)

/-- The body of a loop with the `Next` that closes it and the variable that it names. -/
def forBody (r : Rules) (b : Bodies) (header : Span) :
    Parse (Statements × Option NextStatement × Option Expression) :=
  within ⟨.forBlock, header, true⟩ do
    let (body, terminator) ← b.statements
    if terminator = some .next then
      let (statement, closed) ← next r
      return (body, some statement, closed)
    else return (body, none, none)

/-- The loop declares its variable: an identifier with a type behind it. -/
def declaresVariable (s : ParseState) : Bool :=
  s.kind == .identifier
    && match s.kindAfter with
      | .word .kwAs => true
      | .mark .leftParenthesis =>
        Lookahead.firstOutside [.word .kwAs, .word .kwIn, .mark .equals] 0 s.ahead
          == some (.word .kwAs)
      | _ => false

def forControl (r : Rules) : Parse ForControl := do
  if declaresVariable (← get) then return .declarator (← loopDeclarator r)
  else return .expression (← expression r .relational)

def forEachBlock (r : Rules) (b : Bodies) (start : Location) : Parse Statement := do
  let control ← forControl r
  let inKeyword ← expectPlace (.word .kwIn) .expectedIn
  let collection ← r.value
  let header ← endStatement start
  let (body, ending, endingVariable) ← forBody r b header
  return .forEachBlock
    ⟨control, inKeyword, collection, body, ending, endingVariable, ← spanFrom start⟩

def forBlock (r : Rules) (b : Bodies) (start : Location) : Parse Statement := do
  let control ← forControl r
  let equals ← expectPlace (.mark .equals) .expectedEquals
  let lower ← r.value
  let toKeyword ← expectPlace (.word .kwTo) .expectedTo
  let upper ← r.value
  let step ← whenEaten (.word .kwStep) r.value
  let header ← endStatement start
  let (body, ending, endingVariable) ← forBody r b header
  return .forBlock ⟨control, equals, lower, toKeyword, upper, step, body, ending, endingVariable,
    ← spanFrom start⟩

def forStatement (r : Rules) (b : Bodies) : Parse Statement := do
  let start := (← read).span.start
  match ← eat (.word .kwEach) with
  | some _ => forEachBlock r b start
  | none => forBlock r b start

def whileBlock (r : Rules) (b : Bodies) : Parse Statement := do
  let start := (← read).span.start
  let condition ← r.value
  let header ← endStatement start
  let (body, terminator) ← statementBody b .whileBlock header
  let ending ← takeEnd .whileBlock terminator
  return .whileBlock ⟨condition, body, ending, ← spanFrom start⟩

-- Objects

def objectBlock (r : Rules) (b : Bodies) (kind : ObjectBlockKind) : Parse Statement := do
  let start := (← read).span.start
  let object ← r.value
  let header ← endStatement start
  let (body, terminator) ← statementBody b kind.block header
  let ending ← takeEnd kind.block terminator
  return .objectBlock ⟨kind, object, body, ending, ← spanFrom start⟩

def usingResource (r : Rules) : Parse UsingResource := do
  if (← check .identifier) && (← kindAfter) == .word .kwAs then
    return .declarators (← variableDeclarators r false)
  else return .expression (← r.value)

def usingBlock (r : Rules) (b : Bodies) : Parse Statement := do
  let start := (← read).span.start
  let resource ← usingResource r
  let header ← endStatement start
  let (body, terminator) ← statementBody b .usingBlock header
  let ending ← takeEnd .usingBlock terminator
  return .usingBlock ⟨resource, body, ending, ← spanFrom start⟩

-- Exceptions

/-- The further parts of a `Try` block, from the terminator that ended the part before. -/
def tryParts (r : Rules) (b : Bodies) :
    Nat → Bool → Option Terminator → Parse (List (TryPart Statement) × Option EndBlock)
  | n + 1, seenFinally, some .catchPart => do
    beginConstruct
    if seenFinally then report .catchAfterFinally (← peek).span
    let header ← catchLine r
    let (body, terminator) ← b.statements
    let (parts, ending) ← tryParts r b n seenFinally terminator
    return (.catchPart header body (header.span.merge body.span) :: parts, ending)
  | n + 1, seenFinally, some .finallyPart => do
    beginConstruct
    if seenFinally then report .finallyAfterFinally (← peek).span
    let header ← wordLine
    let (body, terminator) ← b.statements
    let (parts, ending) ← tryParts r b n true terminator
    return (.finallyPart header body (header.merge body.span) :: parts, ending)
  | _, _, terminator => do return ([], ← takeEnd .tryBlock terminator)

def tryBlock (r : Rules) (b : Bodies) : Parse Statement := do
  let start := (← read).span.start
  let header ← endStatement start
  let (body, parts, ending) ← within ⟨.tryBlock, header, true⟩ do
    let (body, terminator) ← b.statements
    let (parts, ending) ← tryParts r b (← get).remaining false terminator
    return (body, parts, ending)
  return .tryBlock ⟨body, parts, ending, ← spanFrom start⟩

-- Selections

/-- The cases of a `Select` block, from the terminator that ended the part before. -/
def caseBlocks (r : Rules) (b : Bodies) :
    Nat → Bool → Option Terminator → Parse (List (CaseBlock Statement) × Option EndBlock)
  | n + 1, seenElse, some .case => do
    beginConstruct
    if seenElse then report .caseAfterCaseElse (← peek).span
    let header ← caseLine r
    let (body, terminator) ← b.statements
    let (blocks, ending) ← caseBlocks r b n seenElse terminator
    return (⟨.case header, body, header.span.merge body.span⟩ :: blocks, ending)
  | n + 1, seenElse, some .caseElse => do
    beginConstruct
    if seenElse then report .caseElseAfterCaseElse (← peek).span
    let header ← caseElseLine
    let (body, terminator) ← b.statements
    let (blocks, ending) ← caseBlocks r b n true terminator
    return (⟨.caseElse header, body, header.merge body.span⟩ :: blocks, ending)
  | _, _, terminator => do return ([], ← takeEnd .selectBlock terminator)

def selectBlock (r : Rules) (b : Bodies) : Parse Statement := do
  let start := (← read).span.start
  let caseKeyword ← eatPlace (.word .kwCase)
  let subject ← r.value
  let header ← endStatement start
  let (leading, blocks, ending) ← within ⟨.selectBlock, header, true⟩ do
    let (leading, terminator) ← b.statements
    unless leading.statements.isEmpty do
      beginConstruct
      report .expectedCase leading.span
    let (blocks, ending) ← caseBlocks r b (← get).remaining false terminator
    return (leading, blocks, ending)
  return .selectBlock ⟨caseKeyword, subject, leading, blocks, ending, ← spanFrom start⟩

end VisualBasic.Parse
