import VisualBasic.Parse.BlockStatement
import VisualBasic.Parse.Declaration

/-!
Lists of statements and declarations.  A list ends at a terminator that the innermost block
accepts.  A terminator for a block around it, a member where statements are expected and the end of
the stream leave the innermost block unclosed, which is reported.  A terminator that nothing
accepts is part of the list.
-/

set_option autoImplicit false

namespace VisualBasic.Parse

-- Single statements

def nameLabel : Parse Statement := do
  let token ← read
  return .label (.name (.ofToken token)) token.span

def badStatement : Parse Statement := do
  let start ← here
  reportUnexpected .expectedStatement
  resync []
  return .bad (← spanFrom start)

def operandStatement (r : Rules) : Parse Statement := do
  if startsOperand (← get) then assignmentOrCall r else badStatement

def keywordStatement (r : Rules) (b : Bodies) : Keyword → Parse Statement
  | .kwDim | .kwConst | .kwStatic => localDeclaration r
  | .kwCall => callStatement r
  | .kwLet | .kwSet => keywordAssignment r
  | .kwGoTo => goToStatement
  | .kwGoSub => obsoleteJump
  | .kwExit => exitStatement
  | .kwContinue => continueStatement
  | .kwStop => stopStatement
  | .kwEnd => endProgram
  | .kwReturn => optionalOperand r .returnValue
  | .kwThrow => optionalOperand r .throwException
  | .kwError => raiseError r
  | .kwRaiseEvent => raiseEvent r
  | .kwAddHandler => handlerStatement r true
  | .kwRemoveHandler => handlerStatement r false
  | .kwOn => onErrorStatement
  | .kwResume => resumeStatement
  | .kwReDim => reDimStatement r
  | .kwErase => eraseStatement r
  | .kwIf => ifStatement r b
  | .kwDo => doBlock r b
  | .kwFor => forStatement r b
  | .kwWhile => whileBlock r b
  | .kwWith => objectBlock r b .withObject
  | .kwSyncLock => objectBlock r b .syncLock
  | .kwUsing => usingBlock r b
  | .kwTry => tryBlock r b
  | .kwSelect => selectBlock r b
  | _ => operandStatement r

/-- A statement that is no terminator and no declaration. -/
def plainStatement (r : Rules) (b : Bodies) : Parse Statement := do
  let s ← get
  match s.kind with
  | .identifier =>
    if s.kindAfter == .mark .colon && s.atLineStart then nameLabel
    else if s.atMidAssignment then midAssignment r
    else assignmentOrCall r
  | .integerLiteral => lineNumber
  | .word keyword => keywordStatement r b keyword
  | _ => operandStatement r

/-- One statement, with all that belongs to its block. -/
def statement (r : Rules) (b : Bodies) : Parse Statement := do
  beginConstruct
  let s ← get
  match s.terminator? with
  | some t => strayTerminator r t
  | none =>
    if b.isScript && !s.inProcedure && s.lineStart != .statement then
      return .declaration (← declaration r b .script)
    else plainStatement r b

-- Lists

/-- Whether a list goes on, and if not which terminator of the innermost block it has come to. -/
inductive ListStep where
  | goOn
  | stop (terminator : Option Terminator)
deriving DecidableEq, Inhabited

/-- Stops a list without a terminator; the innermost block is reported. -/
def stopUnclosed : Parse ListStep := do
  match (← get).blocks.head? with
  | some block => reportUnclosed block
  | none => pure ()
  return .stop none

/-- Stops a list at the end of the stream, and at a terminator that an open block accepts. -/
def stopAtTerminator : Parse ListStep := do
  let s ← get
  if s.kind = .endOfStream then stopUnclosed
  else
    match s.terminator?, s.blocks.head? with
    | some t, some block =>
      if block.kind.accepts t then return .stop (some t)
      else if s.outerAccepts t then stopUnclosed
      else return .goOn
    | _, _ => return .goOn

/-- Reports what is left of a `Next` that names more variables than there are loops. -/
def dropPendingNext (pending : PendingNext) : Parse Unit := do
  modify fun s => { s with pendingNext := none }
  beginConstruct
  report (.stray .next) pending.span

/-- Stops a list within a loop that a `Next` of an inner loop closes too. -/
def stopAtPendingNext : Parse ListStep := do
  let s ← get
  match s.pendingNext, s.blocks.head? with
  | none, _ => return .goOn
  | some pending, some block =>
    if block.kind.accepts .next then return .stop (some .next)
    else if s.outerAccepts .next then stopUnclosed
    else
      dropPendingNext pending
      return .goOn
  | some pending, none =>
    dropPendingNext pending
    return .goOn

/-- Stops the statements of a procedure before the next member of its type. -/
def stopAtMember : Parse ListStep := do
  let s ← get
  if s.inProcedure && (s.atSiblingAccessor || s.lineStart == .member) then stopUnclosed
  else return .goOn

/-- The first of some reasons to stop. -/
def firstStop : List (Parse ListStep) → Parse ListStep
  | [] => return .goOn
  | step :: rest => do
    match ← step with
    | .goOn => firstStop rest
    | stop => return stop

/-- From the first item to the last.  Where there is none, something is missing. -/
def listSpan {α : Type} (span : α → Span) (items : List α) : Parse Span := do
  match items.head?, items.getLast? with
  | some first, some last => return (span first).merge (span last)
  | _, _ => return .point (← placeholder)

/-- A line for the top of a file or type that stands in a procedure. -/
def misplacedHeading : Parse Statement := do
  beginConstruct
  let token ← peek
  report .invalidInsideProcedure token.span
  skipStatement
  return .bad (← spanFrom token.span.start)

def listedStatement (r : Rules) (b : Bodies) : Parse Statement := do
  let s ← get
  if s.inProcedure && s.lineStart == .heading then misplacedHeading
  else moving (statement r b)

def statementsWithin (r : Rules) (b : Bodies) :
    Nat → Parse (List Statement × List Location × Option Terminator)
  | 0 => return ([], [], none)
  | n + 1 => do
    let colons ← separators r
    match ← firstStop [stopAtPendingNext, stopAtTerminator, stopAtMember] with
    | .stop terminator => return ([], colons, terminator)
    | .goOn =>
      let first ← listedStatement r b
      let (rest, moreColons, terminator) ← statementsWithin r b n
      return (first :: rest, colons ++ moreColons, terminator)

/-- The statements up to the end of the innermost block. -/
def statements (r : Rules) (b : Bodies) : Parse (Statements × Option Terminator) := do
  let (found, colons, terminator) ← statementsWithin r b ((← get).remaining + 1)
  let span ← listSpan Statement.span found
  return (⟨found, colons, span⟩, terminator)

/-- A single-line `If` or one of its branches ends here. -/
def atLineIfEnd (s : ParseState) : Bool :=
  match s.kind with
  | .lineTerminator | .endOfStream | .word .kwElse => true
  | .word .kwEnd => s.kindAfter == .word .kwIf
  | _ => false

def lineWithin (r : Rules) (b : Bodies) : Nat → Parse (List Statement × List Location)
  | 0 => return ([], [])
  | n + 1 => do
    match ← eatPlace (.mark .colon) with
    | some colon =>
      let (statements, colons) ← lineWithin r b n
      return (statements, colon :: colons)
    | none =>
      if atLineIfEnd (← get) then return ([], [])
      else
        let first ← moving (statement r b)
        let (rest, colons) ← lineWithin r b n
        return (first :: rest, colons)

/-- The statements of one branch of a single-line `If`. -/
def lineStatements (r : Rules) (b : Bodies) : Parse Statements := do
  let (found, colons) ← lineWithin r b ((← get).remaining + 1)
  let span ← listSpan Statement.span found
  return ⟨found, colons, span⟩

/-- The line starts a member that cannot belong to the container, which thereby ends. -/
def leaves (s : ParseState) : Container → Bool
  | .propertyBody | .eventBody =>
    (Lookahead.accessor? s.ahead).isNone && s.lineStart == .member
  | .enumBody =>
    s.kind != .identifier && s.kind != .mark .lessThan && s.lineStart == .member
  | _ => false

def stopLeaving (container : Container) : Parse ListStep := do
  if leaves (← get) container then stopUnclosed else return .goOn

/-- Reports a declaration that comes too late in its container. -/
def checkOrder (container : Container) (order : DeclarationOrder) : Parse DeclarationOrder := do
  let s ← get
  let (problem, order) := order.after container s.kind (Lookahead.atFileAttribute s.ahead)
  match problem with
  | some problem => report problem s.current.span
  | none => pure ()
  return order

def declarationsWithin (r : Rules) (b : Bodies) (container : Container) :
    Nat → DeclarationOrder → Parse (List Declaration × Option Terminator)
  | 0, _ => return ([], none)
  | n + 1, order => do
    let _ ← separators r
    match ← firstStop [stopAtTerminator, stopLeaving container] with
    | .stop terminator => return ([], terminator)
    | .goOn =>
      beginConstruct
      let order ← checkOrder container order
      let first ← moving (declaration r b container)
      let (rest, terminator) ← declarationsWithin r b container n order
      return (first :: rest, terminator)

/-- The declarations up to the end of the innermost block. -/
def declarations (r : Rules) (b : Bodies) (container : Container) :
    Parse (Declarations × Option Terminator) := do
  let (found, terminator) ←
    declarationsWithin r b container ((← get).remaining + 1) .initial
  let span ← listSpan Declaration.span found
  return (⟨found, span⟩, terminator)

end VisualBasic.Parse

namespace VisualBasic

/-- The rules for bodies nested up to a depth.  Every body stands behind a token of its own, so the
number of tokens bounds the depth. -/
def Bodies.ofDepth (isScript : Bool) (r : Rules) : Nat → Bodies
  | 0 => ⟨isScript, return (⟨[], [], .point (← Parse.placeholder)⟩, none),
      return ⟨[], [], .point (← Parse.placeholder)⟩,
      fun _ => return (⟨[], .point (← Parse.placeholder)⟩, none)⟩
  | n + 1 => ⟨isScript,
      fun s => Parse.statements r (ofDepth isScript r n) s,
      fun s => Parse.lineStatements r (ofDepth isScript r n) s,
      fun container s => Parse.declarations r (ofDepth isScript r n) container s⟩

end VisualBasic
