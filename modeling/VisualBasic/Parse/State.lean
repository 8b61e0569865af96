import VisualBasic.Directive
import VisualBasic.Syntax.Statement

/-!
The state of a parser and the steps that all rules are made of.  The parser stands before a token;
what lies ahead can be looked at without moving.  A problem is recorded once per construct: further
problems are dropped until the next statement, declaration or directive begins.
-/

set_option autoImplicit false

namespace VisualBasic

/-- A block whose end has not been read.  `header` is the statement that opened it. -/
structure OpenBlock where
  kind : BlockKind
  header : Span
  holdsStatements : Bool
deriving DecidableEq, Inhabited

def OpenBlock.isProcedureBody (b : OpenBlock) : Bool := b.holdsStatements && b.kind.isProcedure

/-- A `Next` that names more variables than the loops it has closed.  The variable at `index` is
for the next loop around them. -/
structure PendingNext where
  statement : NextStatement
  index : Nat
deriving Inhabited

/-- Where to blame a `Next` that is left over. -/
def PendingNext.span (p : PendingNext) : Span :=
  (p.statement.loopVariables.items[p.index]?.map Expression.span).getD p.statement.span

/-- The state of a parser.  Comments are not among the tokens; they are noted on the way.  `following`
is empty at the end of the stream only, which is never passed. -/
structure ParseState where
  previous : Option Token
  current : Token
  following : List Token
  diagnostics : List Diagnostic
  -- the construct that is being read has a diagnostic already
  suppressed : Bool
  -- innermost first
  blocks : List OpenBlock
  directives : OpenDirectives
  tables : DirectiveTables
  -- the number of single-line `If` statements around the current token
  lineIfDepth : Nat
  pendingNext : Option PendingNext
  -- the furthest place where something is missing; spans around it reach up to it
  placeholder : Location
  -- the comments before the current token
  comments : List Comment
  -- the comments behind it
  commentsAhead : List Comment
deriving Inhabited

namespace ParseState

/-- Notes the comments that stand before the current token. -/
def noteComments (s : ParseState) : ParseState :=
  let isPassed (c : Comment) : Bool := c.span.start < s.current.span.start
  { s with
    comments := s.comments ++ s.commentsAhead.takeWhile isPassed
    commentsAhead := s.commentsAhead.dropWhile isPassed }

/-- A parser before the first of some tokens, the last of which ends the stream, with the comments
among them. -/
def start (comments : List Comment) (tokens : List Token) : ParseState :=
  noteComments ⟨none, tokens.headD ⟨.endOfStream, .point .origin⟩, tokens.tail, [], false, [], .none,
    .empty, 0, none, .origin, [], comments⟩

def kind (s : ParseState) : TokenKind := s.current.kind

/-- The tokens ahead, the current one first. -/
def ahead (s : ParseState) : List Token := s.current :: s.following

/-- The number of steps to the end of the stream. -/
def remaining (s : ParseState) : Nat := s.following.length

def kindAfter (s : ParseState) : TokenKind := (s.following.head?.map Token.kind).getD .endOfStream

def advance (s : ParseState) : ParseState :=
  match s.following with
  | [] => s
  | t :: rest =>
    noteComments { s with previous := some s.current, current := t, following := rest }

/-- Advances while a test holds, at most the given number of times. -/
def advanceWhile (test : ParseState → Bool) : Nat → ParseState → ParseState
  | 0, s => s
  | n + 1, s => if test s then advanceWhile test n s.advance else s

def atLineStart (s : ParseState) : Bool := s.previous.all fun t => t.kind == .lineTerminator

/-- A statement ends at a colon and at the end of a line, within a single-line `If` also before
`Else` and `End If`. -/
def atStatementEnd (s : ParseState) : Bool :=
  match s.kind with
  | .mark .colon | .lineTerminator | .endOfStream => true
  | .word .kwElse => 0 < s.lineIfDepth
  | .word .kwEnd => 0 < s.lineIfDepth && s.kindAfter == .word .kwIf
  | _ => false

/-- The end of what has been read or found missing since `start`. -/
def finishSince (s : ParseState) (start : Location) : Location :=
  let read := (s.previous.map fun t => t.span.finish).getD start
  (start.later read).later (if s.placeholder < start then start else s.placeholder)

def spanSince (s : ParseState) (start : Location) : Span := ⟨start, s.finishSince start⟩

def report (s : ParseState) (problem : Problem) (span : Span) : ParseState :=
  if s.suppressed then s
  else { s with diagnostics := s.diagnostics ++ [⟨problem, span⟩], suppressed := true }

/-- Reports that the current token is not what was expected.  A token that could not be understood
has a problem of its own. -/
def reportUnexpected (s : ParseState) (expected : Problem) : ParseState :=
  s.report ((s.current.fault?.map .lexical).getD expected) s.current.span

/-- Some block around the innermost one accepts the terminator. -/
def outerAccepts (s : ParseState) (t : Terminator) : Bool :=
  s.blocks.tail.any fun b => b.kind.accepts t

def inProcedure (s : ParseState) : Bool := s.blocks.any OpenBlock.isProcedureBody

/-- The keywords that begin a statement or declaration of their own. -/
def beginsStatement : TokenKind → Bool
  | .word k => [.kwIf, .kwDo, .kwFor, .kwWhile, .kwSelect, .kwTry, .kwWith, .kwUsing, .kwSyncLock,
      .kwDim, .kwConst, .kwStatic, .kwReturn, .kwThrow, .kwGoTo, .kwCall, .kwReDim, .kwErase,
      .kwRaiseEvent, .kwAddHandler, .kwRemoveHandler, .kwResume, .kwStop, .kwEnd, .kwLoop, .kwNext,
      .kwWend, .kwElseIf, .kwCatch, .kwFinally, .kwClass, .kwStructure, .kwModule, .kwInterface,
      .kwEnum, .kwNamespace, .kwImports, .kwOption].contains k
  | _ => false

/-- Where discarding stops at once: where a statement ends, and before the given tokens. -/
def stopsDiscarding (stops : List TokenKind) (s : ParseState) : Bool :=
  match s.kind with
  | .mark .colon | .lineTerminator | .endOfStream => true
  | .word .kwElse => 0 < s.lineIfDepth
  | k => stops.contains k

/-- Discards tokens after a problem, up to where a statement ends or one of the given tokens.  A
keyword that begins a statement also ends the discarding, unless it is the first token. -/
def resync (s : ParseState) (stops : List TokenKind) : ParseState :=
  if stopsDiscarding stops s then s
  else
    s.advance.advanceWhile
      (fun s => !(stopsDiscarding stops s || beginsStatement s.kind)) s.remaining

end ParseState

abbrev Parse := StateM ParseState

namespace Parse

variable {α : Type}

/-- The current token, which is left where it is. -/
def peek : Parse Token := do return (← get).current

def peekKind : Parse TokenKind := do return (← get).kind

def kindAfter : Parse TokenKind := do return (← get).kindAfter

/-- Reads the current token. -/
def read : Parse Token := do
  let token ← peek
  modify ParseState.advance
  return token

/-- Passes the current token. -/
def skip : Parse Unit := modify ParseState.advance

/-- The place where the current token starts. -/
def here : Parse Location := do return (← get).current.span.start

def check (kind : TokenKind) : Parse Bool := do return (← get).kind == kind

def eat (kind : TokenKind) : Parse (Option Token) := do
  if ← check kind then return some (← read) else return none

def eatContextual (keyword : Keyword) : Parse (Option Token) := do
  if (← peek).isContextual keyword then return some (← read) else return none

/-- Starts a construct, whose first problem will be recorded. -/
def beginConstruct : Parse Unit := modify fun s => { s with suppressed := false }

def report (problem : Problem) (span : Span) : Parse Unit := modify fun s => s.report problem span

def reportUnexpected (expected : Problem) : Parse Unit :=
  modify fun s => s.reportUnexpected expected

/-- Reads a token of the given kind, or reports the problem and reads nothing. -/
def expect (kind : TokenKind) (problem : Problem) : Parse (Option Token) := do
  let token ← eat kind
  if token.isNone then reportUnexpected problem
  return token

/-- Like `eat`, for a token of which only the place matters. -/
def eatPlace (kind : TokenKind) : Parse (Option Location) := do
  return (← eat kind).map fun t => t.span.start

/-- Like `expect`, for a token of which only the place matters. -/
def expectPlace (kind : TokenKind) (problem : Problem) : Parse (Option Location) := do
  return (← expect kind problem).map fun t => t.span.start

def closeParenthesis : Parse (Option Location) :=
  expectPlace (.mark .rightParenthesis) .expectedRightParenthesis

/-- Where something is missing: before the current token. -/
def placeholder : Parse Location := do
  let place ← here
  modify fun s => { s with placeholder := s.placeholder.later place }
  return place

def spanFrom (start : Location) : Parse Span := do return (← get).spanSince start

def atStatementEnd : Parse Bool := do return (← get).atStatementEnd

def resync (stops : List TokenKind) : Parse Unit := modify fun s => s.resync stops

def skipStatement : Parse Unit :=
  modify fun s => s.advanceWhile (fun s => !s.atStatementEnd) s.remaining

/-- The span of a statement that ends here.  What still follows it is reported and discarded. -/
def endStatement (start : Location) : Parse Span := do
  let span ← spanFrom start
  unless ← atStatementEnd do
    reportUnexpected .expectedEndOfStatement
    resync []
  return span

/-- Runs a parser on a token that is there and else does nothing. -/
def whenEaten (kind : TokenKind) (parser : Parse α) : Parse (Option α) := do
  match ← eat kind with
  | some _ => return some (← parser)
  | none => return none

/-- Runs a parser if a condition holds. -/
def optionally (condition : Bool) (parser : Parse α) : Parse (Option α) := do
  if condition then return some (← parser) else return none

/-- Runs a parser with a block open around it. -/
def within (block : OpenBlock) (parser : Parse α) : Parse α := do
  modify fun s => { s with blocks := block :: s.blocks }
  let result ← parser
  modify fun s => { s with blocks := s.blocks.tail }
  return result

def reportUnclosed (block : OpenBlock) : Parse Unit := do
  beginConstruct
  report (.unclosed block.kind) block.header

/-- Runs a parser that must move on; if it does not, the current token is dropped. -/
def moving (parser : Parse α) : Parse α := do
  let before := (← get).remaining
  let result ← parser
  if (← get).remaining = before then skip
  return result

end Parse

end VisualBasic
