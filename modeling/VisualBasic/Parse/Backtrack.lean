import VisualBasic.Parse.Lookahead

/-!
Looking ahead by reading.  A parser marks its place, reads on as far as it needs to see, and returns.
What it finds is what `Lookahead` says of the tokens ahead.
-/

set_option autoImplicit false

namespace VisualBasic

/-- A place among the tokens that a parser can return to. -/
structure Mark where
  previous : Option Token
  current : Token
  following : List Token
deriving Inhabited

namespace ParseState

def mark (s : ParseState) : Mark := ⟨s.previous, s.current, s.following⟩

/-- Returns to a mark.  Comments that have been passed stay noted.  The furthest place where
something is missing is forgotten if the parser returns to before it. -/
def backtrack (s : ParseState) (m : Mark) : ParseState :=
  { s with
    previous := m.previous
    current := m.current
    following := m.following
    placeholder := if m.current.span.start < s.placeholder then .origin else s.placeholder }

end ParseState

namespace Parse

variable {α : Type}

/-- Runs a parser and returns to where it began. -/
def trial (parser : Parse α) : Parse α := do
  let mark := (← get).mark
  let found ← parser
  modify fun s => s.backtrack mark
  return found

def skipTimes : Nat → Parse Unit
  | 0 => return ()
  | n + 1 => do
    skip
    skipTimes n

/-- The token that is the given number of places ahead. -/
def peekNth : Nat → Parse Token
  | 0 => peek
  | n + 1 => trial do
    skipTimes (n + 1)
    peek

-- Passing parts of a line

/-- Passes tokens up to one of the given kinds outside parentheses, within the statement.  The second
argument is the number of open parentheses. -/
def seekOutside (kinds : List TokenKind) : Nat → Nat → Parse (Option TokenKind)
  | 0, _ => return none
  | n + 1, depth => do
    let kind ← peekKind
    match kind with
    | .mark .colon | .lineTerminator | .endOfStream => return none
    | .mark .leftParenthesis =>
      skip
      seekOutside kinds n (depth + 1)
    | .mark .rightParenthesis =>
      skip
      seekOutside kinds n (depth - 1)
    | _ =>
      if depth = 0 ∧ kind ∈ kinds then return some kind
      else
        skip
        seekOutside kinds n depth

/-- Passes the rest of a parenthesized group in which `depth + 1` parentheses are open. -/
def skipGroup : Nat → Nat → Parse Bool
  | 0, _ => return false
  | n + 1, depth => do
    match (← read).kind with
    | .mark .leftParenthesis => skipGroup n (depth + 1)
    | .mark .rightParenthesis =>
      match depth with
      | 0 => return true
      | depth + 1 => skipGroup n depth
    | .mark .colon | .lineTerminator | .endOfStream => return false
    | _ => skipGroup n depth

/-- Passes a parenthesized group, if it is closed in its statement. -/
def skipParenthesized : Parse Bool := do
  match ← eat (.mark .leftParenthesis) with
  | none => return false
  | some _ => skipGroup ((← get).remaining + 1) 0

/-- Passes the rest of an attribute block. -/
def skipAttribute : Nat → Nat → Parse Bool
  | 0, _ => return false
  | n + 1, depth => do
    match (← read).kind with
    | .mark .leftParenthesis => skipAttribute n (depth + 1)
    | .mark .rightParenthesis => skipAttribute n (depth - 1)
    | .mark .greaterThan => if depth = 0 then return true else skipAttribute n depth
    | .lineTerminator | .endOfStream => return false
    | _ => skipAttribute n depth

/-- Passes an attribute block, if it is closed on its line. -/
def skipAttributeBlock : Parse Bool := do
  match ← eat (.mark .lessThan) with
  | none => return false
  | some _ => skipAttribute ((← get).remaining + 1) 0

/-- Passes attribute blocks, up to one that is not closed. -/
def skipAttributes : Nat → Parse Bool
  | 0 => return true
  | n + 1 => do
    if ← check (.mark .lessThan) then
      if ← skipAttributeBlock then skipAttributes n else return false
    else return true

/-- Passes modifiers and tells whether local variables do not have one of them. -/
def skipModifiers : Nat → Parse Bool
  | 0 => return false
  | n + 1 => do
    match Modifier.ofKind? (← peekKind) with
    | none => return false
    | some modifier =>
      skip
      let more ← skipModifiers n
      return !Modifier.locals.contains modifier || more

-- What is ahead

def seesTypeArguments : Parse Bool := do
  if ← check (.mark .leftParenthesis) then return (← peekNth 1).kind == .word .kwOf
  else return false

def seesStatementEnd : Parse Bool := do
  match ← peekKind with
  | .mark .colon | .lineTerminator | .endOfStream => return true
  | .word .kwElse => return 0 < (← get).lineIfDepth
  | .word .kwEnd =>
    if 0 < (← get).lineIfDepth then return (← peekNth 1).kind == .word .kwIf else return false
  | _ => return false

def seesTerminator : Parse (Option Terminator) := do
  match ← peekKind with
  | .word .kwEnd => return (BlockKind.ofEndKind? (← peekNth 1).kind).map .endOf
  | .word .kwWend => return some (.endOf .whileBlock)
  | .word .kwLoop => return some .loop
  | .word .kwNext => return some .next
  | .word .kwElseIf => return some .elseIf
  | .word .kwElse =>
    return some (if (← peekNth 1).kind = .word .kwIf then .elseIf else .elsePart)
  | .word .kwCase =>
    return some (if (← peekNth 1).kind = .word .kwElse then .caseElse else .case)
  | .word .kwCatch => return some .catchPart
  | .word .kwFinally => return some .finallyPart
  | _ => return none

def seesAhead (kinds : List TokenKind) : Parse (Option TokenKind) :=
  trial do seekOutside kinds ((← get).remaining + 1) 0

/-- What decides which line starts here: whether attributes or modifiers make it a member, and the
two tokens behind them, unless an attribute block is not closed. -/
def readLineStart : Parse (Option (Bool × Token × Token)) := do
  let attributed ← check (.mark .lessThan)
  if ← skipAttributes ((← get).remaining + 1) then
    let modified ← skipModifiers ((← get).remaining + 1)
    let token ← peek
    return some (attributed || modified, token, ← peekNth 1)
  else return none

def seesLineStart : Parse LineStart := do
  match ← trial readLineStart with
  | none => return .statement
  | some (isMember, token, next) =>
    match LineStart.ofKinds [token, next] with
    | .statement => return if isMember then .member else .statement
    | found => return found

def readAccessor : Parse (TokenKind × TokenKind) := do
  let _ ← skipAttributes ((← get).remaining + 1)
  let _ ← skipModifiers ((← get).remaining + 1)
  let keyword ← peekKind
  return (keyword, (← peekNth 1).kind)

def seesAccessor : Parse (Option (TokenKind × TokenKind)) := do
  match ← trial readAccessor with
  | (.word k, next) =>
    return if k ∈ [.kwGet, .kwSet, .kwAddHandler, .kwRemoveHandler, .kwRaiseEvent] then
      some (.word k, next) else none
  | _ => return none

def seesSiblingAccessor : Parse Bool := do
  let isAmongAccessors := (← get).blocks.any fun b =>
    !b.holdsStatements && (b.kind == .propertyBlock || b.kind == .eventBlock)
  if isAmongAccessors then
    match ← seesAccessor with
    | some (.word .kwGet, _) => return true
    | some (_, next) =>
      return [.mark .leftParenthesis, .lineTerminator, .mark .colon, .endOfStream].contains next
    | none => return false
  else return false

def seesArraySize : Parse Bool := do
  if ← check (.mark .leftParenthesis) then
    if ← seesTypeArguments then return false
    else trial do
      if ← skipParenthesized then
        match ← peekKind with
        | .mark .leftCurlyBrace | .mark .leftParenthesis => return true
        | _ => return false
      else return false
  else return false

def seesMidAssignment : Parse Bool := do
  let token ← peek
  if token.isContextual .kwMid
      && (token.typeCharacter == none || token.typeCharacter == some .stringSymbol) then
    if (← peekNth 1).kind = .mark .leftParenthesis then
      trial do
        skip
        if ← skipParenthesized then check (.mark .equals) else return false
    else return false
  else return false

def seesFileAttribute : Parse Bool := do
  let target ← peekNth 1
  if ← check (.mark .lessThan) then
    if target.isContextual .kwAssembly || target.kind == .word .kwModule then
      return (← peekNth 2).kind == .mark .colon
    else return false
  else return false

end Parse

end VisualBasic
