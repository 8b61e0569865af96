import VisualBasic.Parse.State

/-!
Looking ahead.  Some rules decide by tokens that lie behind the current one; what they find depends
on the tokens ahead and nothing moves.
-/

set_option autoImplicit false

namespace VisualBasic

/-- The block that the token behind `End` names. -/
def BlockKind.ofEndKind? : TokenKind → Option BlockKind
  | .word .kwIf => some .ifBlock
  | .word .kwUsing => some .usingBlock
  | .word .kwWith => some .withBlock
  | .word .kwSelect => some .selectBlock
  | .word .kwStructure => some .structureBlock
  | .word .kwEnum => some .enumBlock
  | .word .kwInterface => some .interfaceBlock
  | .word .kwProperty => some .propertyBlock
  | .word .kwOperator => some .operatorBlock
  | .word .kwSub => some .subBlock
  | .word .kwFunction => some .functionBlock
  | .word .kwEvent => some .eventBlock
  | .word .kwAddHandler => some .addHandlerBlock
  | .word .kwRemoveHandler => some .removeHandlerBlock
  | .word .kwRaiseEvent => some .raiseEventBlock
  | .word .kwGet => some .getBlock
  | .word .kwSet => some .setBlock
  | .word .kwNamespace => some .namespaceBlock
  | .word .kwModule => some .moduleBlock
  | .word .kwClass => some .classBlock
  | .word .kwTry => some .tryBlock
  | .word .kwWhile => some .whileBlock
  | .word .kwSyncLock => some .syncLockBlock
  | _ => none

/-- The block that the token behind `Exit` names. -/
def BlockKind.ofExitKind? : TokenKind → Option BlockKind
  | .word .kwDo => some .doBlock
  | .word .kwFor => some .forBlock
  | .word .kwWhile => some .whileBlock
  | .word .kwSelect => some .selectBlock
  | .word .kwSub => some .subBlock
  | .word .kwFunction => some .functionBlock
  | .word .kwProperty => some .propertyBlock
  | .word .kwTry => some .tryBlock
  | _ => none

/-- The block that the token behind `Continue` names. -/
def BlockKind.ofContinueKind? : TokenKind → Option BlockKind
  | .word .kwDo => some .doBlock
  | .word .kwFor => some .forBlock
  | .word .kwWhile => some .whileBlock
  | _ => none

namespace Lookahead

/-- Behind the last token there is nothing but the end of the stream. -/
def kindAt (tokens : List Token) (place : Nat) : TokenKind :=
  (tokens[place]?.map Token.kind).getD .endOfStream

def isContextualAt (tokens : List Token) (place : Nat) (keyword : Keyword) : Bool :=
  tokens[place]?.any fun t => t.isContextual keyword

/-- The terminator that two kinds of tokens begin. -/
def terminator? (kind after : TokenKind) : Option Terminator :=
  match kind with
  | .word .kwEnd => (BlockKind.ofEndKind? after).map .endOf
  | .word .kwWend => some (.endOf .whileBlock)
  | .word .kwLoop => some .loop
  | .word .kwNext => some .next
  | .word .kwElseIf => some .elseIf
  | .word .kwElse => some (if after = .word .kwIf then .elseIf else .elsePart)
  | .word .kwCase => some (if after = .word .kwElse then .caseElse else .case)
  | .word .kwCatch => some .catchPart
  | .word .kwFinally => some .finallyPart
  | _ => none

/-- The first token of one of the given kinds that stands outside parentheses before the end of the
statement. -/
def firstOutside (kinds : List TokenKind) (depth : Nat) : List Token → Option TokenKind
  | [] => none
  | t :: rest =>
    match t.kind with
    | .mark .colon | .lineTerminator | .endOfStream => none
    | .mark .leftParenthesis => firstOutside kinds (depth + 1) rest
    | .mark .rightParenthesis => firstOutside kinds (depth - 1) rest
    | k => if depth = 0 ∧ k ∈ kinds then some k else firstOutside kinds depth rest

/-- The tokens behind the parenthesis that closes the outermost of `depth + 1` open ones, if the
statement goes on that far. -/
def behindParentheses? (depth : Nat) : List Token → Option (List Token)
  | [] => none
  | t :: rest =>
    match t.kind with
    | .mark .leftParenthesis => behindParentheses? (depth + 1) rest
    | .mark .rightParenthesis =>
      match depth with
      | 0 => some rest
      | depth + 1 => behindParentheses? depth rest
    | .mark .colon | .lineTerminator | .endOfStream => none
    | _ => behindParentheses? depth rest

/-- The kind of the token behind the parenthesized group at the front. -/
def kindBehindGroup? : List Token → Option TokenKind
  | [] => none
  | t :: rest =>
    if t.kind = .mark .leftParenthesis then (behindParentheses? 0 rest).map fun ts => kindAt ts 0
    else none

/-- The tokens behind the attribute blocks at the front, with whether all of them are closed on
their line.  The first argument is the number of open parentheses within a block. -/
def behindAttributes : Option Nat → List Token → Bool × List Token
  | none, [] => (true, [])
  | some _, [] => (false, [])
  | none, t :: rest =>
    if t.kind = .mark .lessThan then behindAttributes (some 0) rest else (true, t :: rest)
  | some depth, t :: rest =>
    match t.kind with
    | .mark .leftParenthesis => behindAttributes (some (depth + 1)) rest
    | .mark .rightParenthesis => behindAttributes (some (depth - 1)) rest
    | .mark .greaterThan =>
      if depth = 0 then behindAttributes none rest else behindAttributes (some depth) rest
    | .lineTerminator | .endOfStream => (false, rest)
    | _ => behindAttributes (some depth) rest

def isModifier (t : Token) : Bool := (Modifier.ofKind? t.kind).isSome

def isMemberModifier (t : Token) : Bool :=
  (Modifier.ofKind? t.kind).any fun m => !Modifier.locals.contains m

end Lookahead

/-- What a line starts. -/
inductive LineStart where
  | statement
  | member
  -- `Option`, `Imports`, `Inherits` or `Implements`
  | heading
deriving DecidableEq, Inhabited

namespace LineStart

def ofKinds (tokens : List Token) : LineStart :=
  match Lookahead.kindAt tokens 0 with
  | .word .kwSub | .word .kwFunction | .word .kwProperty | .word .kwOperator | .word .kwEvent
  | .word .kwDelegate | .word .kwDeclare | .word .kwClass | .word .kwStructure | .word .kwModule
  | .word .kwInterface | .word .kwEnum | .word .kwNamespace => member
  | .word .kwOption | .word .kwImports | .word .kwInherits | .word .kwImplements => heading
  | .identifier =>
    if Lookahead.isContextualAt tokens 0 .kwCustom
        && Lookahead.kindAt tokens 1 == .word .kwEvent then member
    else statement
  | _ => statement

/-- What the tokens of a line start, judged behind attributes and modifiers.  Attributes, and
modifiers that local variables do not have, make a statement a member. -/
def ofTokens (tokens : List Token) : LineStart :=
  let (closed, rest) := Lookahead.behindAttributes none tokens
  if !closed then statement
  else
    let modified := Lookahead.kindAt tokens 0 == .mark .lessThan
      || (rest.takeWhile Lookahead.isModifier).any Lookahead.isMemberModifier
    match ofKinds (rest.dropWhile Lookahead.isModifier) with
    | statement => if modified then member else statement
    | found => found

end LineStart

namespace Lookahead

/-- The keyword of the accessor that a line starts and the kind of the token behind it. -/
def accessor? (tokens : List Token) : Option (TokenKind × TokenKind) :=
  let line := (behindAttributes none tokens).2.dropWhile isModifier
  match kindAt line 0 with
  | .word k =>
    if k ∈ [.kwGet, .kwSet, .kwAddHandler, .kwRemoveHandler, .kwRaiseEvent] then
      some (.word k, kindAt line 1)
    else none
  | _ => none

/-- An attribute of the whole assembly or module starts here. -/
def atFileAttribute (tokens : List Token) : Bool :=
  kindAt tokens 0 == .mark .lessThan
    && (isContextualAt tokens 1 .kwAssembly || kindAt tokens 1 == .word .kwModule)
    && kindAt tokens 2 == .mark .colon

end Lookahead

namespace ParseState

def terminator? (s : ParseState) : Option Terminator := Lookahead.terminator? s.kind s.kindAfter

def lineStart (s : ParseState) : LineStart := .ofTokens s.ahead

/-- Type arguments or type parameters start here. -/
def atTypeArguments (s : ParseState) : Bool :=
  s.kind == .mark .leftParenthesis && s.kindAfter == .word .kwOf

/-- The parenthesized group here is the size of an array: elements or another group follow. -/
def atArraySize (s : ParseState) : Bool :=
  !s.atTypeArguments
    && match Lookahead.kindBehindGroup? s.ahead with
      | some (.mark .leftCurlyBrace) | some (.mark .leftParenthesis) => true
      | _ => false

/-- An assignment to a part of a string starts here: `Mid`, perhaps marked as a string, then a
parenthesized group and an equals sign. -/
def atMidAssignment (s : ParseState) : Bool :=
  s.current.isContextual .kwMid
    && (s.current.typeCharacter == none || s.current.typeCharacter == some .stringSymbol)
    && Lookahead.kindBehindGroup? s.following == some (.mark .equals)

/-- The line starts an accessor beside the one that is being read. -/
def atSiblingAccessor (s : ParseState) : Bool :=
  (s.blocks.any fun b =>
    !b.holdsStatements && (b.kind == .propertyBlock || b.kind == .eventBlock))
    && match Lookahead.accessor? s.ahead with
      | some (.word .kwGet, _) => true
      | some (_, after) =>
        [.mark .leftParenthesis, .lineTerminator, .mark .colon, .endOfStream].contains after
      | none => false

end ParseState

end VisualBasic
