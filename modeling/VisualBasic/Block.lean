/-!
Blocks and the words that end or continue them.  A block accepts its own `End`, and some blocks
accept words that start their next part: `If` goes on with `ElseIf` and `Else`, `Select` with
`Case`, `Try` with `Catch` and `Finally`.  `Do` ends with `Loop` and `For` with `Next`.
-/

set_option autoImplicit false

namespace VisualBasic

inductive BlockKind where
  | ifBlock
  | usingBlock
  | withBlock
  | selectBlock
  | structureBlock
  | enumBlock
  | interfaceBlock
  | propertyBlock
  | operatorBlock
  | subBlock
  | functionBlock
  | eventBlock
  | addHandlerBlock
  | removeHandlerBlock
  | raiseEventBlock
  | getBlock
  | setBlock
  | namespaceBlock
  | moduleBlock
  | classBlock
  | tryBlock
  | whileBlock
  | syncLockBlock
  | doBlock
  | forBlock
deriving DecidableEq, Inhabited

namespace BlockKind

def all : List BlockKind := [
  ifBlock, usingBlock, withBlock, selectBlock, structureBlock, enumBlock, interfaceBlock,
  propertyBlock, operatorBlock, subBlock, functionBlock, eventBlock, addHandlerBlock,
  removeHandlerBlock, raiseEventBlock, getBlock, setBlock, namespaceBlock, moduleBlock,
  classBlock, tryBlock, whileBlock, syncLockBlock, doBlock, forBlock]

/-- The word that opens the block. -/
def spelling : BlockKind → String
  | ifBlock => "If"
  | usingBlock => "Using"
  | withBlock => "With"
  | selectBlock => "Select"
  | structureBlock => "Structure"
  | enumBlock => "Enum"
  | interfaceBlock => "Interface"
  | propertyBlock => "Property"
  | operatorBlock => "Operator"
  | subBlock => "Sub"
  | functionBlock => "Function"
  | eventBlock => "Event"
  | addHandlerBlock => "AddHandler"
  | removeHandlerBlock => "RemoveHandler"
  | raiseEventBlock => "RaiseEvent"
  | getBlock => "Get"
  | setBlock => "Set"
  | namespaceBlock => "Namespace"
  | moduleBlock => "Module"
  | classBlock => "Class"
  | tryBlock => "Try"
  | whileBlock => "While"
  | syncLockBlock => "SyncLock"
  | doBlock => "Do"
  | forBlock => "For"

/-- The opening of the block as messages quote it. -/
def opening : BlockKind → String
  | selectBlock => "Select Case"
  | eventBlock => "Custom Event"
  | b => b.spelling

/-- The ending of the block as messages quote it. -/
def ending : BlockKind → String
  | doBlock => "Loop"
  | forBlock => "Next"
  | b => "End " ++ b.spelling

/-- The blocks whose statements are those of a procedure. -/
def isProcedure : BlockKind → Bool
  | subBlock | functionBlock | operatorBlock | propertyBlock | getBlock | setBlock
  | addHandlerBlock | removeHandlerBlock | raiseEventBlock => true
  | _ => false

end BlockKind

/-- The statements that end a block or start its next part. -/
inductive Terminator where
  | endOf (block : BlockKind)
  | loop
  | next
  | elseIf
  | elsePart
  | case
  | caseElse
  | catchPart
  | finallyPart
deriving DecidableEq, Inhabited

namespace Terminator

/-- Every terminator, those that have words of their own first. -/
def all : List Terminator :=
  [loop, next, elseIf, elsePart, case, caseElse, catchPart, finallyPart]
    ++ BlockKind.all.map endOf

/-- The block that a terminator belongs to. -/
def block : Terminator → BlockKind
  | endOf b => b
  | loop => .doBlock
  | next => .forBlock
  | elseIf | elsePart => .ifBlock
  | case | caseElse => .selectBlock
  | catchPart | finallyPart => .tryBlock

/-- The terminator as messages quote it. -/
def quoted : Terminator → String
  | endOf b => b.ending
  | loop => "Loop"
  | next => "Next"
  | elseIf => "ElseIf"
  | elsePart => "Else"
  | case => "Case"
  | caseElse => "Case Else"
  | catchPart => "Catch"
  | finallyPart => "Finally"

/-- What must come before the terminator, as messages quote it. -/
def precededBy : Terminator → String
  | elseIf | elsePart => "'If' or 'ElseIf'"
  | t => "'" ++ t.block.opening ++ "'"

end Terminator

def BlockKind.accepts : BlockKind → Terminator → Bool
  | .ifBlock, t => t == .elseIf || t == .elsePart || t == .endOf .ifBlock
  | .selectBlock, t => t == .case || t == .caseElse || t == .endOf .selectBlock
  | .tryBlock, t => t == .catchPart || t == .finallyPart || t == .endOf .tryBlock
  | .doBlock, t => t == .loop
  | .forBlock, t => t == .next
  | b, t => t == .endOf b

end VisualBasic
