import VisualBasic.Parse.Container
import VisualBasic.Parse.SimpleStatement

/-!
The bodies of blocks, as the rules for blocks see them.
-/

set_option autoImplicit false

namespace VisualBasic

/-- The rules for the bodies nested in statements and declarations; `Bodies.ofDepth` ties them
together up to a depth of nesting.  A body comes with the terminator that the innermost block
accepts, which has not been read, unless the block ends without one. -/
structure Bodies where
  isScript : Bool
  statements : Parse (Statements × Option Terminator)
  /-- The statements of a single-line `If`. -/
  line : Parse Statements
  declarations : Container → Parse (Declarations × Option Terminator)

namespace Parse

/-- The statements of a block of one part. -/
def statementBody (b : Bodies) (kind : BlockKind) (header : Span) :
    Parse (Statements × Option Terminator) :=
  within ⟨kind, header, true⟩ b.statements

/-- The declarations of a block. -/
def declarationBody (b : Bodies) (kind : BlockKind) (header : Span) (container : Container) :
    Parse (Declarations × Option Terminator) :=
  within ⟨kind, header, false⟩ (b.declarations container)

/-- The end of a block, if that is what its body stopped at. -/
def takeEnd (kind : BlockKind) (terminator : Option Terminator) : Parse (Option EndBlock) := do
  if terminator = some (.endOf kind) then
    beginConstruct
    return some (← endBlock kind)
  else return none

end Parse

end VisualBasic
