import VisualBasic.Proofs.Syntax.Nodes
import VisualBasic.Proofs.Syntax.RelocateStatement

/-!
Relocating nodes.  The nodes below a node that has been moved are the nodes that were below it,
moved in the same way.
-/

set_option autoImplicit false

namespace VisualBasic

instance : Relocate Node :=
  ⟨fun g n => match n with
    | .file f => .file (relocate g f)
    | .script s => .script (relocate g s)
    | .declaration d => .declaration (relocate g d)
    | .statement s => .statement (relocate g s)
    | .expression e => .expression (relocate g e)
    | .typeName t => .typeName (relocate g t)
    | .name n => .name (relocate g n)
    | .simpleName n => .simpleName (relocate g n)
    | .variableName n => .variableName (relocate g n)
    | .argument a => .argument (relocate g a)
    | .aggregate a => .aggregate (relocate g a)
    | .declarator d => .declarator (relocate g d)
    | .parameter p => .parameter (relocate g p)
    | .typeParameter p => .typeParameter (relocate g p)
    | .constraint c => .constraint (relocate g c)
    | .arrayBound b => .arrayBound (relocate g b)
    | .appliedAttribute a => .appliedAttribute (relocate g a)
    | .importsClause c => .importsClause (relocate g c)
    | .handlesItem i => .handlesItem (relocate g i)
    | .caseClause c => .caseClause (relocate g c)
    | .ifPart p => .ifPart (relocate g p)
    | .caseBlock b => .caseBlock (relocate g b)
    | .tryPart p => .tryPart (relocate g p)⟩

namespace Node

variable (g : Location → Location)

theorem span_relocate (n : Node) : (relocate g n).span = relocate g n.span := by
  cases n with
  | declaration d => exact d.span_relocate g
  | statement s => exact s.span_relocate g
  | expression e => exact e.span_relocate g
  | typeName t => exact t.span_relocate g
  | name n => exact n.span_relocate g
  | constraint c => exact c.span_relocate g
  | caseClause c => exact c.span_relocate g
  | ifPart p => cases p <;> rfl
  | tryPart p => cases p <;> rfl
  | _ => rfl

variable {α : Type} [Relocate α]

end Node

end VisualBasic
