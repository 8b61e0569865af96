import VisualBasic.Syntax.Expression
import VisualBasic.Syntax.Modifier

/-!
The parts that statements and declarations are made of: declared variables, parameters, attributes
and the clauses behind a member's name.
-/

set_option autoImplicit false

namespace VisualBasic

structure VariableName where
  name : SimpleName
  array : Option (ArrayBounds Expression)
  span : Span
deriving Inhabited

structure AsClause where
  asKeyword : Location
  newKeyword : Option Location
  type : TypeName
  arguments : Option Arguments
  span : Span
deriving Inhabited

def AsClause.isNew (c : AsClause) : Bool := c.newKeyword.isSome

/-- Names that share a type and a value. -/
structure VariableDeclarator where
  names : CommaList VariableName
  asClause : Option AsClause
  equals : Option Location
  initializer : Option Initializer
  span : Span
deriving Inhabited

inductive AttributeTarget where
  | assembly
  | module
deriving DecidableEq, Inhabited

structure Attribute where
  target : Option AttributeTarget
  name : Name
  arguments : Option Arguments
  span : Span
deriving Inhabited

structure AttributeBlock where
  openAngle : Location
  attributes : CommaList Attribute
  closeAngle : Option Location
  span : Span
deriving Inhabited

structure Parameter where
  attributes : List AttributeBlock
  modifiers : List (Placed ParameterModifier)
  name : VariableName
  type : Option TypeName
  defaultValue : Option Expression
  span : Span
deriving Inhabited

namespace Parameter

def has (p : Parameter) (m : ParameterModifier) : Bool := p.modifiers.any fun q => q.value == m

/-- All modifiers of the parameter as one set of flags. -/
def flags (p : Parameter) : Nat := p.modifiers.foldl (fun set q => set ||| q.value.flag) 0

end Parameter

structure ParameterList where
  openParen : Location
  parameters : CommaList Parameter
  closeParen : Option Location
  span : Span
deriving Inhabited

structure ReturnType where
  asKeyword : Location
  attributes : List AttributeBlock
  type : TypeName
  span : Span
deriving Inhabited

inductive Constraint where
  | isClass (span : Span)
  | isStructure (span : Span)
  | hasNew (span : Span)
  | type (type : TypeName)
deriving Inhabited

def Constraint.span : Constraint → Span
  | .isClass s | .isStructure s | .hasNew s => s
  | .type t => t.span

structure ConstraintList where
  asKeyword : Location
  openBrace : Option Location
  constraints : CommaList Constraint
  closeBrace : Option Location
  span : Span
deriving Inhabited

structure TypeParameter where
  name : SimpleName
  constraints : Option ConstraintList
  span : Span
deriving Inhabited

structure TypeParameterList where
  openParen : Location
  ofKeyword : Location
  parameters : CommaList TypeParameter
  closeParen : Option Location
  span : Span
deriving Inhabited

/-- An event that a method handles. -/
structure HandlesItem where
  source : Name
  dot : Option Location
  event : SimpleName
  span : Span
deriving Inhabited

structure HandlesClause where
  keyword : Location
  events : CommaList HandlesItem
  span : Span
deriving Inhabited

structure ImplementsClause where
  keyword : Location
  members : CommaList Name
  span : Span
deriving Inhabited

structure ImportsClause where
  aliasName : Option SimpleName
  equals : Option Location
  target : TypeName
  span : Span
deriving Inhabited

end VisualBasic
