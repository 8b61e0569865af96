import VisualBasic.Diagnostic
import VisualBasic.Syntax.Statement

/-!
Which declarations may stand where.  The same members are read everywhere; the container decides
which of them, and which modifiers, are reported.
-/

set_option autoImplicit false

namespace VisualBasic

/-- What a list of declarations stands in. -/
inductive Container where
  | file
  | namespaceBody
  | type (kind : TypeKind)
  | enumBody
  | propertyBody
  | eventBody
  -- among the statements of a script
  | script
deriving DecidableEq, Inhabited

namespace Container

/-- The problem with a declaration that belongs at the top of a file. -/
def headingProblem? : Container → Option Problem
  | file | script => none
  | namespaceBody => some .invalidInsideNamespace
  | type .interfaceType => some .invalidInsideInterface
  | type _ => some .invalidInsideType
  | enumBody => some .invalidInsideEnum
  | propertyBody => some .expectedGetOrSet
  | eventBody => some .expectedEventAccessor

end Container

namespace TypeListKind

/-- The types that can name other types in the given way. -/
def isAllowedIn : TypeListKind → Container → Bool
  | inheritsFrom, .type .classType | inheritsFrom, .type .interfaceType => true
  | implementsAll, .type .classType | implementsAll, .type .structureType => true
  | _, _ => false

def misplaced : TypeListKind → Problem
  | inheritsFrom => .inheritsNotValidHere
  | implementsAll => .implementsNotValidHere

end TypeListKind

/-- The members that a declaration can introduce. -/
inductive Member where
  | namespaceBlock
  | type (kind : TypeKind)
  | enum
  | field
  | method
  | constructor
  | operator
  | property
  | event
  | customEvent
  | delegate
  | external
deriving DecidableEq, Inhabited

namespace Member

open Modifier

def isType : Member → Bool
  | type _ | enum | delegate => true
  | _ => false

def methodModifiers : List Modifier :=
  access ++ [modShadows, modShared, modOverridable, modNotOverridable, modMustOverride,
    modOverrides, modOverloads]

/-- The modifiers that a member can have somewhere. -/
def modifiers : Member → List Modifier
  | namespaceBlock => []
  | type .classType => access ++ [modShadows, modMustInherit, modNotInheritable, modPartial]
  | type .structureType => access ++ [modShadows, modPartial]
  | type .moduleType => access ++ [modPartial]
  | type .interfaceType | enum | delegate => access ++ [modShadows]
  | field => access ++ [modShadows, modShared, modReadOnly, modDim, modConst, modWithEvents]
  | method => methodModifiers
  | constructor => access ++ [modShared]
  | operator => [modPublic, modShared, modShadows, modOverloads, modWidening, modNarrowing]
  | property => methodModifiers ++ [modDefault, modReadOnly, modWriteOnly]
  | event | customEvent => access ++ [modShadows, modShared]
  | external => access ++ [modShadows, modOverloads]

/-- The modifiers that a container keeps from its members. -/
def isBarred (container : Container) (member : Member) (modifier : Modifier) : Bool :=
  match container with
  | .file | .namespaceBody => [modPrivate, modProtected, modShadows].contains modifier
  | .type .moduleType => [modProtected, modShared, modOverridable, modNotOverridable,
      modMustOverride, modOverrides, modDefault].contains modifier
  | .type .structureType =>
    [modProtected, modOverridable, modNotOverridable, modMustOverride].contains modifier
  | .type .interfaceType =>
    !member.isType
      && !([modShadows, modOverloads, modDefault, modReadOnly, modWriteOnly].contains modifier)
  | _ => false

/-- The modifiers that a member can have in a container. -/
def modifiersIn (member : Member) (container : Container) : List Modifier :=
  member.modifiers.filter fun m => !isBarred container member m

/-- The problem with a member in a container. -/
def placementProblem? (member : Member) : Container → Option Problem
  | .file | .namespaceBody =>
    match member with
    | field | method | constructor | operator | property | event | customEvent | external =>
      some .invalidInsideNamespace
    | _ => none
  | .type .classType | .type .structureType =>
    match member with
    | namespaceBlock | type .moduleType => some .invalidInsideType
    | _ => none
  | .type .moduleType =>
    match member with
    | namespaceBlock | type .moduleType | operator => some .invalidInsideType
    | _ => none
  | .type .interfaceType =>
    match member with
    | namespaceBlock | type .moduleType | field | constructor | operator | customEvent
    | external => some .invalidInsideInterface
    | _ => none
  | .script | .enumBody | .propertyBody | .eventBody => none

end Member

/-- How far the declarations of a container have come in the order that they must keep. -/
structure DeclarationOrder where
  pastOptions : Bool
  pastImports : Bool
  pastAttributes : Bool
  inherits : Bool
  implements : Bool
  members : Bool
deriving DecidableEq, Inhabited

namespace DeclarationOrder

def initial : DeclarationOrder := ⟨false, false, false, false, false, false⟩

/-- The next declaration of a file, by its first token: what is wrong with its place, and the order
from there on. -/
def afterInFile (o : DeclarationOrder) (kind : TokenKind) (isFileAttribute : Bool) :
    Option Problem × DeclarationOrder :=
  match kind with
  | .word .kwOption => (if o.pastOptions then some .optionStatementWrongOrder else none, o)
  | .word .kwImports =>
    (if o.pastImports then some .importsStatementWrongOrder else none,
      { o with pastOptions := true })
  | _ =>
    if isFileAttribute then
      (if o.pastAttributes then some .attributeStatementWrongOrder else none,
        { o with pastOptions := true, pastImports := true })
    else (none, { o with pastOptions := true, pastImports := true, pastAttributes := true })

/-- A further declaration that names base types. -/
def afterInherits (o : DeclarationOrder) (single : Bool) : Option Problem × DeclarationOrder :=
  (if o.members || o.implements then some .inheritsMustBeFirst
    else if o.inherits && single then some .noMultipleInheritance
    else none,
    { o with inherits := true })

/-- A further declaration that names implemented interfaces. -/
def afterImplements (o : DeclarationOrder) : Option Problem × DeclarationOrder :=
  (if o.members then some .implementsInWrongOrder else none, { o with implements := true })

/-- The next declaration of a container, by its first token. -/
def after (o : DeclarationOrder) (container : Container) (kind : TokenKind)
    (isFileAttribute : Bool) : Option Problem × DeclarationOrder :=
  match container, kind with
  | .file, kind => o.afterInFile kind isFileAttribute
  | .type .classType, .word .kwInherits => o.afterInherits true
  | .type .interfaceType, .word .kwInherits => o.afterInherits false
  | .type .classType, .word .kwImplements => o.afterImplements
  | .type .structureType, .word .kwImplements => o.afterImplements
  | _, _ => (none, { o with members := true })

end DeclarationOrder

end VisualBasic
