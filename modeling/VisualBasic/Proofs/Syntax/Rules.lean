import VisualBasic.Parse.Container
import VisualBasic.Proofs.Syntax.Nodes

/-!
The rules of the language for modifiers, parameters, arguments and the members of a container, as
properties of single nodes and of the lists in them.
-/

set_option autoImplicit false

namespace VisualBasic

-- Modifiers

namespace ModifierList

/-- No modifier is repeated, and all are among the given ones. -/
def keeps (l : ModifierList) (allowed : List Modifier) : Bool :=
  decide (l.modifiers.map Placed.value).Nodup && l.modifiers.all fun m => allowed.contains m.value

theorem keeps_iff {l : ModifierList} {allowed : List Modifier} :
    l.keeps allowed = true ↔
      (l.modifiers.map Placed.value).Nodup ∧ ∀ m ∈ l.modifiers, m.value ∈ allowed := by
  simp [keeps, List.all_eq_true]

/-- The flags of a list are those of its modifiers. -/
theorem testBit_flags (l : ModifierList) (i : Nat) :
    l.flags.testBit i = l.modifiers.any fun m => decide (m.value.bit = i) := by
  have fold (ms : List (Placed Modifier)) (set : Nat) :
      (ms.foldl (fun set p => set ||| p.value.flag) set).testBit i
        = (set.testBit i || ms.any fun m => decide (m.value.bit = i)) := by
    induction ms generalizing set with
    | nil => simp
    | cons m rest ih =>
      rw [List.foldl_cons, ih, List.any_cons, Nat.testBit_or, Bool.or_assoc]
      congr 2
      exact Nat.testBit_two_pow
  simpa [flags] using fold l.modifiers 0

end ModifierList

-- Parameters and arguments

/-- No specifier of a parameter is repeated, and none excludes another. -/
def ParameterModifier.agree (l : List (Placed ParameterModifier)) : Bool :=
  let has (m : ParameterModifier) := l.any fun q => q.value == m
  decide (l.map Placed.value).Nodup && conflicts.all fun pair => !(has pair.1 && has pair.2)

/-- The specifiers of the parameter agree, and a parameter that can be left out has a value. -/
def Parameter.isConsistent (p : Parameter) : Bool :=
  ParameterModifier.agree p.modifiers && (!p.has .optional || p.defaultValue.isSome)

/-- Only the last parameter takes all further arguments. -/
def ParameterList.restIsLast (l : ParameterList) : Bool :=
  l.parameters.items.dropLast.all fun p => !p.has .paramArray

/-- Behind a named argument all are named. -/
def ArgumentList.namesAreLast (l : Arguments) : Bool :=
  decide (l.arguments.items.Pairwise fun a b => a.isNamed ≤ b.isNamed)

namespace Node

/-- The arguments that are children of the node. -/
def arguments? : Node → Option Arguments
  | expression (.callOrIndex _ arguments _) => some arguments
  | expression (.newObject _ arguments _) => arguments
  | statement (.call s) => s.arguments
  | statement (.raiseEvent _ arguments _) => arguments
  | declarator d => d.asClause.bind AsClause.arguments
  | appliedAttribute a => a.arguments
  | _ => none

/-- The parameters that are children of the node. -/
def parameters? : Node → Option ParameterList
  | declaration (.method d) => d.parameters
  | declaration (.operator d) => d.parameters
  | declaration (.external d) => d.parameters
  | declaration (.delegate d) => d.parameters
  | declaration (.event d) => d.parameters
  | declaration (.property d) => d.parameters
  | declaration (.accessor d) => d.parameters
  | _ => none

/-- The modifiers of a local variable and the specifiers of a parameter are in order. -/
def isModified : Node → Bool
  | statement (.localDeclaration d) => d.modifiers.keeps Modifier.locals
  | parameter p => p.isConsistent
  | _ => true

/-- The node keeps the rules that concern itself. -/
def isLawful (n : Node) : Bool :=
  n.isModified && n.arguments?.all ArgumentList.namesAreLast
    && n.parameters?.all ParameterList.restIsLast

/-- The node keeps its rules and nothing is missing from it. -/
def isProper (n : Node) : Bool := n.isLawful && n.isWhole

/-- The same holds of the statement that closes it. -/
def IsProper (n : Node) : Prop :=
  n.isProper = true ∧
    ∀ v ∈ n.closingVariables, (expression v).Everywhere fun m => m.isProper = true

/-- A node that no rule concerns is proper when it is whole. -/
theorem isProper_of_isWhole {n : Node} (lawful : n.isLawful = true) (whole : n.isWhole = true) :
    n.isProper = true :=
  Bool.and_eq_true_iff.2 ⟨lawful, whole⟩

/-- A node that is whole and has neither arguments nor parameters is proper when its modifiers are in
order. -/
theorem isProper_of_isModified {n : Node} (modified : n.isModified = true)
    (whole : (n.arguments?.all ArgumentList.namesAreLast
      && n.parameters?.all ParameterList.restIsLast && n.isWhole) = true) :
    n.isProper = true := by
  simp only [Bool.and_eq_true] at whole
  simp [isProper, isLawful, whole, modified]

/-- A node that is whole and has no parameters is proper when its arguments are. -/
theorem isProper_of_arguments {n : Node} (names : n.arguments?.all ArgumentList.namesAreLast = true)
    (whole : (n.isModified && n.parameters?.all ParameterList.restIsLast && n.isWhole) = true) :
    n.isProper = true := by
  simp only [Bool.and_eq_true] at whole
  simp [isProper, isLawful, whole, names]

/-- A node that is whole and has no arguments is proper when its parameters are. -/
theorem isProper_of_parameters {n : Node}
    (last : n.parameters?.all ParameterList.restIsLast = true) (whole : n.isWhole = true)
    (plain : (n.isModified && n.arguments?.all ArgumentList.namesAreLast) = true) :
    n.isProper = true := by
  simp only [Bool.and_eq_true] at plain
  simp [isProper, isLawful, whole, plain, last]

theorem isWhole_of_isProper {n : Node} (proper : n.isProper = true) : n.isWhole = true :=
  (Bool.and_eq_true_iff.1 proper).2

theorem IsProper.isComplete {n : Node} (proper : n.IsProper) : n.IsComplete :=
  ⟨isWhole_of_isProper proper.1, fun v member =>
    (proper.2 v member).mono fun _ proper => isWhole_of_isProper proper⟩

end Node

-- Members of containers

namespace Declaration

def member? : Declaration → Option Member
  | namespaceBlock _ => some .namespaceBlock
  | type d => some (.type d.kind)
  | enum _ => some .enum
  | variableList _ => some .field
  | method d => some (if d.kind = .constructor then .constructor else .method)
  | operator _ => some .operator
  | property _ => some .property
  | event _ => some .event
  | customEvent _ => some .customEvent
  | delegate _ => some .delegate
  | external _ => some .external
  | _ => none

def modifiers? : Declaration → Option ModifierList
  | type d => some d.head.modifiers
  | enum d => some d.head.modifiers
  | variableList d => some d.head.modifiers
  | method d => some d.head.modifiers
  | operator d => some d.head.modifiers
  | property d => some d.head.modifiers
  | event d => some d.head.modifiers
  | customEvent d => some d.head.modifiers
  | delegate d => some d.head.modifiers
  | external d => some d.head.modifiers
  | accessor d => some d.head.modifiers
  | _ => none

/-- A class names one base type. -/
def namesOne (container : Container) (l : TypeList) : Bool :=
  l.kind != .inheritsFrom || container != .type .classType || l.types.items.length == 1

/-- The declaration can stand in the container, with the modifiers that it has. -/
def isAllowedIn (container : Container) (d : Declaration) : Bool :=
  match d with
  | typeList l => l.kind.isAllowedIn container && namesOne container l
  | option _ _ _ | imports _ _ | attributes _ _ => container.headingProblem?.isNone
  | accessor a => a.head.modifiers.keeps (if a.kind.isOfProperty then Modifier.access else [])
  | d => d.member?.all fun member =>
    (member.placementProblem? container).isNone
      && d.modifiers?.all fun list => list.keeps (member.modifiersIn container)

end Declaration

namespace Node

/-- What the declarations that a node lists stand in. -/
def container : Node → Container
  | file _ => .file
  | declaration (.namespaceBlock _) => .namespaceBody
  | declaration (.type d) => .type d.kind
  | declaration (.enum _) => .enumBody
  | declaration (.property _) => .propertyBody
  | declaration (.customEvent _) => .eventBody
  | _ => .script

def isAllowedIn (container : Container) : Node → Bool
  | declaration d => d.isAllowedIn container
  | _ => true

/-- Base types come first, then interfaces, then all other members. -/
def rank : Node → Nat
  | declaration (.typeList l) => if l.kind = .inheritsFrom then 0 else 1
  | _ => 2

/-- The one node can stand before the other in the container.  A class names its base only once. -/
def Precedes (container : Container) (a b : Node) : Prop :=
  a.rank ≤ b.rank ∧ (container = .type .classType → a.rank = 0 → b.rank ≠ 0)

end Node

end VisualBasic
