import VisualBasic.Parse.Directive
import VisualBasic.Proofs.Report.Phrase
import VisualBasic.Proofs.Syntax.Items

/-!
Counting the diagnostics of one kind along with what has been read.  The parts of a block are counted
over its whole list of parts, and a tree has as many misplaced parts as its blocks have together.
-/

set_option autoImplicit false

namespace VisualBasic

/-- What stands behind the first element with a property. -/
def behindFirst {α : Type} (p : α → Bool) (l : List α) : List α := (l.dropWhile fun a => !p a).tail

/-- What stands behind an element with a property, if there has been one before the list. -/
def behindFrom {α : Type} (seen : Bool) (p : α → Bool) (l : List α) : List α :=
  if seen then l else behindFirst p l

theorem behindFrom_nil {α : Type} (seen : Bool) (p : α → Bool) : behindFrom seen p [] = [] := by
  cases seen <;> rfl

theorem behindFrom_cons {α : Type} (seen : Bool) (p : α → Bool) (a : α) (l : List α) :
    behindFrom seen p (a :: l) = (if seen then [a] else []) ++ behindFrom (seen || p a) p l := by
  cases seen with
  | true => rfl
  | false => cases holds : p a <;> simp [behindFrom, behindFirst, holds]

-- Misplaced parts

def IfPart.misplaced {σ : Type} (p : IfPart σ) : Problem :=
  if p.isElse then .elseAfterElse else .elseIfAfterElse

def TryPart.misplaced {σ : Type} (p : TryPart σ) : Problem :=
  if p.isFinally then .finallyAfterFinally else .catchAfterFinally

def CaseBlock.isElse {σ : Type} (c : CaseBlock σ) : Bool := c.header.isElse

def CaseBlock.misplaced {σ : Type} (c : CaseBlock σ) : Problem :=
  if c.isElse then .caseElseAfterCaseElse else .caseAfterCaseElse

namespace Node

/-- What is wrong with the order of the parts of a block: each part of an `If` block behind an `Else`,
each part of a `Try` block behind a `Finally`, each case behind a `Case Else`, and statements before
the first case. -/
def misplaced : Node → List Problem
  | statement (.ifBlock b) => (behindFirst IfPart.isElse b.parts).map IfPart.misplaced
  | statement (.tryBlock b) => (behindFirst TryPart.isFinally b.parts).map TryPart.misplaced
  | statement (.selectBlock b) =>
    (if b.leading.statements.isEmpty then [] else [.expectedCase]) ++
      (behindFirst CaseBlock.isElse b.cases).map CaseBlock.misplaced
  | _ => []

/-- How many parts of a kind are misplaced in a tree. -/
def disorder (k : Problem) (n : Node) : Nat := (n.nodes.flatMap misplaced).count k

/-- How many parts of a kind are misplaced in several trees. -/
def disorders (k : Problem) (ns : List Node) : Nat :=
  (ns.flatMap fun n => n.nodes.flatMap misplaced).count k

section

variable {k : Problem} {n : Node} {ns ms : List Node}

@[simp] theorem disorders_nil : disorders k [] = 0 := rfl

@[simp] theorem disorders_cons : disorders k (n :: ns) = disorder k n + disorders k ns := by
  rw [disorders, List.flatMap_cons, List.count_append]
  rfl

@[simp] theorem disorders_append : disorders k (ns ++ ms) = disorders k ns + disorders k ms := by
  rw [disorders, List.flatMap_append, List.count_append]
  rfl

theorem disorder_eq : disorder k n = n.misplaced.count k + disorders k n.children := by
  rw [disorder, nodes_eq, List.flatMap_cons, List.count_append, List.flatMap_assoc]
  rfl

/-- There are no parts in a phrase. -/
theorem misplaced_of_isPhrase {n : Node} (phrase : n.isPhrase = true) :
    n.Everywhere fun m => m.misplaced = [] := by
  refine everywhere_iff.2 ⟨?_, fun c member => ?_⟩
  · cases n with
    | statement => cases phrase
    | _ => rfl
  · exact misplaced_of_isPhrase (List.all_eq_true.1 (all_children_isPhrase phrase) c member)
termination_by sizeOf n
decreasing_by exact sizeOf_mem_children member

theorem disorder_of_isPhrase (phrase : n.isPhrase = true) : disorder k n = 0 := by
  rw [disorder, List.flatMap_eq_nil_iff.2 (misplaced_of_isPhrase phrase)]
  rfl

theorem disorders_of_phrases (phrases : ns.all isPhrase = true) : disorders k ns = 0 := by
  have none (n : Node) (member : n ∈ ns) : n.nodes.flatMap misplaced = [] :=
    List.flatMap_eq_nil_iff.2 (misplaced_of_isPhrase (List.all_eq_true.1 phrases n member))
  rw [disorders, List.flatMap_eq_nil_iff.2 none]
  rfl

/-- The further parts of a block. -/
def parts : Node → List Node
  | statement (.ifBlock b) => b.parts.map ifPart
  | statement (.tryBlock b) => b.parts.map tryPart
  | statement (.selectBlock b) => b.cases.map caseBlock
  | _ => []

theorem disorders_getD {α : Type} {f : α → List Node} (o : Option α) :
    disorders k ((o.map f).getD []) = disorders k (o.map f).toList.flatten := by
  cases o with
  | none => rfl
  | some a => simp

theorem disorders_childrenOfDeclaration (d : Declaration) :
    disorders k (childrenOfDeclaration d) = disorders k (declaration d).lists.flatten := by
  have attributes (l : List AttributeBlock) := disorders_of_phrases (k := k) (all_ofAttributes_isPhrase l)
  have generics (l : Option TypeParameterList) :=
    disorders_of_phrases (k := k) (all_ofTypeParameters_isPhrase l)
  have parameters (l : Option ParameterList) :=
    disorders_of_phrases (k := k) (all_ofParameters_isPhrase l)
  have returned (t : Option ReturnType) := disorders_of_phrases (k := k) (all_ofReturnType_isPhrase t)
  have handled (c : Option HandlesClause) := disorders_of_phrases (k := k) (all_ofHandles_isPhrase c)
  have implemented (c : Option ImplementsClause) :=
    disorders_of_phrases (k := k) (all_ofImplements_isPhrase c)
  have types (t : Option TypeName) := disorders_of_phrases (k := k)
    (all_ofOption_isPhrase (f := typeName) (fun _ => rfl) t)
  have values (e : Option Expression) := disorders_of_phrases (k := k)
    (all_ofOption_isPhrase (f := expression) (fun _ => rfl) e)
  have name (n : Name) := disorder_of_isPhrase (k := k) (isPhrase_ofName n)
  have simpleNames (n : SimpleName) : disorder k (simpleName n) = 0 := disorder_of_isPhrase rfl
  cases d with
  | option | endBlock | bad => rfl
  | imports | typeList => exact disorders_of_phrases (all_map_isPhrase (fun _ => rfl) _)
  | attributes blocks => exact attributes blocks
  | variableList d =>
    rw [childrenOfDeclaration, disorders_append, attributes, ofDeclarators,
      disorders_of_phrases (all_map_isPhrase (fun _ => rfl) _)]
    rfl
  | method d =>
    simp [childrenOfDeclaration, lists, attributes, generics, parameters, returned, handled,
      implemented, simpleNames, disorders_getD]
  | property d =>
    simp [childrenOfDeclaration, lists, attributes, parameters, returned, implemented, simpleNames,
      disorders_getD]
  | _ =>
    simp [childrenOfDeclaration, lists, attributes, generics, parameters, returned, implemented,
      types, values, name, simpleNames]

theorem disorders_childrenOfStatement {st : Statement} (direct : (statement st).isDirect = true) :
    disorders k (childrenOfStatement st) =
      disorders k (statement st).lists.flatten + disorders k (statement st).parts := by
  have values (e : Option Expression) := disorders_of_phrases (k := k)
    (all_ofOption_isPhrase (f := expression) (fun _ => rfl) e)
  have value (e : Expression) : disorder k (expression e) = 0 := disorder_of_isPhrase rfl
  have condition (c : Option LoopCondition) : disorders k (ofLoopCondition c) = 0 :=
    disorders_of_phrases (all_ofOption_isPhrase (fun _ => rfl) c)
  have arguments (a : Option Arguments) := disorders_of_phrases (k := k) (all_ofArguments_isPhrase a)
  have label (l : Label) := disorders_of_phrases (k := k) (all_ofLabel_isPhrase l)
  have control (c : ForControl) := disorder_of_isPhrase (k := k) (isPhrase_ofForControl c)
  have resource (r : UsingResource) := disorders_of_phrases (k := k) (all_ofResource_isPhrase r)
  cases st with
  | declaration => simp [isDirect] at direct
  | localDeclaration | next | case | reDim | erase =>
    exact disorders_of_phrases (all_map_isPhrase (fun _ => rfl) _)
  | call s => simp [childrenOfStatement, lists, parts, arguments, value]
  | onError target => cases target <;> simp [childrenOfStatement, lists, parts, label]
  | resume target => cases target <;> simp [childrenOfStatement, lists, parts, label]
  | catchPart s => exact disorders_of_phrases (all_ofCatch_isPhrase s)
  | lineIf b => simp [childrenOfStatement, lists, parts, value, disorders_getD]
  | raiseEvent n args =>
    simp [childrenOfStatement, lists, parts, arguments, disorder_of_isPhrase (n := simpleName n) rfl]
  | _ =>
    simp [childrenOfStatement, lists, parts, values, value, condition, label, control, resource]

/-- What is misplaced below a node is in its lists and parts. -/
theorem disorder_of_isDirect (direct : n.isDirect = true) :
    disorder k n = n.misplaced.count k + disorders k n.lists.flatten + disorders k n.parts := by
  have value (e : Expression) : disorder k (expression e) = 0 := disorder_of_isPhrase rfl
  have below : disorders k n.children = disorders k n.lists.flatten + disorders k n.parts := by
    cases n with
    | file | script => simp [children, lists, parts]
    | declaration d => exact disorders_childrenOfDeclaration d
    | statement st => exact disorders_childrenOfStatement direct
    | ifPart p => cases p <;> simp [children, lists, parts, value]
    | caseBlock b =>
      have header : disorders k (ofCaseHeader b.header) = 0 := by
        cases b.header with
        | case s => exact disorders_of_phrases (all_map_isPhrase (fun _ => rfl) _)
        | caseElse => rfl
      simp [children, lists, parts, header]
    | tryPart p =>
      cases p with
      | catchPart s => simp [children, lists, parts, disorders_of_phrases (all_ofCatch_isPhrase s)]
      | finallyPart => simp [children, lists, parts]
    | _ => exact disorders_of_phrases (all_children_isPhrase rfl)
  rw [disorder_eq, below, Nat.add_assoc]

/-- Nothing is misplaced below a node without lists and parts. -/
theorem disorder_of_flat (direct : n.isDirect = true) (orderly : n.misplaced = [])
    (flat : n.lists = []) (whole : n.parts = []) : disorder k n = 0 := by
  rw [disorder_of_isDirect direct, orderly, flat, whole]
  rfl

/-- What is misplaced below a node with one list and no parts is in the list. -/
theorem disorder_of_list (direct : n.isDirect = true) (orderly : n.misplaced = [])
    (list : n.lists = [ns]) (whole : n.parts = []) : disorder k n = disorders k ns := by
  rw [disorder_of_isDirect direct, orderly, list, whole, List.flatten_singleton, List.count_nil,
    disorders_nil, Nat.zero_add, Nat.add_zero]

end

end Node

/-- How many parts of a kind are misplaced among and below further parts of a block, given whether
the part that has to be the last has been seen. -/
def disorderOfParts {π : Type} (k : Problem) (last : π → Bool) (misplaced : π → Problem)
    (node : π → Node) (seen : Bool) (parts : List π) : Nat :=
  ((behindFrom seen last parts).map misplaced).count k + Node.disorders k (parts.map node)

theorem disorderOfParts_nil {π : Type} {k : Problem} {last : π → Bool} {misplaced : π → Problem}
    {node : π → Node} {seen : Bool} : disorderOfParts k last misplaced node seen [] = 0 := by
  rw [disorderOfParts, behindFrom_nil]
  rfl

theorem disorderOfParts_cons {π : Type} {k : Problem} {last : π → Bool} {misplaced : π → Problem}
    {node : π → Node} {seen : Bool} {part : π} {parts : List π} :
    disorderOfParts k last misplaced node seen (part :: parts) =
      (if seen then [misplaced part] else []).count k + Node.disorder k (node part) +
        disorderOfParts k last misplaced node (seen || last part) parts := by
  simp only [disorderOfParts, behindFrom_cons, List.map_append, List.count_append, List.map_cons,
    Node.disorders_cons]
  cases seen <;> simp <;> omega

namespace Node

variable {k : Problem}

theorem disorder_ifBlock (d : IfBlock Statement) : disorder k (ofStatement (.ifBlock d)) =
    disorders k (ofStatements d.body) +
      disorderOfParts k IfPart.isElse IfPart.misplaced ifPart false d.parts := by
  show disorder k (statement (.ifBlock d)) = _
  rw [disorder_of_isDirect rfl]
  simp only [misplaced, lists, parts, List.flatten_singleton, disorderOfParts, behindFrom]
  simp only [Bool.false_eq_true, if_false]
  omega

theorem disorder_tryBlock (d : TryBlock Statement) : disorder k (ofStatement (.tryBlock d)) =
    disorders k (ofStatements d.body) +
      disorderOfParts k TryPart.isFinally TryPart.misplaced tryPart false d.parts := by
  show disorder k (statement (.tryBlock d)) = _
  rw [disorder_of_isDirect rfl]
  simp only [misplaced, lists, parts, List.flatten_singleton, disorderOfParts, behindFrom]
  simp only [Bool.false_eq_true, if_false]
  omega

theorem disorder_selectBlock (d : SelectBlock Statement) : disorder k (ofStatement (.selectBlock d)) =
    (if d.leading.statements.isEmpty then [] else [Problem.expectedCase]).count k +
      disorders k (ofStatements d.leading) +
        disorderOfParts k CaseBlock.isElse CaseBlock.misplaced caseBlock false d.cases := by
  show disorder k (statement (.selectBlock d)) = _
  rw [disorder_of_isDirect rfl]
  simp only [misplaced, lists, parts, List.flatten_singleton, disorderOfParts, behindFrom,
    List.count_append]
  simp only [Bool.false_eq_true, if_false]
  omega

end Node

end VisualBasic
