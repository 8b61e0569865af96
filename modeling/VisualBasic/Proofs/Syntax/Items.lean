import VisualBasic.Proofs.Stray.Node
import VisualBasic.Proofs.Syntax.Separation

/-!
The statements and declarations right below a node are those that it lists, in their order.
-/

set_option autoImplicit false

namespace VisualBasic.Node

def isItem : Node → Bool
  | declaration _ | statement _ => true
  | _ => false

/-- A declaration among statements is no statement of its own. -/
def isDirect : Node → Bool
  | statement (.declaration _) => false
  | _ => true

theorem isItem_of_isPhrase {n : Node} (phrase : n.isPhrase = true) : n.isItem = false := by
  cases n with
  | declaration | statement => simp [isPhrase] at phrase
  | _ => rfl

theorem isDirect_of_isItem_eq_false {n : Node} (part : n.isItem = false) : n.isDirect = true := by
  cases n with
  | statement => simp [isItem] at part
  | _ => rfl

theorem isItem_ofStatement (st : Statement) : (ofStatement st).isItem = true := by
  cases st <;> rfl

theorem isDirect_ofStatement (st : Statement) : (ofStatement st).isDirect = true := by
  cases st <;> rfl

theorem filter_isItem_of_phrases {ns : List Node} (phrases : ns.all isPhrase = true) :
    ns.filter isItem = [] := by
  refine List.filter_eq_nil_iff.2 fun n member => ?_
  simp [isItem_of_isPhrase (List.all_eq_true.1 phrases n member)]

@[simp] theorem filter_isItem_ofStatements (l : Statements) :
    (ofStatements l).filter isItem = ofStatements l := by
  simp [ofStatements, List.filter_eq_self, isItem_ofStatement]

@[simp] theorem filter_isItem_ofDeclarations (l : Declarations) :
    (ofDeclarations l).filter isItem = ofDeclarations l := by
  simp [ofDeclarations, List.filter_eq_self, isItem]

theorem filter_isItem_parts {α : Type} {f : α → Node} (part : ∀ a, (f a).isItem = false)
    (l : List α) : (l.map f).filter isItem = [] := by
  simp [List.filter_eq_nil_iff, part]

theorem filter_isItem_getD {α : Type} {f : α → List Node}
    (items : ∀ a, (f a).filter isItem = f a) (o : Option α) :
    ((o.map f).getD []).filter isItem = (o.map f).toList.flatten := by
  cases o with
  | none => rfl
  | some a => simp [items]

theorem filter_isItem_childrenOfDeclaration (d : Declaration) :
    (childrenOfDeclaration d).filter isItem = (declaration d).lists.flatten := by
  have attributes (l : List AttributeBlock) := filter_isItem_of_phrases (all_ofAttributes_isPhrase l)
  have generics (l : Option TypeParameterList) :=
    filter_isItem_of_phrases (all_ofTypeParameters_isPhrase l)
  have parameters (l : Option ParameterList) :=
    filter_isItem_of_phrases (all_ofParameters_isPhrase l)
  have returned (t : Option ReturnType) := filter_isItem_of_phrases (all_ofReturnType_isPhrase t)
  have handled (c : Option HandlesClause) := filter_isItem_of_phrases (all_ofHandles_isPhrase c)
  have implemented (c : Option ImplementsClause) :=
    filter_isItem_of_phrases (all_ofImplements_isPhrase c)
  have types (t : Option TypeName) := filter_isItem_of_phrases (all_ofOption_isPhrase (f := typeName)
    (fun _ => rfl) t)
  have values (e : Option Expression) := filter_isItem_of_phrases
    (all_ofOption_isPhrase (f := expression) (fun _ => rfl) e)
  have name (n : Name) := isItem_of_isPhrase (isPhrase_ofName n)
  have simpleNames (n : SimpleName) : (simpleName n).isItem = false := rfl
  cases d with
  | option | endBlock | bad => rfl
  | imports | typeList => exact filter_isItem_parts (fun _ => rfl) _
  | attributes blocks => exact attributes blocks
  | variableList d =>
    rw [childrenOfDeclaration, List.filter_append, attributes, ofDeclarators,
      filter_isItem_parts fun _ => rfl]
    rfl
  | method d =>
    simp [childrenOfDeclaration, lists, attributes, generics, parameters, returned, handled,
      implemented, simpleNames, filter_isItem_getD filter_isItem_ofStatements]
  | property d =>
    simp [childrenOfDeclaration, lists, attributes, parameters, returned, implemented, simpleNames,
      filter_isItem_getD filter_isItem_ofDeclarations]
  | _ =>
    simp [childrenOfDeclaration, lists, attributes, generics, parameters, returned, implemented,
      types, values, name, simpleNames]

theorem filter_isItem_childrenOfStatement {st : Statement} (direct : (statement st).isDirect = true) :
    (childrenOfStatement st).filter isItem = (statement st).lists.flatten := by
  have values (e : Option Expression) := filter_isItem_of_phrases
    (all_ofOption_isPhrase (f := expression) (fun _ => rfl) e)
  have value (e : Expression) : (expression e).isItem = false := rfl
  have condition (c : Option LoopCondition) : (ofLoopCondition c).filter isItem = [] :=
    filter_isItem_of_phrases (all_ofOption_isPhrase (fun _ => rfl) c)
  have arguments (a : Option Arguments) := filter_isItem_of_phrases (all_ofArguments_isPhrase a)
  have label (l : Label) := filter_isItem_of_phrases (all_ofLabel_isPhrase l)
  have control (c : ForControl) := isItem_of_isPhrase (isPhrase_ofForControl c)
  have resource (r : UsingResource) := filter_isItem_of_phrases (all_ofResource_isPhrase r)
  have ifParts (l : List (IfPart Statement)) : (l.map ifPart).filter isItem = [] :=
    filter_isItem_parts (fun _ => rfl) l
  have tryParts (l : List (TryPart Statement)) : (l.map tryPart).filter isItem = [] :=
    filter_isItem_parts (fun _ => rfl) l
  have caseBlocks (l : List (CaseBlock Statement)) : (l.map caseBlock).filter isItem = [] :=
    filter_isItem_parts (fun _ => rfl) l
  cases st with
  | declaration => simp [isDirect] at direct
  | localDeclaration | next | case | reDim | erase => exact filter_isItem_parts (fun _ => rfl) _
  | call s => simp [childrenOfStatement, lists, arguments, value]
  | onError target => cases target <;> simp [childrenOfStatement, lists, label]
  | resume target => cases target <;> simp [childrenOfStatement, lists, label]
  | catchPart s =>
    exact filter_isItem_of_phrases (all_ofCatch_isPhrase s)
  | lineIf b =>
    simp [childrenOfStatement, lists, value, filter_isItem_getD filter_isItem_ofStatements]
  | raiseEvent n args =>
    simp [childrenOfStatement, lists, arguments, isItem]
  | _ =>
    simp [childrenOfStatement, lists, values, value, condition, label, control, resource, ifParts,
      tryParts, caseBlocks]

theorem filter_isItem_children {n : Node} (direct : n.isDirect = true) :
    n.children.filter isItem = n.lists.flatten := by
  have value (e : Expression) : (expression e).isItem = false := rfl
  cases n with
  | file | script => simp [children, lists]
  | declaration d => exact filter_isItem_childrenOfDeclaration d
  | statement st => exact filter_isItem_childrenOfStatement direct
  | ifPart p => cases p <;> simp [children, lists, value]
  | caseBlock b =>
    have header : (ofCaseHeader b.header).filter isItem = [] := by
      cases b.header with
      | case s => exact filter_isItem_parts (fun _ => rfl) _
      | caseElse => rfl
    simp [children, lists, header]
  | tryPart p =>
    cases p with
    | catchPart s =>
      simp [children, lists, filter_isItem_of_phrases (all_ofCatch_isPhrase s)]
    | finallyPart => simp [children, lists]
  | _ => exact filter_isItem_of_phrases (all_children_isPhrase rfl)

theorem listed_of_child {n c : Node} (direct : n.isDirect = true) (member : c ∈ n.children)
    (item : c.isItem = true) : ∃ l ∈ n.lists, c ∈ l := by
  have kept : c ∈ n.children.filter isItem := List.mem_filter.2 ⟨member, item⟩
  rw [filter_isItem_children direct] at kept
  exact List.mem_flatten.1 kept

theorem isDirect_of_listed {n c : Node} {l : List Node} (listed : l ∈ n.lists) (member : c ∈ l) :
    c.isDirect = true := by
  have inStatements (s : Statements) (found : c ∈ ofStatements s) : c.isDirect = true := by
    obtain ⟨st, -, rfl⟩ := List.mem_map.1 found
    exact isDirect_ofStatement st
  have inDeclarations (d : Declarations) (found : c ∈ ofDeclarations d) : c.isDirect = true := by
    obtain ⟨d, -, rfl⟩ := List.mem_map.1 found
    rfl
  unfold lists at listed
  split at listed
  all_goals simp only [List.mem_cons, List.not_mem_nil, or_false, Option.mem_toList,
    Option.map_eq_some_iff] at listed
  all_goals grind

/-- Wherever a tree starts, no declaration in it is wrapped up as a statement. -/
theorem everywhere_isDirect {n : Node} (direct : n.isDirect = true) :
    n.Everywhere fun m => m.isDirect = true := by
  refine everywhere_iff.2 ⟨direct, fun c member => everywhere_isDirect ?_⟩
  cases item : c.isItem with
  | false => exact isDirect_of_isItem_eq_false item
  | true =>
    obtain ⟨l, listed, found⟩ := listed_of_child direct member item
    exact isDirect_of_listed listed found
termination_by sizeOf n
decreasing_by exact sizeOf_mem_children member

end VisualBasic.Node
