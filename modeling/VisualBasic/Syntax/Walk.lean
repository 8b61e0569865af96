import VisualBasic.Syntax.Node

/-!
Walking a syntax tree from the root down, each node before the nodes below it.  A node is smaller
than the node it hangs from, so the walk ends.
-/

set_option autoImplicit false

namespace VisualBasic

namespace Node

theorem sizeOf_mem_map {α : Type} [SizeOf α] {f : α → Node} {l : List α} {c : Node}
    (size : ∀ a, sizeOf (f a) ≤ 1 + sizeOf a) (member : c ∈ l.map f) : sizeOf c ≤ sizeOf l := by
  obtain ⟨a, inList, rfl⟩ := List.mem_map.1 member
  have := List.sizeOf_lt_of_mem inList
  have := size a
  omega

theorem sizeOf_mem_ofOption {α : Type} [SizeOf α] {f : α → Node} {o : Option α} {c : Node}
    (size : ∀ a, sizeOf (f a) ≤ 1 + sizeOf a) (member : c ∈ ofOption f o) :
    sizeOf c ≤ sizeOf o := by
  cases o with
  | none => simp [ofOption] at member
  | some a =>
    simp only [ofOption, Option.map_some, Option.toList_some, List.mem_singleton] at member
    subst member
    have := size a
    simp only [Option.some.sizeOf_spec]
    omega

/-- The nodes of an optional part are no larger than the part when those of the part are. -/
theorem sizeOf_mem_getD {α : Type} [SizeOf α] {f : α → List Node} {o : Option α} {c : Node}
    (size : ∀ a, c ∈ f a → sizeOf c ≤ 1 + sizeOf a) (member : c ∈ (o.map f).getD []) :
    sizeOf c ≤ sizeOf o := by
  cases o with
  | none => simp at member
  | some a =>
    have := size a (by simpa using member)
    simp only [Option.some.sizeOf_spec]
    omega

theorem sizeOf_ofName (n : Name) : sizeOf (ofName n) ≤ 1 + sizeOf n := by
  cases n <;> simp [ofName]

theorem sizeOf_ofStatement (s : Statement) : sizeOf (ofStatement s) ≤ 1 + sizeOf s := by
  cases s <;> simp [ofStatement]

theorem sizeOf_ofInitializer (i : Initializer) : sizeOf (ofInitializer i) ≤ 1 + sizeOf i := by
  cases i <;> simp [ofInitializer]

theorem sizeOf_ofForControl (f : ForControl) : sizeOf (ofForControl f) ≤ 1 + sizeOf f := by
  cases f <;> simp [ofForControl]

variable {c : Node}

theorem sizeOf_mem_ofLabel {l : Label} (h : c ∈ ofLabel l) : sizeOf c ≤ sizeOf l := by
  cases l with
  | name n => simp only [ofLabel, List.mem_singleton] at h; simp [h]
  | lineNumber v s => simp [ofLabel] at h

theorem sizeOf_mem_ofTypeArguments {a : Option TypeArguments} (h : c ∈ ofTypeArguments a) :
    sizeOf c ≤ sizeOf a := by
  refine sizeOf_mem_getD (fun l m => ?_) h
  have := sizeOf_mem_map (by simp) m
  cases l with | mk _ _ args _ _ => cases args; simp at this ⊢; omega

theorem sizeOf_mem_ofTypeParameters {p : Option TypeParameterList} (h : c ∈ ofTypeParameters p) :
    sizeOf c ≤ sizeOf p := by
  refine sizeOf_mem_getD (fun l m => ?_) h
  have := sizeOf_mem_map (by simp) m
  cases l with | mk _ _ params _ _ => cases params; simp at this ⊢; omega

theorem sizeOf_mem_ofBounds {b : Option (ArrayBounds Expression)} (h : c ∈ ofBounds b) :
    sizeOf c ≤ sizeOf b := by
  refine sizeOf_mem_getD (fun l m => ?_) h
  have := sizeOf_mem_map (by simp) m
  cases l with | mk _ _ bounds _ _ => cases bounds; simp at this ⊢; omega

theorem sizeOf_mem_ofArguments {a : Option Arguments} (h : c ∈ ofArguments a) :
    sizeOf c ≤ sizeOf a := by
  refine sizeOf_mem_getD (fun l m => ?_) h
  have := sizeOf_mem_map (by simp) m
  cases l with | mk _ args _ _ => cases args; simp at this ⊢; omega

theorem sizeOf_mem_ofAttributes {blocks : List AttributeBlock} (h : c ∈ ofAttributes blocks) :
    sizeOf c ≤ sizeOf blocks := by
  obtain ⟨b, inBlocks, inBlock⟩ := List.mem_flatMap.1 h
  have := sizeOf_mem_map (by simp) inBlock
  have := List.sizeOf_lt_of_mem inBlocks
  cases b with | mk _ attributes _ _ => cases attributes; simp at *; omega

theorem sizeOf_mem_ofParameters {p : Option ParameterList} (h : c ∈ ofParameters p) :
    sizeOf c ≤ sizeOf p := by
  refine sizeOf_mem_getD (fun l m => ?_) h
  have := sizeOf_mem_map (by simp) m
  cases l with | mk _ params _ _ => cases params; simp at this ⊢; omega

theorem sizeOf_mem_ofReturnType {r : Option ReturnType} (h : c ∈ ofReturnType r) :
    sizeOf c ≤ sizeOf r := by
  refine sizeOf_mem_getD (fun t m => ?_) h
  cases t with
  | mk _ attributes type _ =>
    rcases List.mem_append.1 m with inAttributes | isType
    · have := sizeOf_mem_ofAttributes inAttributes
      simp at this ⊢; omega
    · simp only [List.mem_singleton] at isType
      subst isType; simp; omega

theorem sizeOf_mem_ofImplements {i : Option ImplementsClause} (h : c ∈ ofImplements i) :
    sizeOf c ≤ sizeOf i := by
  refine sizeOf_mem_getD (fun l m => ?_) h
  have := sizeOf_mem_map sizeOf_ofName m
  cases l with | mk _ members _ => cases members; simp at this ⊢; omega

theorem sizeOf_mem_ofHandles {i : Option HandlesClause} (h : c ∈ ofHandles i) :
    sizeOf c ≤ sizeOf i := by
  refine sizeOf_mem_getD (fun l m => ?_) h
  have := sizeOf_mem_map (by simp) m
  cases l with | mk _ events _ => cases events; simp at this ⊢; omega

theorem sizeOf_mem_ofStatements {l : Statements} (h : c ∈ ofStatements l) :
    sizeOf c < sizeOf l := by
  have := sizeOf_mem_map sizeOf_ofStatement h
  cases l; simp at this ⊢; omega

theorem sizeOf_mem_ofDeclarations {l : Declarations} (h : c ∈ ofDeclarations l) :
    sizeOf c < sizeOf l := by
  have := sizeOf_mem_map (by simp) h
  cases l; simp at this ⊢; omega

theorem sizeOf_mem_items {α : Type} [SizeOf α] {f : α → Node} {l : CommaList α}
    (size : ∀ a, sizeOf (f a) ≤ 1 + sizeOf a) (h : c ∈ l.items.map f) : sizeOf c < sizeOf l := by
  have := sizeOf_mem_map size h
  cases l; simp at this ⊢; omega

theorem sizeOf_mem_ofLoopCondition {o : Option LoopCondition} (h : c ∈ ofLoopCondition o) :
    sizeOf c ≤ sizeOf o := by
  refine sizeOf_mem_ofOption (fun l => ?_) h
  cases l; simp; omega

theorem sizeOf_mem_ofCatch {s : CatchStatement} (h : c ∈ ofCatch s) : sizeOf c < sizeOf s := by
  cases s with
  | mk name type filter span =>
    simp only [ofCatch, List.mem_append] at h
    rcases h with (h | h) | h
    all_goals
      have := sizeOf_mem_ofOption (by simp) h
      simp; omega

theorem sizeOf_mem_ofCaseHeader {s : CaseHeader} (h : c ∈ ofCaseHeader s) :
    sizeOf c < sizeOf s := by
  cases s with
  | case s =>
    have := sizeOf_mem_items (by simp) h
    cases s; simp at this ⊢; omega
  | caseElse s => simp [ofCaseHeader] at h

theorem sizeOf_mem_ofResource {r : UsingResource} (h : c ∈ ofResource r) :
    sizeOf c ≤ sizeOf r := by
  cases r with
  | expression e => simp only [ofResource, List.mem_singleton] at h; simp [h]
  | declarators d =>
    have := sizeOf_mem_items (by simp) h
    simp; omega

theorem sizeOf_mem_childrenOfName {n : Name} (h : c ∈ childrenOfName n) :
    sizeOf c < 1 + sizeOf n := by
  cases n with
  | qualified q d n s =>
    have := sizeOf_ofName q
    simp [childrenOfName] at h
    rcases h with rfl | rfl <;> simp <;> omega
  | _ => simp [childrenOfName] at h

theorem sizeOf_mem_childrenOfType {t : TypeName} (h : c ∈ childrenOfType t) :
    sizeOf c < 1 + sizeOf t := by
  cases t with
  | named n s =>
    have := sizeOf_ofName n
    simp [childrenOfType] at h
    subst h; simp; omega
  | constructed n args s =>
    have := sizeOf_ofName n
    simp only [childrenOfType, List.mem_cons] at h
    rcases h with rfl | h
    · simp; omega
    · have := sizeOf_mem_items (by simp) h
      cases args; simp at this ⊢; omega
  | array e r b s =>
    simp only [childrenOfType, List.mem_cons] at h
    rcases h with rfl | h
    · simp; omega
    · have := sizeOf_mem_ofBounds h
      simp; omega
  | _ => simp [childrenOfType] at h

theorem sizeOf_mem_childrenOfExpression {e : Expression} (h : c ∈ childrenOfExpression e) :
    sizeOf c < 1 + sizeOf e := by
  cases e with
  | simpleName n args s =>
    simp only [childrenOfExpression, List.mem_cons] at h
    rcases h with rfl | h
    · simp; omega
    · have := sizeOf_mem_ofTypeArguments h
      simp; omega
  | qualified q d n args s =>
    simp only [childrenOfExpression, List.mem_append, List.mem_cons] at h
    rcases h with h | rfl | h
    · have := sizeOf_mem_ofOption (by simp) h
      simp; omega
    · simp; omega
    · have := sizeOf_mem_ofTypeArguments h
      simp; omega
  | dictionaryLookup q d n s =>
    simp only [childrenOfExpression, List.mem_append, List.mem_singleton] at h
    rcases h with h | rfl
    · have := sizeOf_mem_ofOption (by simp) h
      simp; omega
    · simp; omega
  | callOrIndex t args s =>
    simp only [childrenOfExpression, List.mem_cons] at h
    rcases h with rfl | h
    · simp; omega
    · have := sizeOf_mem_ofArguments h
      simp at this ⊢; omega
  | newObject t args s =>
    simp only [childrenOfExpression, List.mem_cons] at h
    rcases h with rfl | h
    · simp; omega
    · have := sizeOf_mem_ofArguments h
      simp; omega
  | binary l op p r s =>
    simp [childrenOfExpression] at h
    rcases h with rfl | rfl <;> simp <;> omega
  | typeOf e i t s =>
    simp [childrenOfExpression] at h
    rcases h with rfl | rfl <;> simp <;> omega
  | cast k e comma t p s =>
    simp [childrenOfExpression] at h
    rcases h with rfl | rfl <;> simp <;> omega
  | newArray t a s =>
    simp [childrenOfExpression] at h
    rcases h with rfl | rfl <;> simp <;> omega
  | parenthesized | unary | getType | intrinsicCast | addressOf =>
    simp [childrenOfExpression] at h
    subst h; simp; omega
  | _ => simp [childrenOfExpression] at h

theorem sizeOf_mem_childrenOfDeclaration {d : Declaration} (h : c ∈ childrenOfDeclaration d) :
    sizeOf c < 1 + sizeOf d := by
  cases d with
  | imports clauses s =>
    have := sizeOf_mem_items (by simp) h
    simp; omega
  | attributes blocks s =>
    have := sizeOf_mem_ofAttributes h
    simp; omega
  | namespaceBlock d =>
    cases d with
    | mk name members ending span =>
      have := sizeOf_ofName name
      simp only [childrenOfDeclaration, List.mem_cons] at h
      rcases h with rfl | h
      · simp; omega
      · have := sizeOf_mem_ofDeclarations h
        simp; omega
  | type d =>
    rcases d with ⟨kind, ⟨attributes, modifiers⟩, name, typeParameters, members, ending, span⟩
    simp only [childrenOfDeclaration, List.mem_append, List.mem_cons] at h
    rcases h with (h | rfl | h) | h
    · have := sizeOf_mem_ofAttributes h; simp; omega
    · simp; omega
    · have := sizeOf_mem_ofTypeParameters h; simp; omega
    · have := sizeOf_mem_ofDeclarations h; simp; omega
  | enum d =>
    rcases d with ⟨⟨attributes, modifiers⟩, name, underlying, members, ending, span⟩
    simp only [childrenOfDeclaration, List.mem_append, List.mem_cons] at h
    rcases h with (h | rfl | h) | h
    · have := sizeOf_mem_ofAttributes h; simp; omega
    · simp; omega
    · have := sizeOf_mem_ofOption (by simp) h; simp; omega
    · have := sizeOf_mem_ofDeclarations h; simp; omega
  | enumValue d =>
    rcases d with ⟨attributes, name, value, span⟩
    simp only [childrenOfDeclaration, List.mem_append, List.mem_cons] at h
    rcases h with h | rfl | h
    · have := sizeOf_mem_ofAttributes h; simp; omega
    · simp; omega
    · have := sizeOf_mem_ofOption (by simp) h; simp; omega
  | typeList d =>
    rcases d with ⟨kind, types, span⟩
    have := sizeOf_mem_items (by simp) h
    simp at this ⊢; omega
  | variableList d =>
    rcases d with ⟨⟨attributes, modifiers⟩, declarators, span⟩
    simp only [childrenOfDeclaration, List.mem_append] at h
    rcases h with h | h
    · have := sizeOf_mem_ofAttributes h; simp; omega
    · have := sizeOf_mem_items (by simp) h; simp; omega
  | method d =>
    rcases d with ⟨kind, ⟨attributes, modifiers⟩, name, typeParameters, parameters, returnType,
      handled, implemented, body, ending, span⟩
    simp only [childrenOfDeclaration, List.mem_append, List.mem_cons] at h
    rcases h with (((((h | rfl | h) | h) | h) | h) | h) | h
    · have := sizeOf_mem_ofAttributes h; simp; omega
    · simp; omega
    · have := sizeOf_mem_ofTypeParameters h; simp; omega
    · have := sizeOf_mem_ofParameters h; simp; omega
    · have := sizeOf_mem_ofReturnType h; simp; omega
    · have := sizeOf_mem_ofHandles h; simp; omega
    · have := sizeOf_mem_ofImplements h; simp; omega
    · have := sizeOf_mem_getD (fun l m => by have := sizeOf_mem_ofStatements m; omega) h
      simp; omega
  | operator d =>
    rcases d with ⟨⟨attributes, modifiers⟩, operator, operatorSpan, parameters, returnType, body,
      ending, span⟩
    simp only [childrenOfDeclaration, List.mem_append] at h
    rcases h with ((h | h) | h) | h
    · have := sizeOf_mem_ofAttributes h; simp; omega
    · have := sizeOf_mem_ofParameters h; simp; omega
    · have := sizeOf_mem_ofReturnType h; simp; omega
    · have := sizeOf_mem_ofStatements h; simp; omega
  | external d =>
    rcases d with ⟨isFunction, ⟨attributes, modifiers⟩, charset, name, library, aliasName,
      parameters, returnType, span⟩
    simp only [childrenOfDeclaration, List.mem_append, List.mem_cons] at h
    rcases h with (h | rfl | h) | h
    · have := sizeOf_mem_ofAttributes h; simp; omega
    · simp; omega
    · have := sizeOf_mem_ofParameters h; simp; omega
    · have := sizeOf_mem_ofReturnType h; simp; omega
  | delegate d =>
    rcases d with ⟨isFunction, ⟨attributes, modifiers⟩, name, typeParameters, parameters,
      returnType, span⟩
    simp only [childrenOfDeclaration, List.mem_append, List.mem_cons] at h
    rcases h with ((h | rfl | h) | h) | h
    · have := sizeOf_mem_ofAttributes h; simp; omega
    · simp; omega
    · have := sizeOf_mem_ofTypeParameters h; simp; omega
    · have := sizeOf_mem_ofParameters h; simp; omega
    · have := sizeOf_mem_ofReturnType h; simp; omega
  | event d =>
    rcases d with ⟨⟨attributes, modifiers⟩, name, parameters, type, implemented, span⟩
    simp only [childrenOfDeclaration, List.mem_append, List.mem_cons] at h
    rcases h with ((h | rfl | h) | h) | h
    · have := sizeOf_mem_ofAttributes h; simp; omega
    · simp; omega
    · have := sizeOf_mem_ofParameters h; simp; omega
    · have := sizeOf_mem_ofOption (by simp) h; simp; omega
    · have := sizeOf_mem_ofImplements h; simp; omega
  | customEvent d =>
    rcases d with ⟨⟨attributes, modifiers⟩, custom, name, type, implemented, accessors, ending,
      span⟩
    simp only [childrenOfDeclaration, List.mem_append, List.mem_cons] at h
    rcases h with ((h | rfl | h) | h) | h
    · have := sizeOf_mem_ofAttributes h; simp; omega
    · simp; omega
    · have := sizeOf_mem_ofOption (by simp) h; simp; omega
    · have := sizeOf_mem_ofImplements h; simp; omega
    · have := sizeOf_mem_ofDeclarations h; simp; omega
  | property d =>
    rcases d with ⟨⟨attributes, modifiers⟩, name, parameters, returnType, implemented, accessors,
      ending, span⟩
    simp only [childrenOfDeclaration, List.mem_append, List.mem_cons] at h
    rcases h with (((h | rfl | h) | h) | h) | h
    · have := sizeOf_mem_ofAttributes h; simp; omega
    · simp; omega
    · have := sizeOf_mem_ofParameters h; simp; omega
    · have := sizeOf_mem_ofReturnType h; simp; omega
    · have := sizeOf_mem_ofImplements h; simp; omega
    · have := sizeOf_mem_getD (fun l m => by have := sizeOf_mem_ofDeclarations m; omega) h
      simp; omega
  | accessor d =>
    rcases d with ⟨kind, ⟨attributes, modifiers⟩, parameters, body, ending, span⟩
    simp only [childrenOfDeclaration, List.mem_append] at h
    rcases h with (h | h) | h
    · have := sizeOf_mem_ofAttributes h; simp; omega
    · have := sizeOf_mem_ofParameters h; simp; omega
    · have := sizeOf_mem_ofStatements h; simp; omega
  | _ => simp [childrenOfDeclaration] at h

theorem sizeOf_mem_childrenOfStatement {s : Statement} (h : c ∈ childrenOfStatement s) :
    sizeOf c < 1 + sizeOf s := by
  cases s with
  | assignment s =>
    cases s
    simp [childrenOfStatement] at h
    rcases h with rfl | rfl <;> simp <;> omega
  | compoundAssignment s =>
    cases s
    simp [childrenOfStatement] at h
    rcases h with rfl | rfl <;> simp <;> omega
  | midAssignment s =>
    cases s
    simp only [childrenOfStatement, List.mem_append, List.mem_cons] at h
    rcases h with (rfl | rfl | h) | rfl | h
    · simp; omega
    · simp; omega
    · have := sizeOf_mem_ofOption (by simp) h; simp; omega
    · simp; omega
    · simp at h
  | call s =>
    cases s
    simp only [childrenOfStatement, List.mem_cons] at h
    rcases h with rfl | h
    · simp; omega
    · have := sizeOf_mem_ofArguments h; simp; omega
  | localDeclaration s =>
    cases s
    have := sizeOf_mem_items (by simp) h
    simp at this ⊢; omega
  | label l s | goTo l s =>
    have := sizeOf_mem_ofLabel h
    simp; omega
  | returnValue e s | throwException e s | raiseError e s =>
    have := sizeOf_mem_ofOption (by simp) h
    simp; omega
  | raiseEvent n args s =>
    simp only [childrenOfStatement, List.mem_cons] at h
    rcases h with rfl | h
    · simp; omega
    · have := sizeOf_mem_ofArguments h; simp; omega
  | handler s =>
    cases s
    simp [childrenOfStatement] at h
    rcases h with rfl | rfl <;> simp <;> omega
  | onError a s =>
    cases a with
    | goToLabel l => have := sizeOf_mem_ofLabel h; simp; omega
    | _ => simp [childrenOfStatement] at h
  | resume t s =>
    cases t with
    | label l => have := sizeOf_mem_ofLabel h; simp; omega
    | _ => simp [childrenOfStatement] at h
  | reDim p vars s =>
    have := sizeOf_mem_items (by simp) h
    simp; omega
  | erase vars s =>
    have := sizeOf_mem_items (by simp) h
    simp; omega
  | ifBlock b =>
    cases b
    simp only [childrenOfStatement, List.mem_append, List.mem_cons] at h
    rcases h with (rfl | h) | h
    · simp; omega
    · have := sizeOf_mem_ofStatements h; simp; omega
    · have := sizeOf_mem_map (by simp) h; simp; omega
  | lineIf b =>
    cases b
    simp only [childrenOfStatement, List.mem_append, List.mem_cons] at h
    rcases h with (rfl | h) | h
    · simp; omega
    · have := sizeOf_mem_ofStatements h; simp; omega
    · have := sizeOf_mem_getD (fun l m => by have := sizeOf_mem_ofStatements m; omega) h
      simp; omega
  | doBlock b =>
    rcases b with ⟨condition, body, ending, span⟩
    simp only [childrenOfStatement, List.mem_append] at h
    rcases h with (h | h) | h
    · have := sizeOf_mem_ofLoopCondition h; simp; omega
    · have := sizeOf_mem_ofStatements h; simp; omega
    · have := sizeOf_mem_ofLoopCondition h
      cases ending with
      | none => simp [ofLoopCondition, ofOption] at h
      | some e => cases e; simp at this ⊢; omega
  | forBlock b =>
    rcases b with ⟨control, equals, lower, toKeyword, upper, step, body, ending, endingVariable,
      span⟩
    have := sizeOf_ofForControl control
    simp only [childrenOfStatement, List.mem_append, List.mem_cons] at h
    rcases h with ((rfl | rfl | rfl | h) | h) | h
    · simp; omega
    · simp; omega
    · simp; omega
    · have := sizeOf_mem_ofOption (by simp) h; simp; omega
    · have := sizeOf_mem_ofStatements h; simp; omega
    · have := sizeOf_mem_ofOption (by simp) h; simp; omega
  | forEachBlock b =>
    rcases b with ⟨control, inKeyword, collection, body, ending, endingVariable, span⟩
    have := sizeOf_ofForControl control
    simp only [childrenOfStatement, List.mem_append, List.mem_cons] at h
    rcases h with (rfl | rfl | h) | h
    · simp; omega
    · simp; omega
    · have := sizeOf_mem_ofStatements h; simp; omega
    · have := sizeOf_mem_ofOption (by simp) h; simp; omega
  | whileBlock b =>
    cases b
    simp only [childrenOfStatement, List.mem_cons] at h
    rcases h with rfl | h
    · simp; omega
    · have := sizeOf_mem_ofStatements h; simp; omega
  | objectBlock b =>
    cases b
    simp only [childrenOfStatement, List.mem_cons] at h
    rcases h with rfl | h
    · simp; omega
    · have := sizeOf_mem_ofStatements h; simp; omega
  | usingBlock b =>
    cases b
    simp only [childrenOfStatement, List.mem_append] at h
    rcases h with h | h
    · have := sizeOf_mem_ofResource h; simp; omega
    · have := sizeOf_mem_ofStatements h; simp; omega
  | tryBlock b =>
    cases b
    simp only [childrenOfStatement, List.mem_append] at h
    rcases h with h | h
    · have := sizeOf_mem_ofStatements h; simp; omega
    · have := sizeOf_mem_map (by simp) h; simp; omega
  | selectBlock b =>
    cases b
    simp only [childrenOfStatement, List.mem_append, List.mem_cons] at h
    rcases h with (rfl | h) | h
    · simp; omega
    · have := sizeOf_mem_ofStatements h; simp; omega
    · have := sizeOf_mem_map (by simp) h; simp; omega
  | loop s =>
    cases s
    have := sizeOf_mem_ofLoopCondition h
    simp at this ⊢; omega
  | next s =>
    cases s
    have := sizeOf_mem_items (by simp) h
    simp at this ⊢; omega
  | elseIf s =>
    cases s
    simp [childrenOfStatement] at h
    subst h; simp; omega
  | case s =>
    cases s
    have := sizeOf_mem_items (by simp) h
    simp at this ⊢; omega
  | catchPart s =>
    have := sizeOf_mem_ofCatch h
    simp; omega
  | declaration d =>
    have := sizeOf_mem_childrenOfDeclaration h
    simp; omega
  | _ => simp [childrenOfStatement] at h

theorem sizeOf_mem_childrenOfDeclarator {d : VariableDeclarator}
    (h : c ∈ childrenOfDeclarator d) : sizeOf c < 1 + sizeOf d := by
  cases d with
  | mk names asClause equals initializer span =>
    simp only [childrenOfDeclarator, List.mem_append] at h
    rcases h with (h | h) | h
    · have := sizeOf_mem_items (by simp) h; simp; omega
    · have := sizeOf_mem_getD (fun a m => by
        cases a with
        | mk _ _ type arguments _ =>
          rcases List.mem_cons.1 m with rfl | m
          · simp; omega
          · have := sizeOf_mem_ofArguments m
            simp at this ⊢; omega) h
      simp; omega
    · have := sizeOf_mem_ofOption sizeOf_ofInitializer h; simp; omega

/-- A node is larger than each of its children. -/
theorem sizeOf_mem_children {n : Node} (h : c ∈ n.children) : sizeOf c < sizeOf n := by
  cases n with
  | file f =>
    have := sizeOf_mem_ofDeclarations h
    cases f; simp at this ⊢; omega
  | script s =>
    have := sizeOf_mem_ofStatements h
    cases s; simp at this ⊢; omega
  | declaration d =>
    have := sizeOf_mem_childrenOfDeclaration h
    simp; omega
  | statement s =>
    have := sizeOf_mem_childrenOfStatement h
    simp; omega
  | expression e =>
    have := sizeOf_mem_childrenOfExpression h
    simp; omega
  | typeName t =>
    have := sizeOf_mem_childrenOfType h
    simp; omega
  | name n =>
    have := sizeOf_mem_childrenOfName h
    simp; omega
  | simpleName n => simp [children] at h
  | variableName n =>
    cases n
    simp only [children, List.mem_cons] at h
    rcases h with rfl | h
    · simp; omega
    · have := sizeOf_mem_ofBounds h; simp; omega
  | argument a =>
    cases a
    simp only [children, List.mem_append] at h
    rcases h with h | h
    · have := sizeOf_mem_ofOption (by simp) h; simp; omega
    · have := sizeOf_mem_ofOption (by simp) h; simp; omega
  | aggregate a =>
    have := sizeOf_mem_items sizeOf_ofInitializer h
    cases a; simp at this ⊢; omega
  | declarator d =>
    have := sizeOf_mem_childrenOfDeclarator h
    simp; omega
  | parameter p =>
    cases p
    simp only [children, List.mem_append, List.mem_cons] at h
    rcases h with (h | rfl | h) | h
    · have := sizeOf_mem_ofAttributes h; simp; omega
    · simp; omega
    · have := sizeOf_mem_ofOption (by simp) h; simp; omega
    · have := sizeOf_mem_ofOption (by simp) h; simp; omega
  | typeParameter p =>
    cases p
    simp only [children, List.mem_cons] at h
    rcases h with rfl | h
    · simp; omega
    · have := sizeOf_mem_getD (fun l m => by
        have := sizeOf_mem_map (by simp) m
        cases l with | mk _ _ constraints _ _ => cases constraints; simp at this ⊢; omega) h
      simp; omega
  | constraint k =>
    cases k with
    | type t => simp [children] at h; subst h; simp
    | _ => simp [children] at h
  | arrayBound b =>
    cases b
    simp only [children, List.mem_append, List.mem_singleton] at h
    rcases h with h | rfl
    · have := sizeOf_mem_ofOption (by simp) h; simp; omega
    · simp; omega
  | appliedAttribute a =>
    rcases a with ⟨target, name, arguments, span⟩
    have := sizeOf_ofName name
    simp only [children, List.mem_cons] at h
    rcases h with rfl | h
    · simp; omega
    · have := sizeOf_mem_ofArguments h; simp; omega
  | importsClause k =>
    cases k
    simp only [children, List.mem_append, List.mem_singleton] at h
    rcases h with h | rfl
    · have := sizeOf_mem_ofOption (by simp) h; simp; omega
    · simp; omega
  | handlesItem i =>
    rcases i with ⟨source, dot, event, span⟩
    have := sizeOf_ofName source
    simp [children] at h
    rcases h with rfl | rfl <;> simp <;> omega
  | caseClause k =>
    cases k with
    | value e => simp [children] at h; subst h; simp
    | range l t u s =>
      simp [children] at h
      rcases h with rfl | rfl <;> simp <;> omega
    | relational i op e s => simp [children] at h; subst h; simp; omega
  | ifPart p =>
    cases p with
    | elseIf header body span =>
      cases header
      simp only [children, List.mem_cons] at h
      rcases h with rfl | h
      · simp; omega
      · have := sizeOf_mem_ofStatements h; simp; omega
    | elsePart header body span =>
      have := sizeOf_mem_ofStatements h
      simp; omega
  | caseBlock b =>
    cases b
    simp only [children, List.mem_append] at h
    rcases h with h | h
    · have := sizeOf_mem_ofCaseHeader h; simp; omega
    · have := sizeOf_mem_ofStatements h; simp; omega
  | tryPart p =>
    cases p with
    | catchPart header body span =>
      simp only [children, List.mem_append] at h
      rcases h with h | h
      · have := sizeOf_mem_ofCatch h; simp; omega
      · have := sizeOf_mem_ofStatements h; simp; omega
    | finallyPart header body span =>
      have := sizeOf_mem_ofStatements h
      simp; omega

/-- All nodes from `n` down with their depths, each before the nodes below it. -/
def walk (n : Node) (depth : Nat) : List (Node × Nat) :=
  (n, depth) :: n.children.attach.flatMap fun child => walk child.1 (depth + 1)
termination_by sizeOf n
decreasing_by exact sizeOf_mem_children child.2

/-- The nodes of the tree below a node, that node first. -/
def nodes (n : Node) : List Node := (n.walk 0).map Prod.fst

theorem map_fst_walk (n : Node) (depth : Nat) : (n.walk depth).map Prod.fst = n.nodes := by
  unfold nodes
  generalize 0 = other
  fun_induction walk n depth generalizing other with
  | case1 n depth ih =>
    rw [walk]
    simp only [List.map_cons, List.map_flatMap]
    congr 2
    funext child
    exact ih child (other + 1)

theorem nodes_eq (n : Node) : n.nodes = n :: n.children.flatMap nodes := by
  rw [nodes, walk]
  simp only [List.map_cons, List.map_flatMap, map_fst_walk]
  rw [List.flatMap_subtype (g := nodes) (by simp), List.unattach_attach]

end Node

end VisualBasic
