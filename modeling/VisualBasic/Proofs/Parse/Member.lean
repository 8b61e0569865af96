import VisualBasic.Parse.Declaration
import VisualBasic.Proofs.Parse.Rule

/-!
What the rules for members give: the member that they are called for, with the modifiers that have
been read before it.
-/

set_option autoImplicit false

namespace VisualBasic

/-- Whether a member is allowed depends on its place and its modifiers. -/
theorem Declaration.isAllowedIn_of_member {d : Declaration} {member : Member}
    (isMember : d.member? = some member) (container : Container) :
    d.isAllowedIn container = ((member.placementProblem? container).isNone
      && d.modifiers?.all fun list => list.keeps (member.modifiersIn container)) := by
  cases d <;> cases isMember <;> rfl

namespace Parse

variable {r : Rules} {b : Bodies} {s : ParseState} {start : Location} {head : DeclarationHead}
  {member : Member} {d : Declaration}

/-- The declaration is the member with its modifiers, or it breaks off. -/
structure Introduces (start : Location) (head : DeclarationHead) (member : Member)
    (d : Declaration) : Prop where
  starts : d.span.start = start
  shape : (d.member? = some member ∧ d.modifiers?.getD head.modifiers = head.modifiers) ∨
    ∃ span, d = .bad span

theorem Introduces.isAllowedIn {container : Container} (found : Introduces start head member d)
    (placed : member.placementProblem? container = none)
    (keeps : head.modifiers.keeps (member.modifiersIn container) = true) :
    d.isAllowedIn container = true := by
  rcases found.shape with ⟨isMember, same⟩ | ⟨span, rfl⟩
  · rw [Declaration.isAllowedIn_of_member isMember, placed]
    cases modified : d.modifiers? with
    | none => rfl
    | some list =>
      rw [modified, Option.getD_some] at same
      rw [Option.all_some, same, keeps]
      rfl
  · rfl

theorem endStatement_start (start : Location) (s : ParseState) :
    Ensures (endStatement start) s fun span _ => span.start = start := by
  refine .spanFrom (.atStatementEnd ?_)
  split <;> rfl

theorem badDeclaration_introduces (problem : Problem) :
    Ensures (badDeclaration start problem) s fun d _ => Introduces start head member d :=
  ⟨rfl, .inr ⟨_, rfl⟩⟩

theorem fieldDeclaration_introduces :
    Ensures (fieldDeclaration r start head) s fun d _ => Introduces start head .field d :=
  Ensures.any.bind fun _ t _ =>
    (endStatement_start start t).bind fun _ _ same => ⟨same, .inl ⟨rfl, rfl⟩⟩

/-- A namespace shows no modifiers. -/
theorem namespaceDeclaration_introduces :
    Ensures (namespaceDeclaration b start) s fun d _ => Introduces start head .namespaceBlock d :=
  ⟨rfl, .inl ⟨rfl, rfl⟩⟩

theorem typeDeclaration_introduces (kind : TypeKind) :
    Ensures (typeDeclaration r b start head kind) s fun d _ =>
      Introduces start head (.type kind) d := by
  refine Ensures.any.bind fun _ t _ => Ensures.any.bind fun name u _ => ?_
  exact .branch (fun _ => .any) (fun _ => .any) fun _ _ _ => ⟨rfl, .inl ⟨rfl, rfl⟩⟩

theorem enumDeclaration_introduces :
    Ensures (enumDeclaration r b start head) s fun d _ => Introduces start head .enum d :=
  ⟨rfl, .inl ⟨rfl, rfl⟩⟩

theorem methodDeclaration_introduces {kind : MethodKind} (container : Container)
    (named : (if kind = .constructor then .constructor else .method) = member) :
    Ensures (methodDeclaration r b start head kind container) s fun d _ =>
      Introduces start head member d := by
  refine Ensures.any.bind fun _ t _ => ?_
  extract_lets rest
  have goOn (name : SimpleName) (u : ParseState) :
      Ensures (rest name) u fun d _ => Introduces start head member d := by
    refine .branch (fun _ => .any) (fun _ => .any) fun _ v _ => Ensures.any.bind fun _ w _ => ?_
    refine .branch (fun _ => .any) (fun _ => .any) fun _ x _ => ?_
    refine Ensures.any.bind fun _ y _ => Ensures.any.bind fun _ z _ =>
      Ensures.any.bind fun _ s _ => ?_
    have shape := congrArg some named
    split
    next => exact ⟨rfl, .inl ⟨shape, rfl⟩⟩
    next =>
      exact Ensures.any.bind fun _ t _ => Ensures.any.bind fun _ u _ => ⟨rfl, .inl ⟨shape, rfl⟩⟩
  split
  next => exact Ensures.any.bind fun _ u _ => goOn _ u
  next => exact Ensures.any.bind fun name u _ => goOn name u

theorem operatorDeclaration_introduces :
    Ensures (operatorDeclaration r b start head) s fun d _ => Introduces start head .operator d :=
  ⟨rfl, .inl ⟨rfl, rfl⟩⟩

theorem singleAccessorProperty_introduces :
    Ensures (singleAccessorProperty r b start head) s fun d _ =>
      Introduces start head .property d := by
  refine Ensures.any.bind fun _ t _ => Ensures.any.bind fun _ u _ => Ensures.any.bind fun _ v _ => ?_
  exact .branch (fun _ => .any) (fun _ => .any) fun _ _ _ => ⟨rfl, .inl ⟨rfl, rfl⟩⟩

theorem propertyDeclaration_introduces (container : Container) :
    Ensures (propertyDeclaration r b start head container) s fun d _ =>
      Introduces start head .property d := by
  refine Ensures.any.bind fun _ t _ => .peekKind ?_
  have single : Ensures (singleAccessorProperty r b start head) t fun d _ =>
      Introduces start head .property d := singleAccessorProperty_introduces
  split
  · exact single
  · exact single
  · exact single
  · refine Ensures.any.bind fun _ u _ => Ensures.any.bind fun _ v _ =>
      Ensures.any.bind fun _ w _ => Ensures.any.bind fun _ x _ => Ensures.any.bind fun _ y _ => ?_
    split
    next => exact ⟨rfl, .inl ⟨rfl, rfl⟩⟩
    next =>
      exact Ensures.any.bind fun _ t _ => Ensures.any.bind fun _ u _ => ⟨rfl, .inl ⟨rfl, rfl⟩⟩

theorem eventDeclaration_introduces :
    Ensures (eventDeclaration r start head) s fun d _ => Introduces start head .event d := by
  refine Ensures.any.bind fun _ t _ => Ensures.any.bind fun _ u _ => Ensures.any.bind fun _ v _ => ?_
  refine .branch (fun _ => .any) (fun _ => .any) fun _ w _ => Ensures.any.bind fun _ x _ => ?_
  exact (endStatement_start start x).bind fun _ _ same => ⟨same, .inl ⟨rfl, rfl⟩⟩

theorem customEventDeclaration_introduces :
    Ensures (customEventDeclaration r b start head) s fun d _ =>
      Introduces start head .customEvent d := by
  refine Ensures.any.bind fun _ t _ => Ensures.any.bind fun _ u _ => Ensures.any.bind fun _ v _ =>
    Ensures.any.bind fun found w _ => ?_
  cases found <;> exact ⟨rfl, .inl ⟨rfl, rfl⟩⟩

theorem delegateDeclaration_introduces :
    Ensures (delegateDeclaration r start head) s fun d _ => Introduces start head .delegate d := by
  refine Ensures.any.bind fun _ t _ => .peekKind ?_
  split
  next => exact badDeclaration_introduces _
  next =>
    refine Ensures.any.bind fun _ u _ => Ensures.any.bind fun _ v _ => Ensures.any.bind fun _ w _ =>
      Ensures.any.bind fun _ x _ => ?_
    refine .branch (fun _ => .any) (fun _ => .any) fun _ y _ => ?_
    exact (endStatement_start start y).bind fun _ _ same => ⟨same, .inl ⟨rfl, rfl⟩⟩

theorem externalDeclaration_introduces :
    Ensures (externalDeclaration r start head) s fun d _ => Introduces start head .external d := by
  refine Ensures.any.bind fun _ t _ => Ensures.any.bind fun charset u _ => .peekKind ?_
  split
  next => exact badDeclaration_introduces _
  next =>
    refine Ensures.any.bind fun _ t _ => Ensures.any.bind fun name u _ =>
      Ensures.any.bind fun keyword v _ => ?_
    extract_lets afterLibrary
    have parts (library : Option String) (w : ParseState) :
        Ensures (afterLibrary library) w fun d _ => Introduces start head .external d := by
      refine Ensures.any.bind fun aliasKeyword x _ => ?_
      extract_lets afterAlias
      have signature (aliasName : Option String) (y : ParseState) :
          Ensures (afterAlias aliasName) y fun d _ => Introduces start head .external d := by
        refine Ensures.any.bind fun parameters z _ => ?_
        refine .branch (fun _ => .any) (fun _ => .any) fun _ p _ => ?_
        exact (endStatement_start start p).bind fun _ _ same => ⟨same, .inl ⟨rfl, rfl⟩⟩
      cases aliasKeyword with
      | none => exact signature none x
      | some _ => exact Ensures.any.bind fun aliasName y _ => signature aliasName y
    cases keyword with
    | none => exact parts none v
    | some _ => exact Ensures.any.bind fun library w _ => parts library w

theorem memberDeclaration_introduces (container : Container) (member : Member) :
    Ensures (memberDeclaration r b start head container member) s fun d _ =>
      Introduces start head member d := by
  refine .peek ?_
  extract_lets methodKind rest
  have goOn (t : ParseState) : Ensures (rest ()) t fun d _ => Introduces start head member d := by
    refine Ensures.any.bind fun _ u _ => ?_
    cases member with
    | namespaceBlock => exact namespaceDeclaration_introduces
    | type kind => exact typeDeclaration_introduces kind
    | enum => exact enumDeclaration_introduces
    | field => exact fieldDeclaration_introduces
    | method =>
      refine methodDeclaration_introduces container (if_neg ?_)
      unfold methodKind
      split <;> simp
    | constructor => exact methodDeclaration_introduces container rfl
    | operator => exact operatorDeclaration_introduces
    | property => exact propertyDeclaration_introduces container
    | event => exact eventDeclaration_introduces
    | customEvent => exact customEventDeclaration_introduces
    | delegate => exact delegateDeclaration_introduces
    | external => exact externalDeclaration_introduces
  split
  next => exact Ensures.any.bind fun _ t _ => goOn t
  next => exact goOn s

-- What comes in which turn is told by the first token

/-- The rank of a declaration that starts with a token of the kind. -/
def rankOf : TokenKind → Nat
  | .word .kwInherits => 0
  | .word .kwImplements => 1
  | _ => 2

theorem Introduces.rank_eq (found : Introduces start head member d) :
    (Node.declaration d).rank = 2 := by
  rcases found.shape with ⟨isMember, -⟩ | ⟨span, rfl⟩
  · cases d <;> first | rfl | cases isMember
  · rfl

theorem typeList_rank (kind : TypeListKind) (container : Container) :
    Ensures (typeList r kind container) s fun d _ =>
      (Node.declaration d).rank = if kind = .inheritsFrom then 0 else 1 := by
  refine Ensures.any.bind fun keyword t _ => ?_
  extract_lets span rest
  have goOn (u : ParseState) : Ensures (rest ()) u fun d _ =>
      (Node.declaration d).rank = if kind = .inheritsFrom then 0 else 1 := by
    refine Ensures.any.bind fun types v _ => ?_
    extract_lets close
    have closes (w : ParseState) : Ensures (close ()) w fun d _ =>
        (Node.declaration d).rank = if kind = .inheritsFrom then 0 else 1 := rfl
    split
    · exact Ensures.any.bind fun _ w _ => closes w
    · exact closes v
  split
  · exact goOn t
  · exact Ensures.any.bind fun _ u _ => goOn u

theorem declarationAfter_rank (attributes : List AttributeBlock) (container : Container) :
    Ensures (declarationAfter r b start attributes container) s fun d _ =>
      (Node.declaration d).rank = 2 := by
  unfold declarationAfter
  split
  · refine .peek ?_
    split <;> rfl
  · refine Ensures.any.bind fun modifiers t _ => ?_
    have accessor (ofProperty : Bool) :
        Ensures (accessorIn r b start ⟨attributes, modifiers⟩ ofProperty) t fun d _ =>
          (Node.declaration d).rank = 2 := by
      refine .peekKind ?_
      extract_lets kind
      cases kind.filter fun k => k.isOfProperty == ofProperty <;> rfl
    split
    · exact accessor true
    · split
      · exact accessor false
      · refine Ensures.any.bind fun _ u _ => .get ?_
        split
        · rfl
        · exact (memberDeclaration_introduces container _).mono fun _ _ found => found.rank_eq

theorem declaration_rank (container : Container) :
    Ensures (declaration r b container) s fun d _ => (Node.declaration d).rank = rankOf s.kind := by
  refine .peek (.get ?_)
  have terminates {x : Terminator} (stands : s.terminator? = some x) : rankOf s.kind = 2 := by
    unfold rankOf
    split
    next word => simp [ParseState.terminator?, Lookahead.terminator?, word] at stands
    next word => simp [ParseState.terminator?, Lookahead.terminator?, word] at stands
    next => rfl
  split
  next stands => exact Ensures.any.bind fun _ t _ => (terminates stands).symm
  next stands => exact (terminates stands).symm
  next =>
    split
    next word =>
      rw [show s.kind = _ from word]
      refine Ensures.any.bind fun _ t _ => Ensures.any.bind fun _ u _ => .peek ?_
      split
      · rfl
      · refine Ensures.any.bind fun _ u _ => ?_
        exact .branch (fun _ => .any) (fun _ => .any) fun _ _ _ => rfl
    next word =>
      rw [show s.kind = _ from word]
      exact Ensures.any.bind fun _ t _ => rfl
    next word =>
      rw [show s.kind = _ from word]
      exact typeList_rank .inheritsFrom container
    next word =>
      rw [show s.kind = _ from word]
      exact typeList_rank .implementsAll container
    next noInherits noImplements =>
      have other : rankOf s.kind = 2 := by
        unfold rankOf
        split
        next word => exact absurd word noInherits
        next word => exact absurd word noImplements
        next => rfl
      rw [other]
      refine Ensures.any.bind fun _ t _ => Ensures.any.bind fun attributes u _ => .atStatementEnd ?_
      split
      · exact Ensures.any.bind fun _ v _ => rfl
      · exact declarationAfter_rank attributes container

end Parse

namespace DeclarationOrder

/-- The node can still come in the container. -/
structure Admits (o : DeclarationOrder) (container : Container) (n : Node) : Prop where
  members : o.members = true → n.rank = 2
  interfaces : o.implements = true → n.rank ≠ 0
  base : o.inherits = true → container = .type .classType → n.rank ≠ 0

/-- All nodes are allowed in the container and come in their turn, from the given order on. -/
structure Orders (o : DeclarationOrder) (container : Container) (ns : List Node) : Prop where
  allowed : ∀ n ∈ ns, n.isAllowedIn container = true
  admitted : ∀ n ∈ ns, o.Admits container n
  order : ns.Pairwise (Node.Precedes container)

variable {o next : DeclarationOrder} {container : Container} {kind : TokenKind}
  {isFileAttribute : Bool} {n m : Node} {ns : List Node}

theorem orders_nil : o.Orders container [] := ⟨by simp, by simp, .nil⟩

/-- Only types name bases and interfaces. -/
theorem container_of_rank (allowed : n.isAllowedIn container = true) :
    (n.rank = 0 → container = .type .classType ∨ container = .type .interfaceType) ∧
      (n.rank = 1 → container = .type .classType ∨ container = .type .structureType) ∧
      n.rank ≤ 2 := by
  cases n with
  | declaration d =>
    cases d with
    | typeList l =>
      simp only [Node.isAllowedIn, Declaration.isAllowedIn, Bool.and_eq_true] at allowed
      have placed := allowed.1
      unfold TypeListKind.isAllowedIn at placed
      unfold Node.rank
      split at placed <;> simp_all
    | _ => simp [Node.rank]
  | _ => simp [Node.rank]

/-- What is known of an order that a token keeps. -/
theorem after_cases (inOrder : o.after container kind isFileAttribute = (none, next))
    (allowed : n.isAllowedIn container = true) (rank : n.rank = Parse.rankOf kind) :
    (n.rank = 0 ∧ o.members = false ∧ o.implements = false ∧ next = { o with inherits := true } ∧
        (container = .type .classType → o.inherits = false)) ∨
      (n.rank = 1 ∧ o.members = false ∧ next = { o with implements := true }) ∨
      (n.rank = 2 ∧ (container = .file ∨ next.members = true)) := by
  obtain ⟨based, supported, bounded⟩ := container_of_rank allowed
  unfold after at inOrder
  split at inOrder
  next => exact .inr (.inr ⟨by grind, .inl rfl⟩)
  next =>
    simp only [afterInherits, Prod.mk.injEq] at inOrder
    exact .inl ⟨rank, by grind⟩
  next =>
    simp only [afterInherits, Prod.mk.injEq] at inOrder
    exact .inl ⟨rank, by grind⟩
  next =>
    simp only [afterImplements, Prod.mk.injEq] at inOrder
    exact .inr (.inl ⟨rank, by grind⟩)
  next =>
    simp only [afterImplements, Prod.mk.injEq] at inOrder
    exact .inr (.inl ⟨rank, by grind⟩)
  next noFile noClassBase noInterfaceBase noClass noStructure =>
    obtain ⟨-, rfl⟩ := Prod.mk.inj inOrder
    refine .inr (.inr ⟨?_, .inr rfl⟩)
    unfold Parse.rankOf at rank
    split at rank
    next => rcases based rank with same | same <;> simp_all
    next => rcases supported rank with same | same <;> simp_all
    next => exact rank

/-- A node whose first token is in order comes before those that can come behind it. -/
theorem orders_cons (inOrder : o.after container kind isFileAttribute = (none, next))
    (allowed : n.isAllowedIn container = true) (rank : n.rank = Parse.rankOf kind)
    (rest : next.Orders container ns) : o.Orders container (n :: ns) := by
  have kept := after_cases inOrder allowed rank
  have own : o.Admits container n := by
    rcases kept with ⟨first, noMembers, noInterfaces, -, single⟩ | ⟨first, noMembers, -⟩ | ⟨last, -⟩
    · exact ⟨by simp [noMembers], by simp [noInterfaces],
        fun found isClass => by simp [single isClass] at found⟩
    · exact ⟨by simp [noMembers], by simp [first], by simp [first]⟩
    · exact ⟨by simp [last], by simp [last], by simp [last]⟩
  have behind (m : Node) (member : m ∈ ns) : o.Admits container m ∧ n.Precedes container m := by
    obtain ⟨members, interfaces, base⟩ := rest.admitted m member
    obtain ⟨based, supported, bounded⟩ := container_of_rank (rest.allowed m member)
    rcases kept with ⟨first, noMembers, noInterfaces, rfl, single⟩ | ⟨first, noMembers, rfl⟩
      | ⟨last, atEnd⟩
    · refine ⟨⟨members, interfaces, fun _ => base rfl⟩, by omega, fun isClass _ => base rfl isClass⟩
    · have late := interfaces rfl
      exact ⟨⟨members, fun _ => late, fun _ _ => late⟩, by omega, fun _ _ => late⟩
    · have late : m.rank = 2 := by
        rcases atEnd with rfl | past
        · have noBase : m.rank ≠ 0 := fun none => by simpa using based none
          have noInterface : m.rank ≠ 1 := fun one => by simpa using supported one
          omega
        · exact members past
      exact ⟨⟨fun _ => late, by simp [late], by simp [late]⟩, by omega, by simp [late]⟩
  exact ⟨List.forall_mem_cons.2 ⟨allowed, rest.allowed⟩,
    List.forall_mem_cons.2 ⟨own, fun m member => (behind m member).1⟩,
    List.pairwise_cons.2 ⟨fun m member => (behind m member).2, rest.order⟩⟩

end DeclarationOrder

end VisualBasic
