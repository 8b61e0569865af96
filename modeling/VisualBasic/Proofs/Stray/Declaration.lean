import VisualBasic.Proofs.Parse.Declaration
import VisualBasic.Proofs.Stray.Block

/-!
Terminators in the bodies of declarations.
-/

set_option autoImplicit false

namespace VisualBasic

namespace Declaration

/-- The declaration is neither a block nor a terminator. -/
def isSimple : Declaration → Bool
  | .option _ _ _ | .imports _ _ | .attributes _ _ | .enumValue _ | .typeList _ | .variableList _
  | .external _ | .delegate _ | .event _ | .bad _ => true
  | _ => false

theorem sits_of_isSimple {kinds : List BlockKind} {d : Declaration} (simple : d.isSimple = true) :
    (Node.declaration d).Sits kinds := by
  have expressions := Node.all_ofOption_isPhrase (f := Node.expression) fun _ => rfl
  have types := Node.all_ofOption_isPhrase (f := Node.typeName) fun _ => rfl
  have declarators (l : CommaList VariableDeclarator) :
      (Node.ofDeclarators l).all Node.isPhrase = true := Node.all_map_isPhrase (fun _ => rfl) _
  have phrases : (Node.declaration d).children.all Node.isPhrase = true := by
    cases d with
    | option | bad => rfl
    | imports | typeList => exact Node.all_map_isPhrase (fun _ => rfl) _
    | attributes => exact Node.all_ofAttributes_isPhrase _
    | enumValue | variableList | external | delegate | event =>
      simp only [Node.children, Node.childrenOfDeclaration, List.all_cons, List.all_append,
        Node.all_ofAttributes_isPhrase, Node.all_ofParameters_isPhrase,
        Node.all_ofTypeParameters_isPhrase, Node.all_ofReturnType_isPhrase,
        Node.all_ofImplements_isPhrase, declarators, expressions, types]
      try rfl
    | _ => simp [isSimple] at simple
  refine Node.sits_of_phrases ?_ ?_ phrases
  all_goals cases d <;> first | rfl | simp [isSimple] at simple

end Declaration

namespace Parse

variable {r : Rules} {b : Bodies} {depth : Nat} {s : ParseState}

section

variable {lo : Nat} {o : ParseState} {start : Location} {head : DeclarationHead}

theorem namespaceDeclaration_sits (sit : b.Sit depth) (wf : s.Wf) (solid : s.kind.isSolid = true)
    (bound : s.remaining ≤ depth) :
    Ensures (namespaceDeclaration b start) s fun d _ => (Node.declaration d).Sits s.openKinds := by
  refine skip_ensures wf solid fun so fewer same => ?_
  refine (so.part (name_yields so.wf)).bind fun name t so => ?_
  refine (so.endStatement _).bind fun header u facts => ?_
  obtain ⟨-, so⟩ := facts
  have left := so.later.remaining
  refine (declarationBody_sits sit .namespaceBlock header .namespaceBody so.wf (by omega)).bind
    fun found v each => ?_
  refine (takeEnd_kind .namespaceBlock found.2 v).bind fun ending w ends => ?_
  rw [so.openKinds, same] at each
  refine .of_body [Node.ofName name] rfl rfl (Node.endsAsOpened_of_map rfl ends) rfl ?_ each
  rw [List.all_cons, Node.isPhrase_ofName]
  rfl

theorem typeDeclaration_sits (phrases : r.Sound) (sit : b.Sit depth) (kind : TypeKind) (wf : s.Wf)
    (solid : s.kind.isSolid = true) (bound : s.remaining ≤ depth) :
    Ensures (typeDeclaration r b start head kind) s fun d _ =>
      (Node.declaration d).Sits s.openKinds := by
  refine skip_ensures wf solid fun so fewer same => ?_
  refine (so.part (identifier_yields so.wf)).bind fun name t so => ?_
  refine so.partUnless Node.ofTypeParameters rfl
    (fun _ => typeParameters_yields phrases so.wf) fun parameters u so => ?_
  refine (so.endStatement _).bind fun header v facts => ?_
  obtain ⟨-, so⟩ := facts
  have left := so.later.remaining
  refine (declarationBody_sits sit kind.block header (.type kind) so.wf (by omega)).bind
    fun found w each => ?_
  refine (takeEnd_kind kind.block found.2 w).bind fun ending x ends => ?_
  rw [so.openKinds, same] at each
  refine .of_body (Node.ofAttributes head.attributes ++ .simpleName name
    :: Node.ofTypeParameters parameters) rfl rfl (Node.endsAsOpened_of_map rfl ends) rfl ?_ each
  rw [List.all_append, List.all_cons, Node.all_ofAttributes_isPhrase, Node.all_ofTypeParameters_isPhrase]
  rfl

theorem enumDeclaration_sits (phrases : r.Sound) (sit : b.Sit depth) (wf : s.Wf)
    (solid : s.kind.isSolid = true) (bound : s.remaining ≤ depth) :
    Ensures (enumDeclaration r b start head) s fun d _ =>
      (Node.declaration d).Sits s.openKinds := by
  refine skip_ensures wf solid fun so fewer same => ?_
  refine (so.part (identifier_yields so.wf)).bind fun name t so => ?_
  refine (so.whenEaten (Node.ofOption .typeName) rfl rfl
    fun _ wf => elementType_yields phrases wf).bind fun underlying u so => ?_
  refine (so.endStatement _).bind fun header v facts => ?_
  obtain ⟨-, so⟩ := facts
  have left := so.later.remaining
  refine (declarationBody_sits sit .enumBlock header .enumBody so.wf (by omega)).bind
    fun found w each => ?_
  refine (takeEnd_kind .enumBlock found.2 w).bind fun ending x ends => ?_
  rw [so.openKinds, same] at each
  refine .of_body (Node.ofAttributes head.attributes ++ .simpleName name
    :: Node.ofOption .typeName underlying) rfl rfl (Node.endsAsOpened_of_map rfl ends) rfl ?_ each
  rw [List.all_append, List.all_cons, Node.all_ofAttributes_isPhrase,
    Node.all_ofOption_isPhrase fun _ => rfl]
  rfl

theorem methodDeclaration_sits (phrases : r.Sound) (sit : b.Sit depth) (kind : MethodKind)
    (container : Container) (wf : s.Wf) (solid : s.kind.isSolid = true)
    (named : kind = .constructor → s.kindAfter = .word .kwNew) (bound : s.remaining ≤ depth) :
    Ensures (methodDeclaration r b start head kind container) s fun d _ =>
      (Node.declaration d).Sits s.openKinds := by
  have named (constructs : kind = .constructor) : s.advance.kind = .word .kwNew :=
    (ParseState.kind_advance wf solid).trans (named constructs)
  refine skip_ensures wf solid fun so fewer same => ?_
  refine methodName_stretch so named fun name t so => ?_
  refine so.partUnless Node.ofTypeParameters rfl
    (fun _ => typeParameters_yields phrases so.wf) fun typeParameters u so => ?_
  refine (so.part (parameterList_yields phrases so.wf)).bind fun parameters v so => ?_
  refine so.partIf Node.ofReturnType rfl
    (fun _ => returnType_yields phrases so.wf) fun result w so => ?_
  refine (so.part (handlesClause_yields r so.wf)).bind fun handled x so => ?_
  refine (so.part (implementsClause_yields so.wf)).bind fun implemented y so => ?_
  refine (so.endStatement _).bind fun header z facts => ?_
  obtain ⟨-, so⟩ := facts
  have left := so.later.remaining
  have phrasal : (Node.ofAttributes head.attributes ++ .simpleName name
      :: Node.ofTypeParameters typeParameters ++ Node.ofParameters parameters
      ++ Node.ofReturnType result ++ Node.ofHandles handled
      ++ Node.ofImplements implemented).all Node.isPhrase = true := by
    simp only [List.all_append, List.all_cons, Node.all_ofAttributes_isPhrase,
      Node.all_ofTypeParameters_isPhrase, Node.all_ofParameters_isPhrase, Node.all_ofReturnType_isPhrase,
      Node.all_ofHandles_isPhrase, Node.all_ofImplements_isPhrase]
    rfl
  split
  next =>
    rw [pure_bind]
    refine Node.sits_of_phrases rfl rfl ?_
    rw [← List.append_nil (_ ++ Node.ofImplements implemented)] at phrasal
    exact phrasal
  next =>
    refine (statementBody_sits sit kind.block header so.wf (by omega)).bind fun found p each => ?_
    refine (takeEnd_kind kind.block found.2 p).bind fun ending q ends => ?_
    rw [so.openKinds, same] at each
    rw [pure_bind]
    exact .of_body _ rfl rfl (Node.endsAsOpened_of_map rfl ends) rfl phrasal each

theorem operatorDeclaration_sits (phrases : r.Sound) (sit : b.Sit depth) (wf : s.Wf)
    (solid : s.kind.isSolid = true) (bound : s.remaining ≤ depth) :
    Ensures (operatorDeclaration r b start head) s fun d _ =>
      (Node.declaration d).Sits s.openKinds := by
  refine skip_ensures wf solid fun so fewer same => ?_
  refine (operatorName_stretch so).bind fun operator t facts => ?_
  have so := facts.1
  refine (so.part (parameterList_yields phrases so.wf)).bind fun parameters u so => ?_
  refine (so.part (returnType_yields phrases so.wf)).bind fun result v so => ?_
  refine (so.endStatement _).bind fun header w facts => ?_
  obtain ⟨-, so⟩ := facts
  have left := so.later.remaining
  refine (statementBody_sits sit .operatorBlock header so.wf (by omega)).bind fun found x each => ?_
  refine (takeEnd_kind .operatorBlock found.2 x).bind fun ending y ends => ?_
  rw [so.openKinds, same] at each
  refine .of_body (Node.ofAttributes head.attributes ++ Node.ofParameters parameters
    ++ Node.ofReturnType result) rfl rfl (Node.endsAsOpened_of_map rfl ends) rfl ?_ each
  simp only [List.all_append, Node.all_ofAttributes_isPhrase, Node.all_ofParameters_isPhrase,
    Node.all_ofReturnType_isPhrase]
  rfl

/-- The accessor that a property implies opens no block: its statements stand in the property. -/
theorem sits_of_implied {kinds : List BlockKind} {n a : Node} {kind : BlockKind} {parts : List Node}
    (noStray : n.stray? = none) (opens : n.opened = [kind]) (ends : n.EndsAsOpened)
    (children : n.children = parts ++ [a]) (phrases : parts.all Node.isPhrase = true)
    (implied : n.implies a = true) (plain : a.stray? = none) (keeps : a.Keeps (kind :: kinds)) :
    n.Sits kinds := by
  have member (c : Node) (below : c ∈ n.children) : c.isPhrase = true ∨ c = a := by
    rw [children] at below
    rcases List.mem_append.1 below with part | last
    · exact .inl (List.all_eq_true.1 phrases c part)
    · exact .inr (List.mem_singleton.1 last)
  refine ⟨Node.refused_of_stray?_eq_none noStray, .intro ends (fun _ c below => ?_) fun c below => ?_⟩
  · rcases member c below with phrase | rfl
    · exact (Node.sits_of_isPhrase phrase).refused
    · exact Node.refused_of_stray?_eq_none plain
  · rcases member c below with phrase | rfl
    · exact Node.keeps_of_isPhrase phrase
    · rw [implied, opens]
      exact keeps

theorem singleAccessorProperty_sits (start : Location) (head : DeclarationHead)
    (phrases : r.Sound) (sit : b.Sit depth) (wf : s.Wf) (solid : s.kind.isSolid = true) (bound : s.remaining ≤ depth) :
    Ensures (singleAccessorProperty r b start head) s fun d _ =>
      (Node.declaration d).Sits s.openKinds := by
  obtain ⟨passed, behind, -⟩ := ParseState.limit_advance wf (ParseState.kind_ne_endOfStream solid)
  refine read_ensures wf solid fun so fewer same => ?_
  refine (so.part (identifier_yields so.wf)).bind fun name t so => ?_
  have late : s.advance.here ≤ name.span.start.index :=
    (so.fits (.simpleName name) (List.mem_singleton.2 rfl)).start
  refine (so.part (parameterList_yields phrases so.wf)).bind fun parameters u so => ?_
  refine so.partIf Node.ofReturnType rfl
    (fun _ => returnType_yields phrases so.wf) fun result v so => ?_
  refine (so.endStatement _).bind fun header w facts => ?_
  obtain ⟨-, so⟩ := facts
  have left := so.later.remaining
  refine (statementBody_sits sit .propertyBlock header so.wf (by omega)).bind fun found x each => ?_
  refine (takeEnd_kind .propertyBlock found.2 x).bind fun ending y ends => ?_
  rw [so.openKinds, same] at each
  extract_lets span accessor
  refine .spanFrom (.pure (sits_of_implied (a := .declaration (.accessor accessor)) rfl rfl
    (Node.endsAsOpened_of_map rfl ends) ?_
    (all_propertyParts_isPhrase head name parameters result none) ?_ rfl ?_))
  · simp [Node.children, Node.childrenOfDeclaration, Node.ofImplements, Node.ofDeclarations]
  · -- the keyword is passed before the name is read
    refine decide_eq_true (show accessor.span.start.index < name.span.start.index from ?_)
    have early : accessor.span.start.index ≤ s.here :=
      Nat.le_trans (Nat.le_of_eq (Span.index_start_merge _ _)) (Nat.min_le_left _ _)
    omega
  · exact .of_children (Node.endsAsOpened_of_ending?_eq_none rfl) each

theorem propertyDeclaration_sits (phrases : r.Sound) (sit : b.Sit depth) (container : Container)
    (wf : s.Wf) (solid : s.kind.isSolid = true) (bound : s.remaining ≤ depth) :
    Ensures (propertyDeclaration r b start head container) s fun d _ =>
      (Node.declaration d).Sits s.openKinds := by
  refine skip_ensures wf solid fun so fewer same => .peekKind ?_
  rw [← same]
  have single (keyword : s.advance.kind.isSolid = true) :=
    singleAccessorProperty_sits start head phrases sit so.wf keyword (by omega)
  split
  next isGet => exact single (by rw [isGet]; rfl)
  next isSet => exact single (by rw [isSet]; rfl)
  next isLet => exact single (by rw [isLet]; rfl)
  next =>
    refine (so.part (identifier_yields so.wf)).bind fun name t so => ?_
    refine (so.part (parameterList_yields phrases so.wf)).bind fun parameters u so => ?_
    refine (so.part (returnType_yields phrases so.wf)).bind fun result v so => ?_
    refine (so.part (implementsClause_yields so.wf)).bind fun implemented w so => ?_
    refine (so.endStatement _).bind fun header x facts => ?_
    obtain ⟨-, so⟩ := facts
    have left := so.later.remaining
    have phrasal := all_propertyParts_isPhrase head name parameters result implemented
    split
    next =>
      rw [pure_bind]
      refine .spanFrom (.pure (Node.sits_of_phrases rfl rfl ?_))
      simpa [Node.children, Node.childrenOfDeclaration] using phrasal
    next =>
      refine (declarationBody_sits sit .propertyBlock header .propertyBody so.wf (by omega)).bind
        fun found y each => ?_
      refine (takeEnd_kind .propertyBlock found.2 y).bind fun ending z ends => ?_
      rw [so.openKinds] at each
      rw [pure_bind]
      exact .spanFrom (.pure (.of_body _ rfl rfl (Node.endsAsOpened_of_map rfl ends)
        (by simp [Node.children, Node.childrenOfDeclaration]) phrasal each))

theorem accessorDeclaration_sits (phrases : r.Sound) (sit : b.Sit depth) (kind : AccessorKind)
    (forward : head.modifiers.Forward) (wf : s.Wf) (solid : s.kind.isSolid = true) (bound : s.remaining ≤ depth) :
    Ensures (accessorDeclaration r b start head kind) s fun d _ =>
      (Node.declaration d).Sits s.openKinds := by
  refine skip_ensures wf solid fun so fewer same => ?_
  refine (checkModifiers_stretch forward _ so).bind fun _ t so => ?_
  refine (so.part (parameterList_yields phrases so.wf)).bind fun parameters u so => ?_
  refine (so.endStatement _).bind fun header v facts => ?_
  obtain ⟨-, so⟩ := facts
  have left := so.later.remaining
  refine (statementBody_sits sit kind.block header so.wf (by omega)).bind fun found w each => ?_
  refine (takeEnd_kind kind.block found.2 w).bind fun ending x ends => ?_
  rw [so.openKinds, same] at each
  refine .of_body (Node.ofAttributes head.attributes ++ Node.ofParameters parameters) rfl rfl
    (Node.endsAsOpened_of_map rfl ends) rfl ?_ each
  rw [List.all_append, Node.all_ofAttributes_isPhrase, Node.all_ofParameters_isPhrase]
  rfl

theorem customEventDeclaration_sits (phrases : r.Sound) (sit : b.Sit depth) (wf : s.Wf)
    (solid : s.kind.isSolid = true) (second : s.kindAfter.isSolid = true)
    (bound : s.remaining ≤ depth) :
    Ensures (customEventDeclaration r b start head) s fun d _ =>
      (Node.declaration d).Sits s.openKinds := by
  have second : s.advance.kind.isSolid = true := by rwa [ParseState.kind_advance wf solid]
  refine read_ensures wf solid fun so fewer same => ?_
  refine so.skip second fun so => ?_
  refine (so.part (identifier_yields so.wf)).bind fun name t so => ?_
  refine (so.expect rfl rfl).bind fun keyword u facts => ?_
  have so := facts.1
  extract_lets rest
  have goOn (type : Option TypeName) (v : ParseState) {ns : List Node}
      (so : Stretch s.advance.here s.advance v ns []) :
      Ensures (rest type) v fun d _ => (Node.declaration d).Sits s.openKinds := by
    refine (so.part (implementsClause_yields so.wf)).bind fun implemented w so => ?_
    refine (so.endStatement _).bind fun header x facts => ?_
    obtain ⟨-, so⟩ := facts
    have left := so.later.remaining
    refine (declarationBody_sits sit .eventBlock header .eventBody so.wf (by omega)).bind
      fun found y each => ?_
    refine (takeEnd_kind .eventBlock found.2 y).bind fun ending z ends => ?_
    rw [so.openKinds, same] at each
    refine .of_body (Node.ofAttributes head.attributes ++ .simpleName name
      :: Node.ofOption .typeName type ++ Node.ofImplements implemented) rfl rfl
      (Node.endsAsOpened_of_map rfl ends) rfl ?_ each
    simp only [List.all_append, List.all_cons, Node.all_ofAttributes_isPhrase,
      Node.all_ofImplements_isPhrase, Node.all_ofOption_isPhrase (f := Node.typeName) fun _ => rfl]
    rfl
  cases keyword with
  | none => exact goOn none u so
  | some keyword =>
    exact (so.part (elementType_yields phrases so.wf)).mapBind fun type v so => goOn (some type) v so

-- Dispatch

theorem simple_sits {p : Parse Declaration} {kinds : List BlockKind}
    (simple : Ensures p s fun d _ => d.isSimple = true) :
    Ensures p s fun d _ => (Node.declaration d).Sits kinds :=
  simple.mono fun _ _ simple => Declaration.sits_of_isSimple simple

theorem badDeclaration_simple (problem : Problem) :
    Ensures (badDeclaration start problem) s fun d _ => d.isSimple = true := rfl

theorem eventDeclaration_simple :
    Ensures (eventDeclaration r start head) s fun d _ => d.isSimple = true := by
  refine Ensures.any.bind fun _ t _ => Ensures.any.bind fun name u _ =>
    Ensures.any.bind fun parameters v _ => ?_
  extract_lets rest
  split <;> rfl

theorem delegateDeclaration_simple :
    Ensures (delegateDeclaration r start head) s fun d _ => d.isSimple = true := by
  refine Ensures.any.bind fun _ t _ => .peekKind ?_
  split
  · exact badDeclaration_simple _
  · refine Ensures.any.bind fun _ t _ => Ensures.any.bind fun name u _ =>
      Ensures.any.bind fun typeParameters v _ => Ensures.any.bind fun parameters w _ => ?_
    extract_lets rest
    split <;> rfl

theorem externalDeclaration_simple :
    Ensures (externalDeclaration r start head) s fun d _ => d.isSimple = true := by
  refine Ensures.any.bind fun _ t _ => Ensures.any.bind fun charset u _ => .peekKind ?_
  split
  · exact badDeclaration_simple _
  · refine Ensures.any.bind fun _ t _ => Ensures.any.bind fun name u _ =>
      Ensures.any.bind fun keyword v _ => ?_
    extract_lets afterLibrary
    have parts (library : Option String) (w : ParseState) :
        Ensures (afterLibrary library) w fun d _ => d.isSimple = true := by
      refine Ensures.any.bind fun aliasKeyword x _ => ?_
      extract_lets afterAlias
      have signature (aliasName : Option String) (y : ParseState) :
          Ensures (afterAlias aliasName) y fun d _ => d.isSimple = true := by
        refine Ensures.any.bind fun parameters z _ => ?_
        extract_lets rest
        split <;> rfl
      cases aliasKeyword with
      | none => exact signature none x
      | some _ => exact Ensures.any.bind fun aliasName y _ => signature aliasName y
    cases keyword with
    | none => exact parts none v
    | some _ => exact Ensures.any.bind fun library w _ => parts library w

theorem optionDeclaration_simple (s : ParseState) :
    Ensures optionDeclaration s fun d _ => d.isSimple = true := by
  refine Ensures.any.bind fun _ t _ => .peek ?_
  split
  · rfl
  · refine Ensures.any.bind fun _ u _ => ?_
    extract_lets rest
    split <;> rfl

theorem typeList_simple (kind : TypeListKind) (container : Container) :
    Ensures (typeList r kind container) s fun d _ => d.isSimple = true := by
  refine Ensures.any.bind fun keyword t _ => ?_
  extract_lets span rest
  have goOn (u : ParseState) : Ensures (rest ()) u fun d _ => d.isSimple = true := by
    refine Ensures.any.bind fun types v _ => ?_
    extract_lets close
    split <;> rfl
  split
  · exact goOn _
  · exact Ensures.any.bind fun _ u _ => goOn u

theorem memberDeclaration_sits (phrases : r.Sound) (sit : b.Sit depth) {head : DeclarationHead}
    (forward : head.modifiers.Forward) (container : Container) {member : Member} {isModified : Bool} {ns : List Node}
    (so : Stretch lo o s ns []) (introduces : member? s isModified = some member)
    (bound : s.remaining ≤ depth) :
    Ensures (memberDeclaration r b start head container member) s fun d _ =>
      (Node.declaration d).Sits o.openKinds := by
  have solid := isSolid_of_member introduces
  obtain ⟨constructs, custom⟩ := kindAfter_of_member introduces
  refine .peek ?_
  extract_lets methodKind rest
  have goOn (t : ParseState) (so : Stretch lo o t ns []) (ahead : t.ahead = s.ahead) :
      Ensures (rest ()) t fun d _ => (Node.declaration d).Sits o.openKinds := by
    refine ((checkModifiers_stretch forward _ so).and (checkModifiers_ahead _ _ t)).bind
      fun _ u facts => ?_
    obtain ⟨so, same⟩ := facts
    obtain ⟨kind, after, left⟩ := kinds_of_ahead (same.trans ahead)
    rw [← kind] at solid
    rw [← left] at bound
    rw [← after] at constructs custom
    rw [← so.openKinds]
    cases member with
    | namespaceBlock => exact namespaceDeclaration_sits sit so.wf solid bound
    | type kind => exact typeDeclaration_sits phrases sit kind so.wf solid bound
    | enum => exact enumDeclaration_sits phrases sit so.wf solid bound
    | field => exact simple_sits rfl
    | method =>
      have other : methodKind ≠ .constructor := by
        unfold methodKind
        split <;> simp
      exact methodDeclaration_sits phrases sit methodKind container so.wf solid
        (fun same => absurd same other) bound
    | constructor =>
      exact methodDeclaration_sits phrases sit .constructor container so.wf solid
        (fun _ => constructs rfl) bound
    | operator => exact operatorDeclaration_sits phrases sit so.wf solid bound
    | property => exact propertyDeclaration_sits phrases sit container so.wf solid bound
    | event => exact simple_sits eventDeclaration_simple
    | customEvent =>
      exact customEventDeclaration_sits phrases sit so.wf solid (by rw [custom rfl]; rfl) bound
    | delegate => exact simple_sits delegateDeclaration_simple
    | external => exact simple_sits externalDeclaration_simple
  split
  next problem misplaced =>
    refine (so.report _ (placementProblem_isQuiet misplaced) fun _ => so.wf.stream.order).bind
      fun _ t facts => ?_
    exact goOn t facts.1 facts.2.2
  next => exact goOn s so rfl

theorem enumValue_simple (attributes : List AttributeBlock) :
    Ensures (enumValue r start attributes) s fun d _ => d.isSimple = true := by
  refine .peek ?_
  split <;> rfl

theorem accessorIn_sits (start : Location) {head : DeclarationHead}
    (forward : head.modifiers.Forward) (phrases : r.Sound) (sit : b.Sit depth) (ofProperty : Bool)
    (wf : s.Wf) (bound : s.remaining ≤ depth) :
    Ensures (accessorIn r b start head ofProperty) s fun d _ =>
      (Node.declaration d).Sits s.openKinds := by
  refine .peekKind ?_
  extract_lets kind
  cases found : kind.filter fun k => k.isOfProperty == ofProperty with
  | some accessor =>
    have solid := isSolid_of_accessor (Option.filter_eq_some_iff.1 found).1
    exact accessorDeclaration_sits phrases sit accessor forward wf solid bound
  | none => exact simple_sits (badDeclaration_simple _)

theorem declarationAfter_sits {ns : List Node} (phrases : r.Sound) (sit : b.Sit depth)
    (attributes : List AttributeBlock) (container : Container) (so : Stretch lo o s ns [])
    (bound : o.remaining ≤ depth) :
    Ensures (declarationAfter r b start attributes container) s fun d _ =>
      (Node.declaration d).Sits o.openKinds := by
  unfold declarationAfter
  split
  · exact simple_sits (enumValue_simple _)
  · refine (modifiers_ensures so).bind fun modifiers t facts => ?_
    obtain ⟨so, forward, -⟩ := facts
    have left := so.later.remaining
    let head : DeclarationHead := ⟨attributes, modifiers⟩
    have accessor (ofProperty : Bool) :=
      accessorIn_sits start (show head.modifiers.Forward from forward) phrases sit ofProperty so.wf
        (by omega)
    rw [so.openKinds] at accessor
    split
    · exact accessor true
    · split
      · exact accessor false
      · refine (rejectCustom_stretch so).bind fun _ u so => .get ?_
        have left := so.later.remaining
        split
        next => exact simple_sits (badDeclaration_simple _)
        next member introduces =>
          exact memberDeclaration_sits phrases sit forward container so introduces (by omega)

theorem attributedDeclaration_sits (phrases : r.Sound) (sit : b.Sit depth) (container : Container)
    (wf : s.Wf) (bound : s.remaining ≤ depth) :
    Ensures (attributedDeclaration r b container) s fun d _ =>
      (Node.declaration d).Sits s.openKinds := by
  refine .here ((attributeBlocks_yields phrases wf).bind fun attributes t so => .atStatementEnd ?_)
  split
  · exact simple_sits rfl
  · exact declarationAfter_sits phrases sit attributes container so bound

end

end Parse

end VisualBasic
