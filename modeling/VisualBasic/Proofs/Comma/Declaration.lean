import VisualBasic.Parse.Declaration
import VisualBasic.Proofs.Comma.Block

/-!
Declarations.  A rule for a member goes on behind the attributes that have been read for it.
-/

set_option autoImplicit false

namespace VisualBasic

/-- A rule that writes a declaration. -/
abbrev WritesDeclaration (p : Parse Declaration) : Prop :=
  Writes p (fun d => [.declaration d]) fun _ => []

/-- A rule that writes a declaration with attributes that have been read before it. -/
abbrev WritesBehind (attributes : List AttributeBlock) (p : Parse Declaration) : Prop :=
  ∀ {o s : ParseState},
    Writ o s (Node.ofAttributes attributes) (Punctuation.ofAttributes attributes) →
      Ensures p s fun d t => Writ o t [.declaration d] []

namespace Writ

variable {α β : Type} {o t : ParseState} {ns : List Node} {ls : List Punctuation} {c : Prop}
  [Decidable c] {p : Parse (Option α)} {f : Option α → Parse β} {Q : β → ParseState → Prop}
  {nodes : Option α → List Node} {lists : Option α → List Punctuation}

/-- A part that is read under a condition. -/
theorem partIf (so : Writ o t ns ls) (more : Writes p nodes lists)
    (absent : (nodes none, lists none) = ([], []))
    (rest : ∀ a u, Writ o u (ns ++ nodes a) (ls ++ lists a) → Ensures (f a) u Q) :
    Ensures (if c then p >>= f else pure none >>= f) t Q := by
  obtain ⟨noNodes, noLists⟩ := Prod.mk.inj absent
  refine .branch (fun _ => so.part more) (fun _ => .pure ?_) rest
  rwa [noNodes, noLists, List.append_nil, List.append_nil]

theorem partUnless (so : Writ o t ns ls) (more : Writes p nodes lists)
    (absent : (nodes none, lists none) = ([], []))
    (rest : ∀ a u, Writ o u (ns ++ nodes a) (ls ++ lists a) → Ensures (f a) u Q) :
    Ensures (if c then pure none >>= f else p >>= f) t Q := by
  rw [← ite_not]
  exact so.partIf more absent rest

end Writ

namespace Parse

variable {r : Rules} {b : Bodies} {o s : ParseState} {ns : List Node} {ls : List Punctuation}

/-- What has been read for a declaration that breaks off does not show in it. -/
theorem badDeclaration_writ (so : Writ o s ns ls) (start : Location) (problem : Problem) :
    Ensures (badDeclaration start problem) s fun d t => Writ o t [.declaration d] [] := by
  refine (so.pass (.reportUnexpected _)).bind fun _ t so => ?_
  exact (so.pass (.resync _)).bind fun _ u so => so.forget.finishItem rfl rfl rfl

-- The top of a file

theorem switchSetting_proceeds : Proceeds switchSetting := by
  refine .bind .peek fun token => .bind .atStatementEnd fun ends => ?_
  split
  · exact .pure
  · refine .ite (.bind .skip fun _ => .pure) (.ite (.bind .skip fun _ => .pure) ?_)
    exact .bind (.reportUnexpected _) fun _ => .pure

theorem compareSetting_proceeds : Proceeds compareSetting :=
  .bind .peek fun _ => .ite (.bind .skip fun _ => .pure)
    (.ite (.bind .skip fun _ => .pure) (.bind (.reportUnexpected _) fun _ => .pure))

theorem optionDeclaration_writes : WritesDeclaration optionDeclaration := by
  intro s sane
  have so := (Writ.refl sane).onto sane.advance
  refine .read (.peek ?_)
  split
  next =>
    refine (so.pass (.reportUnexpected _)).bind fun _ t so => ?_
    exact (so.pass (.resync _)).bind fun _ u so => so.finishItem rfl rfl rfl
  next kind _ =>
    have so := so.onto so.sane.advance
    refine .skip ?_
    extract_lets rest
    have goOn (setting : Option OptionSetting) (t : ParseState) (so : Writ s t [] []) :
        Ensures (rest setting) t fun d u => Writ s u [.declaration d] [] :=
      so.finishStatement rfl rfl rfl
    split
    · exact (so.pass compareSetting_proceeds).bind fun setting t so => goOn setting t so
    · exact (so.pass switchSetting_proceeds).bind fun setting t so => goOn setting t so

theorem importsClause_writes (rules : r.Punctuates) :
    Writes (importsClause r) (fun c => [.importsClause c]) fun _ => [] := by
  intro s sane
  refine .here (.check (.kindAfter ?_))
  split
  · refine (identifier_writes s sane).bind fun aliasName t so => ?_
    have so := so.onto so.sane.advance
    exact .read ((so.part (elementType_writes rules)).bind fun target u so => so.finish rfl rfl)
  · exact (elementType_writes rules s sane).bind fun target t so => so.finish rfl rfl

theorem importsDeclaration_writes (rules : r.Punctuates) :
    WritesDeclaration (importsDeclaration r) := by
  intro s sane
  have so := (Writ.refl sane).onto sane.advance
  refine .read ((so.part (commaList_writes (fun _ => ⟨rfl, rfl⟩)
    (importsClause_writes rules))).bind fun clauses t so => ?_)
  exact so.finishStatement rfl rfl rfl

theorem typeList_writes (rules : r.Punctuates) (kind : TypeListKind) (container : Container) :
    WritesDeclaration (typeList r kind container) := by
  intro s sane
  have so := (Writ.refl sane).onto sane.advance
  refine .read ?_
  extract_lets keyword rest
  have goOn (t : ParseState) (so : Writ s t [] []) :
      Ensures (rest ()) t fun d u => Writ s u [.declaration d] [] := by
    refine (so.part (commaList_writes (fun _ => ⟨rfl, rfl⟩)
      (elementType_writes rules))).bind fun types u so => ?_
    extract_lets close
    have closes (v : ParseState) (so : Writ s v (types.items.map .typeName)
        [.ofList TypeName.span types]) :
        Ensures (close ()) v fun d w => Writ s w [.declaration d] [] :=
      so.finishStatement rfl rfl rfl
    split
    · exact (so.pass (.report _ _)).bind fun _ v so => closes v so
    · exact closes u so
  split
  · exact goOn _ so
  · exact (so.pass (.report _ _)).bind fun _ t so => goOn t so

-- Members

variable {start : Location} {head : DeclarationHead}

theorem fieldDeclaration_writes (rules : r.Punctuates) :
    WritesBehind head.attributes (fieldDeclaration r start head) := by
  intro o s so
  exact (so.part (variableDeclarators_writes rules true)).bind fun declarators t so =>
    so.finishStatement rfl rfl rfl

/-- A namespace has no attributes; those that are there do not show in it. -/
theorem namespaceDeclaration_writes (bodies : b.Punctuates) :
    WritesBehind head.attributes (namespaceDeclaration b start) := by
  intro o s so
  have so := so.forget.onto so.sane.advance
  refine .skip ((so.nodePart name_writes).bind fun name t so => ?_)
  refine (so.pass (.endStatement _)).bind fun header u so => ?_
  refine (so.nodePart (declarationBody_writes bodies _ _ _)).bind fun found v so => ?_
  exact (so.pass (takeEnd_proceeds _ _)).bind fun ending w so => so.finishItem rfl rfl rfl

theorem typeDeclaration_writes (rules : r.Punctuates) (bodies : b.Punctuates) (kind : TypeKind) :
    WritesBehind head.attributes (typeDeclaration r b start head kind) := by
  intro o s so
  have so := so.onto so.sane.advance
  refine .skip ((so.nodePart identifier_writes).bind fun name t so => ?_)
  refine so.partUnless (typeParameters_writes rules) rfl fun parameters u so => ?_
  refine (so.pass (.endStatement _)).bind fun header v so => ?_
  refine (so.nodePart (declarationBody_writes bodies _ _ _)).bind fun found w so => ?_
  refine (so.pass (takeEnd_proceeds _ _)).bind fun ending x so => ?_
  exact so.finishItem rfl (by simp [Node.children, Node.childrenOfDeclaration]) rfl

theorem enumDeclaration_writes (rules : r.Punctuates) (bodies : b.Punctuates) :
    WritesBehind head.attributes (enumDeclaration r b start head) := by
  intro o s so
  have so := so.onto so.sane.advance
  refine .skip ((so.nodePart identifier_writes).bind fun name t so => ?_)
  refine (so.whenEaten (elementType_writes rules)).bind fun underlying u so => ?_
  refine (so.pass (.endStatement _)).bind fun header v so => ?_
  refine (so.nodePart (declarationBody_writes bodies _ _ _)).bind fun found w so => ?_
  refine (so.pass (takeEnd_proceeds _ _)).bind fun ending x so => ?_
  exact so.finishItem rfl (by simp [Node.children, Node.childrenOfDeclaration]) rfl

theorem enumValue_writes (rules : r.Punctuates) (attributes : List AttributeBlock) :
    WritesBehind attributes (enumValue r start attributes) := by
  intro o s so
  refine .peek ?_
  split
  · refine (so.nodePart identifier_writes).bind fun name t so => ?_
    refine (so.whenEaten (value_writes rules)).bind fun value u so => ?_
    exact so.finishStatement rfl (by simp [Node.children, Node.childrenOfDeclaration]) rfl
  · refine (so.pass (.report _ _)).bind fun _ t so => ?_
    exact (so.pass .skipStatement).bind fun _ u so => so.forget.finishItem rfl rfl rfl

/-- The name of a constructor is the word `New`. -/
theorem methodName_writ {α : Type} {kind : MethodKind} {f : SimpleName → Parse α}
    {Q : α → ParseState → Prop} (so : Writ o s ns ls)
    (rest : ∀ name t, Writ o t (ns ++ [.simpleName name]) ls → Ensures (f name) t Q) :
    Ensures (if kind = .constructor then do
      let token ← read
      let name ← pure (SimpleName.ofToken token)
      f name
    else do
      let name ← identifier
      f name) s Q := by
  split
  · exact rest _ _ so.name
  · exact (so.nodePart identifier_writes).bind rest

theorem methodDeclaration_writes (rules : r.Punctuates) (bodies : b.Punctuates) (kind : MethodKind)
    (container : Container) :
    WritesBehind head.attributes (methodDeclaration r b start head kind container) := by
  intro o s so
  have so := so.onto so.sane.advance
  refine .skip (methodName_writ so fun name t so => ?_)
  refine so.partUnless (typeParameters_writes rules) rfl fun typeParameters u so => ?_
  refine (so.part (parameterList_writes rules)).bind fun parameters v so => ?_
  refine so.partIf (returnType_writes rules) rfl fun result w so => ?_
  refine (so.part handlesClause_writes).bind fun handled x so => ?_
  refine (so.part implementsClause_writes).bind fun implemented y so => ?_
  refine (so.pass (.endStatement _)).bind fun header z so => ?_
  split
  · rw [pure_bind]
    exact so.finishItem rfl (by simp [Node.children, Node.childrenOfDeclaration]) rfl
  · refine (so.nodePart (statementBody_writes bodies _ _)).bind fun found p so => ?_
    refine (so.pass (takeEnd_proceeds _ _)).bind fun ending q so => ?_
    rw [pure_bind]
    exact so.finishItem rfl (by simp [Node.children, Node.childrenOfDeclaration]) rfl

theorem operatorName_proceeds : Proceeds operatorName := by
  refine .bind .peek fun token => ?_
  split
  · exact .bind .skip fun _ => .pure
  · refine .bind (.reportUnexpected _) fun _ => .bind (.check _) fun opens =>
      .bind .atStatementEnd fun ends => ?_
    split
    · exact .bind .placeholder fun _ => .pure
    · exact .bind .skip fun _ => .pure

theorem operatorDeclaration_writes (rules : r.Punctuates) (bodies : b.Punctuates) :
    WritesBehind head.attributes (operatorDeclaration r b start head) := by
  intro o s so
  have so := so.onto so.sane.advance
  refine .skip ((so.pass operatorName_proceeds).bind fun operator t so => ?_)
  refine (so.part (parameterList_writes rules)).bind fun parameters u so => ?_
  refine (so.part (returnType_writes rules)).bind fun result v so => ?_
  refine (so.pass (.endStatement _)).bind fun header w so => ?_
  refine (so.nodePart (statementBody_writes bodies _ _)).bind fun found x so => ?_
  exact (so.pass (takeEnd_proceeds _ _)).bind fun ending y so => so.finishItem rfl rfl rfl

/-- The accessor that the property implies has the body of the property to itself. -/
theorem singleAccessorProperty_writes (rules : r.Punctuates) (bodies : b.Punctuates) :
    WritesBehind head.attributes (singleAccessorProperty r b start head) := by
  intro o s so
  have so := so.onto so.sane.advance
  refine .read ((so.nodePart identifier_writes).bind fun name t so => ?_)
  refine (so.part (parameterList_writes rules)).bind fun parameters u so => ?_
  refine so.partIf (returnType_writes rules) rfl fun result v so => ?_
  refine (so.pass (.endStatement _)).bind fun header w so => ?_
  refine (statementBody_writes bodies _ _ w so.sane).bind fun found x body => ?_
  refine (body.pass (takeEnd_proceeds _ _)).bind fun ending y body => ?_
  extract_lets span accessor
  have implied : Writ w y [.declaration (.accessor accessor)] [] := body.item rfl rfl rfl
  refine (so.appendNodes implied).finishItem rfl ?_ ?_
  · simp [Node.children, Node.childrenOfDeclaration, Node.ofImplements, Node.ofDeclarations]
  · exact Prod.ext (List.append_nil _) rfl

theorem propertyDeclaration_writes (rules : r.Punctuates) (bodies : b.Punctuates)
    (container : Container) :
    WritesBehind head.attributes (propertyDeclaration r b start head container) := by
  intro o s so
  have so := so.onto so.sane.advance
  refine .skip (.peekKind ?_)
  split
  next => exact singleAccessorProperty_writes rules bodies so
  next => exact singleAccessorProperty_writes rules bodies so
  next => exact singleAccessorProperty_writes rules bodies so
  next =>
    refine (so.nodePart identifier_writes).bind fun name t so => ?_
    refine (so.part (parameterList_writes rules)).bind fun parameters u so => ?_
    refine (so.part (returnType_writes rules)).bind fun result v so => ?_
    refine (so.part implementsClause_writes).bind fun implemented w so => ?_
    refine (so.pass (.endStatement _)).bind fun header x so => ?_
    split
    · rw [pure_bind]
      exact so.finishItem rfl (by simp [Node.children, Node.childrenOfDeclaration]) rfl
    · refine (so.nodePart (declarationBody_writes bodies _ _ _)).bind fun found y so => ?_
      refine (so.pass (takeEnd_proceeds _ _)).bind fun ending z so => ?_
      rw [pure_bind]
      exact so.finishItem rfl (by simp [Node.children, Node.childrenOfDeclaration]) rfl

theorem accessorDeclaration_writes (rules : r.Punctuates) (bodies : b.Punctuates)
    (kind : AccessorKind) :
    WritesBehind head.attributes (accessorDeclaration r b start head kind) := by
  intro o s so
  have so := so.onto so.sane.advance
  refine .skip ((so.pass (checkModifiers_proceeds _ _)).bind fun _ t so => ?_)
  refine (so.part (parameterList_writes rules)).bind fun parameters u so => ?_
  refine (so.pass (.endStatement _)).bind fun header v so => ?_
  refine (so.nodePart (statementBody_writes bodies _ _)).bind fun found w so => ?_
  exact (so.pass (takeEnd_proceeds _ _)).bind fun ending x so => so.finishItem rfl rfl rfl

theorem accessorIn_writes (rules : r.Punctuates) (bodies : b.Punctuates) (ofProperty : Bool) :
    WritesBehind head.attributes (accessorIn r b start head ofProperty) := by
  intro o s so
  refine .peekKind ?_
  extract_lets kind
  cases kind.filter fun k => k.isOfProperty == ofProperty with
  | some accessor => exact accessorDeclaration_writes rules bodies accessor so
  | none => exact badDeclaration_writ so _ _

theorem eventDeclaration_writes (rules : r.Punctuates) :
    WritesBehind head.attributes (eventDeclaration r start head) := by
  intro o s so
  have so := so.onto so.sane.advance
  refine .skip ((so.nodePart identifier_writes).bind fun name t so => ?_)
  refine (so.part (parameterList_writes rules)).bind fun parameters u so => ?_
  have typed : Writes (whenEaten (.word .kwAs) (elementType r)) (Node.ofOption .typeName)
      fun _ => [] := fun _ sane => (Writ.refl sane).whenEaten (elementType_writes rules)
  refine so.partIf typed rfl fun type v so => ?_
  rw [List.append_nil] at so
  refine (so.part implementsClause_writes).bind fun implemented w so => ?_
  exact so.finishStatement rfl (by simp [Node.children, Node.childrenOfDeclaration]) rfl

theorem customEventDeclaration_writes (rules : r.Punctuates) (bodies : b.Punctuates) :
    WritesBehind head.attributes (customEventDeclaration r b start head) := by
  intro o s so
  have so := so.onto so.sane.advance
  have so := so.onto so.sane.advance
  refine .read (.skip ((so.nodePart identifier_writes).bind fun name t so => ?_))
  refine (so.pass (.expect _ _)).bind fun keyword u so => ?_
  extract_lets rest
  have goOn (type : Option TypeName) (v : ParseState)
      (so : Writ o v (Node.ofAttributes head.attributes ++ [.simpleName name]
        ++ Node.ofOption .typeName type) (Punctuation.ofAttributes head.attributes)) :
      Ensures (rest type) v fun d w => Writ o w [.declaration d] [] := by
    refine (so.part implementsClause_writes).bind fun implemented w so => ?_
    refine (so.pass (.endStatement _)).bind fun header x so => ?_
    refine (so.nodePart (declarationBody_writes bodies _ _ _)).bind fun found y so => ?_
    refine (so.pass (takeEnd_proceeds _ _)).bind fun ending z so => ?_
    exact so.finishItem rfl (by simp [Node.children, Node.childrenOfDeclaration]) rfl
  cases keyword with
  | none => exact goOn none u (by simpa [Node.ofOption] using so)
  | some keyword =>
    exact (so.nodePart (elementType_writes rules)).mapBind fun type v so => goOn (some type) v so

theorem delegateDeclaration_writes (rules : r.Punctuates) :
    WritesBehind head.attributes (delegateDeclaration r start head) := by
  intro o s so
  have so := so.onto so.sane.advance
  refine .skip (.peekKind ?_)
  split
  next => exact badDeclaration_writ so _ _
  next isFunction _ =>
    have so := so.onto so.sane.advance
    refine .skip ((so.nodePart identifier_writes).bind fun name t so => ?_)
    refine (so.part (typeParameters_writes rules)).bind fun typeParameters u so => ?_
    refine (so.part (parameterList_writes rules)).bind fun parameters v so => ?_
    refine so.partIf (returnType_writes rules) rfl fun result w so => ?_
    exact so.finishStatement rfl (by simp [Node.children, Node.childrenOfDeclaration]) rfl

theorem charset_proceeds : Proceeds charset := by
  refine .bind .peek fun token => ?_
  extract_lets found rest
  exact .whether .skip .pure

theorem externalDeclaration_writes (rules : r.Punctuates) :
    WritesBehind head.attributes (externalDeclaration r start head) := by
  intro o s so
  have so := so.onto so.sane.advance
  refine .skip ((so.pass charset_proceeds).bind fun charset t so => .peekKind ?_)
  split
  next => exact badDeclaration_writ so _ _
  next isFunction _ =>
    have so := so.onto so.sane.advance
    refine .skip ((so.nodePart identifier_writes).bind fun name u so => ?_)
    refine (so.pass (.expect _ _)).bind fun keyword v so => ?_
    extract_lets afterLibrary
    have named (library : Option String) (w : ParseState)
        (so : Writ o w (Node.ofAttributes head.attributes ++ [.simpleName name])
          (Punctuation.ofAttributes head.attributes)) :
        Ensures (afterLibrary library) w fun d x => Writ o x [.declaration d] [] := by
      refine (so.pass (.eat _)).bind fun aliasKeyword x so => ?_
      extract_lets afterAlias
      have signature (aliasName : Option String) (y : ParseState)
          (so : Writ o y (Node.ofAttributes head.attributes ++ [.simpleName name])
            (Punctuation.ofAttributes head.attributes)) :
          Ensures (afterAlias aliasName) y fun d z => Writ o z [.declaration d] [] := by
        refine (so.part (parameterList_writes rules)).bind fun parameters z so => ?_
        refine so.partIf (returnType_writes rules) rfl fun result w so => ?_
        exact so.finishStatement rfl (by simp [Node.children, Node.childrenOfDeclaration]) rfl
      cases aliasKeyword with
      | none => exact signature none x so
      | some _ => exact (so.pass stringLiteral_proceeds).bind signature
    cases keyword with
    | none => exact named none v so
    | some _ => exact (so.pass stringLiteral_proceeds).bind named

-- Dispatch

theorem memberDeclaration_writes (rules : r.Punctuates) (bodies : b.Punctuates)
    (container : Container) (member : Member) :
    WritesBehind head.attributes (memberDeclaration r b start head container member) := by
  intro o s so
  refine .peek ?_
  extract_lets methodKind rest
  have goOn (t : ParseState) (so : Writ o t (Node.ofAttributes head.attributes)
      (Punctuation.ofAttributes head.attributes)) :
      Ensures (rest ()) t fun d u => Writ o u [.declaration d] [] := by
    refine (so.pass (checkModifiers_proceeds _ _)).bind fun _ u so => ?_
    cases member with
    | namespaceBlock => exact namespaceDeclaration_writes bodies so
    | type kind => exact typeDeclaration_writes rules bodies kind so
    | enum => exact enumDeclaration_writes rules bodies so
    | field => exact fieldDeclaration_writes rules so
    | method => exact methodDeclaration_writes rules bodies methodKind container so
    | constructor => exact methodDeclaration_writes rules bodies .constructor container so
    | operator => exact operatorDeclaration_writes rules bodies so
    | property => exact propertyDeclaration_writes rules bodies container so
    | event => exact eventDeclaration_writes rules so
    | customEvent => exact customEventDeclaration_writes rules bodies so
    | delegate => exact delegateDeclaration_writes rules so
    | external => exact externalDeclaration_writes rules so
  split
  · exact (so.pass (.report _ _)).bind fun _ t so => goOn t so
  · exact goOn s so

theorem rejectCustom_proceeds : Proceeds rejectCustom :=
  .bind .get fun _ => .ite (.bind (.report _ _) fun _ => .skip) .pure

theorem declarationAfter_writes (rules : r.Punctuates) (bodies : b.Punctuates)
    (attributes : List AttributeBlock) (container : Container) :
    WritesBehind attributes (declarationAfter r b start attributes container) := by
  intro o s so
  unfold declarationAfter
  split
  · exact enumValue_writes rules attributes so
  · refine (so.pass modifiers_proceeds).bind fun modifiers t so => ?_
    split
    · exact accessorIn_writes rules bodies true so
    · split
      · exact accessorIn_writes rules bodies false so
      · refine (so.pass rejectCustom_proceeds).bind fun _ u so => .get ?_
        split
        · exact badDeclaration_writ so _ _
        · exact memberDeclaration_writes rules bodies container _ so

theorem reportHeading_proceeds (container : Container) (span : Span) :
    Proceeds (reportHeading container span) := by
  unfold reportHeading
  split
  · exact .report _ _
  · exact .pure

theorem attributedDeclaration_writes (rules : r.Punctuates) (bodies : b.Punctuates)
    (container : Container) : WritesDeclaration (attributedDeclaration r b container) := by
  intro s sane
  refine .here ((attributeBlocks_writes rules s sane).bind fun attributes t so => .atStatementEnd ?_)
  split
  · refine (so.pass (reportHeading_proceeds _ _)).bind fun _ u so => ?_
    exact so.finishItem rfl rfl rfl
  · exact declarationAfter_writes rules bodies attributes container so

theorem declaration_writes (rules : r.Punctuates) (bodies : b.Punctuates) (container : Container) :
    WritesDeclaration (declaration r b container) := by
  intro s sane
  have so := Writ.refl sane
  refine .peek (.get ?_)
  split
  next kind _ =>
    refine (so.pass (.report _ _)).bind fun _ t so => ?_
    exact (so.pass (endBlock_proceeds kind)).bind fun _ u so => so.item rfl rfl rfl
  next => exact badDeclaration_writ so _ _
  next =>
    split
    next =>
      refine (so.pass (reportHeading_proceeds _ _)).bind fun _ t so => ?_
      exact so.part optionDeclaration_writes
    next =>
      refine (so.pass (reportHeading_proceeds _ _)).bind fun _ t so => ?_
      exact so.part (importsDeclaration_writes rules)
    next => exact typeList_writes rules _ container s sane
    next => exact typeList_writes rules _ container s sane
    next => exact attributedDeclaration_writes rules bodies container s sane

end Parse

end VisualBasic
