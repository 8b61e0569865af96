import VisualBasic.Proofs.Comma.Expression
import VisualBasic.Proofs.Parse.Signature

/-!
Declared variables, attributes, parameters and the clauses behind a member's name.
-/

set_option autoImplicit false

namespace VisualBasic.Parse

variable {r : Rules} {s t : ParseState}

-- Modifiers

theorem modifiersAfter_proceeds (n : Nat) (found : List (Placed Modifier)) :
    Proceeds (modifiersAfter n found) := by
  induction n generalizing found with
  | zero => exact .pure
  | succ n ih =>
    refine .bind .peek fun token => ?_
    split
    · exact .pure
    · exact .bind .skip fun _ => .whether (.report _ _) (ih _)

theorem modifiers_proceeds : Proceeds modifiers :=
  .bind .here fun _ => .bind .get fun _ => .bind (modifiersAfter_proceeds _ _) fun _ => .pure

theorem checkModifiers_proceeds (list : ModifierList) (allowed : List Modifier) :
    Proceeds (checkModifiers list allowed) := by
  unfold checkModifiers
  split
  · exact .report _ _
  · exact .pure

-- Variables

theorem variableName_writes (rules : r.Punctuates) (allowBounds : Bool) :
    Writes (variableName r allowBounds) (fun n => [.variableName n]) fun _ => [] := by
  intro s sane
  refine (identifier_writes s sane).bind fun name t so => .check ?_
  refine (so.optionally Node.ofBounds Punctuation.ofBounds rfl
    (arrayBounds_writes rules allowBounds)).bind fun array u so => ?_
  exact so.finishBehind rfl rfl rfl rfl rfl

theorem asClause_writes (rules : r.Punctuates) (allowNew : Bool) :
    Writes (asClause r allowNew) clauseNodes
      fun clause => Punctuation.ofArguments (clause.bind AsClause.arguments) := by
  intro s sane
  refine .eatPlace (fun _ => ?_) fun _ => Writ.refl sane
  have so := (Writ.refl sane).onto sane.advance
  dsimp -zeta only
  extract_lets rest
  have goOn (newKeyword : Option Location) (t : ParseState) (so : Writ s t [] []) :
      Ensures (rest newKeyword) t fun clause u => Writ s u (clauseNodes clause)
        (Punctuation.ofArguments (clause.bind AsClause.arguments)) := by
    unfold rest
    split
    · refine (so.part (elementType_writes rules)).bind fun type u so => ?_
      refine Ensures.bind (.check (so.part (optionalArguments_writes rules _))) ?_
      exact fun _ _ so => .spanFrom (.pure so)
    · exact (so.part rules.typeName).bind fun _ _ so => .spanFrom (.pure so)
  split
  · exact (so.pass (.eatPlace _)).bind fun _ t so => goOn _ t so
  · exact goOn none _ so

theorem variableNames_writes (rules : r.Punctuates) (allowBounds : Bool) :
    Writes (variableNames r allowBounds) (fun l => l.items.map .variableName)
      fun l => [.ofList VariableName.span l] :=
  fun s sane => .get ((separatedFrom_writes (fun _ => ⟨rfl, rfl⟩) (fun _ s sane =>
    (variableName_writes rules allowBounds s sane).bind fun _ _ so => .pure so) _ _ s sane).bind
      fun _ _ so => .pure so)

theorem variableDeclarator_writes (rules : r.Punctuates) (allowBounds : Bool) :
    Writes (variableDeclarator r allowBounds) (fun d => [.declarator d]) fun _ => [] := by
  intro s sane
  refine .here ((variableNames_writes rules allowBounds s sane).bind fun names t so => ?_)
  refine (so.part (asClause_writes rules true)).bind fun type u so => ?_
  refine (so.pass (.eatPlace _)).bind fun equals v so => ?_
  refine (so.optionalNode (initializer_writes rules)).bind fun value w so => ?_
  exact so.finish rfl rfl

theorem variableDeclarators_writes (rules : r.Punctuates) (allowBounds : Bool) :
    Writes (variableDeclarators r allowBounds) Node.ofDeclarators
      fun l => [Punctuation.ofDeclarators l] :=
  commaList_writes (fun _ => ⟨rfl, rfl⟩) (variableDeclarator_writes rules allowBounds)

theorem loopDeclarator_writes (rules : r.Punctuates) :
    Writes (loopDeclarator r) (fun d => [.declarator d]) fun _ => [] := by
  intro s sane
  refine (variableName_writes rules false s sane).bind fun name t so => ?_
  have so := so.listed (Punctuation.holds_single VariableName.span name name.span _)
  refine (so.part (asClause_writes rules false)).bind fun type u so => ?_
  exact so.finishBehind rfl rfl rfl (List.append_nil _) rfl

-- Attributes

theorem appliedAttribute_writes (rules : r.Punctuates) :
    Writes (appliedAttribute r) (fun a => [.appliedAttribute a]) fun _ => [] := by
  intro s sane
  refine .here (.get ?_)
  extract_lets target rest
  have goOn (t : ParseState) (so : Writ s t [] []) :
      Ensures (rest ()) t fun a u => Writ s u [.appliedAttribute a] [] := by
    refine (so.part name_writes).bind fun name u so => .check ?_
    refine (so.part (optionalArguments_writes rules _)).bind fun arguments v so => ?_
    exact so.finish rfl rfl
  have so := Writ.refl sane
  split
  · have passed := so.onto sane.advance
    exact .skip (.skip (goOn _ (passed.onto passed.sane.advance)))
  · exact goOn s so

theorem attributeBlock_writes (rules : r.Punctuates) :
    Writes (attributeBlock r) (fun b => b.attributes.items.map .appliedAttribute)
      fun b => [.ofList Attribute.span b.attributes] := by
  intro s sane
  have so := (Writ.refl sane).onto sane.advance
  refine .read ((so.part (commaList_writes (fun _ => ⟨rfl, rfl⟩)
    (appliedAttribute_writes rules))).bind fun attributes t so => ?_)
  refine (so.pass (.expectPlace _ _)).bind fun closeAngle u so => ?_
  extract_lets close
  split
  · refine (so.pass (.resync _)).bind fun _ v so => ?_
    exact (so.pass (.eat _)).bind fun _ _ so => .spanFrom (.pure so)
  · exact .spanFrom (.pure so)

theorem attributeBlocksWithin_writes (rules : r.Punctuates) (n : Nat) :
    Writes (attributeBlocksWithin r n) Node.ofAttributes Punctuation.ofAttributes := by
  induction n with
  | zero => exact fun _ sane => .refl sane
  | succ n ih =>
    refine fun s sane => .check ?_
    split
    · refine (attributeBlock_writes rules s sane).bind fun block t so => ?_
      exact (so.part ih).bind fun _ _ so => .pure so
    · exact Writ.refl sane

theorem attributeBlocks_writes (rules : r.Punctuates) :
    Writes (attributeBlocks r) Node.ofAttributes Punctuation.ofAttributes :=
  fun s sane => .get (attributeBlocksWithin_writes rules _ s sane)

-- Parameters

theorem parameterModifiersAfter_proceeds (n : Nat) (found : List (Placed ParameterModifier)) :
    Proceeds (parameterModifiersAfter n found) := by
  induction n generalizing found with
  | zero => exact .pure
  | succ n ih =>
    refine .bind .peek fun token => ?_
    split
    · exact .pure
    · refine .bind .skip fun _ => ?_
      extract_lets has rest
      split
      · exact .bind (.report _ _) fun _ => ih _
      · exact .whether (.report _ _) (ih _)

theorem parameter_writes (rules : r.Punctuates) :
    Writes (parameter r) (fun p => [.parameter p]) fun _ => [] := by
  intro s sane
  refine .here ((attributeBlocks_writes rules s sane).bind fun attributes t so => .get ?_)
  refine (so.pass (parameterModifiersAfter_proceeds _ _)).bind fun modifiers u so => ?_
  refine (variableName_writes rules false u so.sane).bind fun name v more => ?_
  refine (more.whenEaten rules.typeName).bind fun type w more => ?_
  have so := so.appendNodes more
  refine (so.whenEaten (value_writes rules)).bind fun value x so => ?_
  extract_lets finish
  split
  · exact (so.pass (.reportUnexpected _)).bind fun _ _ so => so.finish rfl rfl
  · exact so.finish rfl rfl

theorem checkParameters_proceeds (parameters : List Parameter) :
    Proceeds (checkParameters parameters) := by
  unfold checkParameters
  split
  · exact .report _ _
  · exact .pure

theorem parameterList_writes (rules : r.Punctuates) :
    Writes (parameterList r) Node.ofParameters Punctuation.ofParameters := by
  intro s sane
  refine .eatPlace (fun _ => .check ?_) fun _ => Writ.refl sane
  have so := (Writ.refl sane).onto sane.advance
  extract_lets close
  have closes (parameters : CommaList Parameter) (t : ParseState)
      (so : Writ s t (parameters.items.map .parameter) [.ofList Parameter.span parameters]) :
      Ensures (close parameters) t fun l u =>
        Writ s u (Node.ofParameters l) (Punctuation.ofParameters l) := by
    refine (so.pass (checkParameters_proceeds _)).bind fun _ u so => ?_
    refine (so.pass .closeParenthesis).bind fun closeParen v so => ?_
    extract_lets finish
    split
    · refine (so.pass (.resync _)).bind fun _ w so => ?_
      exact (so.pass (.eat _)).bind fun _ _ so => .spanFrom (.pure so)
    · exact .spanFrom (.pure so)
  split
  · exact .here (closes (.empty _) _ (so.listed (Punctuation.holds_empty Parameter.span _ _)))
  · exact (so.part (commaList_writes (fun _ => ⟨rfl, rfl⟩) (parameter_writes rules))).bind
      fun parameters t so => closes parameters t so

theorem returnType_writes (rules : r.Punctuates) :
    Writes (returnType r) Node.ofReturnType Punctuation.ofReturnType := by
  intro s sane
  refine .eatPlace (fun _ => ?_) fun _ => Writ.refl sane
  have so := (Writ.refl sane).onto sane.advance
  refine (so.part (attributeBlocks_writes rules)).bind fun attributes t so => ?_
  exact (so.nodePart rules.typeName).bind fun type u so => .spanFrom (.pure so)

-- Events and members of other types

theorem handlesItem_writes : Writes (handlesItem r) (fun i => [.handlesItem i]) fun _ => [] := by
  intro s sane
  refine .peek ?_
  extract_lets finish
  have finishes (source : Name) (t : ParseState) (so : Writ s t [.ofName source] []) :
      Ensures (finish source) t fun i u => Writ s u [.handlesItem i] [] := by
    refine (so.pass (.expectPlace _ _)).bind fun dot u so => ?_
    extract_lets close
    have closes (event : SimpleName) (v : ParseState)
        (so : Writ s v [.ofName source, .simpleName event] []) :
        Ensures (close event) v fun i w => Writ s w [.handlesItem i] [] :=
      so.finish rfl rfl
    split
    · exact (so.nodePart memberName_writes).bind fun event v so => closes event v so
    · exact (so.missing (fun place => .simpleName (.missing place)) rfl).bind
        fun place v so => closes _ v so
  split
  next kind _ =>
    extract_lets take
    split
    · exact finishes _ _ ((Writ.refl sane).reportedToken
        (n := .ofName (.special kind s.current.span)) _ _ rfl rfl)
    · exact finishes _ _ ((Writ.refl sane).token
        (n := .ofName (.special kind s.current.span)) rfl rfl)
  · exact (identifier_writes s sane).bind fun name t so => finishes _ t so

theorem handlesClause_writes :
    Writes (handlesClause r) Node.ofHandles Punctuation.ofHandles := by
  intro s sane
  refine .eatPlace (fun _ => ?_) fun _ => Writ.refl sane
  have so := (Writ.refl sane).onto sane.advance
  exact (so.part (commaList_writes (fun _ => ⟨rfl, rfl⟩) handlesItem_writes)).bind
    fun _ _ so => .spanFrom (.pure so)

theorem implementsClause_writes :
    Writes implementsClause Node.ofImplements Punctuation.ofImplements := by
  intro s sane
  refine .eatPlace (fun _ => ?_) fun _ => Writ.refl sane
  have so := (Writ.refl sane).onto sane.advance
  exact (so.part (commaList_writes (fun n => ⟨Node.span_ofName n, Node.isPhrase_ofName n⟩)
    name_writes)).bind fun _ _ so => .spanFrom (.pure so)

end VisualBasic.Parse
