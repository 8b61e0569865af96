import VisualBasic.Parse.Signature
import VisualBasic.Proofs.Parse.Expression

/-!
Declared variables, attributes, parameters and the clauses behind a member's name.
-/

set_option autoImplicit false

namespace VisualBasic

/-- None of the modifiers runs backwards. -/
def ModifierList.Forward (list : ModifierList) : Prop := ∀ m ∈ list.modifiers, m.span.Forward

namespace Parse

variable {r : Rules} {s : ParseState}

-- Modifiers

theorem isSolid_of_modifier {kind : TokenKind} {modifier : Modifier}
    (denotes : Modifier.ofKind? kind = some modifier) : kind.isSolid = true := by
  cases kind <;> first | rfl | simp [Modifier.ofKind?] at denotes

theorem isSolid_of_parameterModifier {kind : TokenKind} {modifier : ParameterModifier}
    (denotes : ParameterModifier.ofKind? kind = some modifier) : kind.isSolid = true := by
  cases kind <;> first | rfl | simp [ParameterModifier.ofKind?] at denotes

/-- A modifier that is repeated has been reported. -/
theorem modifiersAfter_ensures {lo : Nat} {o : ParseState} {ns : List Node} (n : Nat)
    {found : List (Placed Modifier)} (so : Stretch lo o s ns [])
    (placed : ∀ m ∈ found, m.span.Forward)
    (distinct : s.diagnostics = [] → (found.map Placed.value).Nodup) :
    Ensures (modifiersAfter n found) s fun list t => Stretch lo o t ns [] ∧
      (∀ m ∈ list, m.span.Forward) ∧ (t.diagnostics = [] → (list.map Placed.value).Nodup) := by
  induction n generalizing s found with
  | zero => exact ⟨so, placed, distinct⟩
  | succ n ih =>
    refine .peek ?_
    split
    · exact ⟨so, placed, distinct⟩
    next modifier denotes =>
      have forward := so.wf.stream.order
      have placed : ∀ m ∈ found ++ [⟨modifier, s.current.span⟩], m.span.Forward :=
        List.forall_mem_append.2 ⟨placed, List.forall_mem_singleton.2 forward⟩
      refine so.skip (isSolid_of_modifier denotes) fun so => ?_
      extract_lets goOn
      split
      · exact (so.report _ rfl fun _ => forward).bind fun _ _ facts =>
          ih facts.1 placed fun none => absurd none facts.2.1
      next fresh =>
        refine ih so placed fun none => ?_
        have fresh : modifier ∉ found.map Placed.value := by simpa using fresh
        rw [List.map_append]
        exact (List.perm_append_singleton _ _).nodup_iff.2
          (List.nodup_cons.2 ⟨fresh, distinct (s.diagnostics_advance ▸ none)⟩)

theorem modifiers_ensures {lo : Nat} {o : ParseState} {ns : List Node} (so : Stretch lo o s ns []) :
    Ensures modifiers s fun list t => Stretch lo o t ns [] ∧ list.Forward ∧
      (t.diagnostics = [] → (list.modifiers.map Placed.value).Nodup) :=
  .here (.get ((modifiersAfter_ensures _ so (List.forall_mem_nil _) fun _ => .nil).bind
    fun _ _ facts => facts))

theorem checkModifiers_stretch {lo : Nat} {o : ParseState} {ns : List Node} {list : ModifierList}
    (placed : list.Forward) (allowed : List Modifier) (so : Stretch lo o s ns []) :
    Ensures (checkModifiers list allowed) s fun _ t => Stretch lo o t ns [] := by
  unfold checkModifiers
  split
  next invalid found =>
    exact (so.report _ rfl fun _ => placed invalid (List.mem_of_find?_eq_some found)).mono
      fun _ _ facts => facts.1
  next => exact so

/-- A modifier that is not allowed has been reported. -/
theorem checkModifiers_keeps {list : ModifierList} (allowed : List Modifier) (wf : s.Wf)
    (distinct : s.diagnostics = [] → (list.modifiers.map Placed.value).Nodup) :
    Ensures (checkModifiers list allowed) s fun _ t =>
      t.diagnostics = [] → list.keeps allowed = true := by
  unfold checkModifiers
  split
  · exact fun none => absurd none (ParseState.diagnostics_report wf _ _)
  next all =>
    intro none
    refine ModifierList.keeps_iff.2 ⟨distinct none, fun m member => ?_⟩
    simpa using List.find?_eq_none.1 all m member

-- Variables

theorem variableName_yields (sound : r.Sound) (allowBounds : Bool) (wf : s.Wf) :
    Yields (variableName r allowBounds) s fun n => [.variableName n] := by
  refine (identifier_yields wf).bind fun name t so => .check ?_
  have lower := (so.fits _ (List.mem_singleton.2 rfl)).start
  refine (so.rebase.optionally Node.ofBounds rfl fun starts => ?_).bind fun array u so => ?_
  · have paren := (Bool.and_eq_true _ _ ▸ starts).2
    exact arrayBounds_yields sound allowBounds so.wf (by rw [beq_iff_eq.1 paren]; rfl)
  · exact so.finishFrom lower (so.reached List.mem_cons_self) rfl rfl

/-- The nodes of the type behind a variable, and of the arguments behind it. -/
def clauseNodes (clause : Option AsClause) : List Node :=
  (clause.map fun c => .typeName c.type :: Node.ofArguments c.arguments).getD []

theorem all_clauseNodes_isPhrase (clause : Option AsClause) :
    (clauseNodes clause).all Node.isPhrase = true :=
  Node.all_getD_isPhrase
    (fun c => by rw [List.all_cons, Node.all_ofArguments_isPhrase]; rfl) clause

theorem asClause_ensures {lo : Nat} {o : ParseState} {ns : List Node} (sound : r.Sound)
    (allowNew : Bool) (so : Stretch lo o s ns []) :
    Ensures (asClause r allowNew) s fun clause t => Stretch lo o t (ns ++ clauseNodes clause) [] ∧
      (t.diagnostics = [] →
        (clause.bind AsClause.arguments).all ArgumentList.namesAreLast = true) := by
  refine (so.eatPlace rfl).bind fun asKeyword t facts => ?_
  obtain ⟨so, -⟩ := facts
  cases asKeyword with
  | none => exact .pure ⟨(List.append_nil ns).symm ▸ so, fun _ => rfl⟩
  | some asKeyword =>
    dsimp -zeta only
    extract_lets rest
    have goOn (newKeyword : Option Location) (u : ParseState) (so : Stretch lo o u ns []) :
        Ensures (rest newKeyword) u fun clause v => Stretch lo o v (ns ++ clauseNodes clause) [] ∧
          (v.diagnostics = [] →
            (clause.bind AsClause.arguments).all ArgumentList.namesAreLast = true) := by
      unfold rest
      split
      · refine (so.part (elementType_yields sound so.wf)).bind fun type v so => ?_
        unfold constructorArguments
        refine Ensures.bind (.check (optionalArguments_ensures sound _ so)) fun arguments w facts => ?_
        obtain ⟨so, names⟩ := facts
        rw [List.append_assoc] at so
        exact ⟨so, names⟩
      · exact (so.part (sound.typeName _ so.wf)).bind fun _ _ so => ⟨so, fun _ => rfl⟩
    split
    · exact (so.eatPlace rfl).bind fun _ _ facts => goOn _ _ facts.1
    · exact goOn none t so

theorem variableNames_yields (sound : r.Sound) (allowBounds : Bool) (wf : s.Wf) :
    Ensures (variableNames r allowBounds) s fun names t =>
      Stretch s.here s t (names.items.map .variableName) [] ∧ names.items ≠ [] := by
  refine .get ?_
  refine (separatedFrom_yields (fun a => [.variableName a]) (fun _ t wf => ?_) _ _ wf).bind
    fun names t so => .pure ⟨?_, List.cons_ne_nil _ _⟩
  · exact (variableName_yields sound allowBounds wf).bind fun _ _ so => so
  · simp only [flatMap_node] at so
    exact so

theorem variableDeclarator_yields (sound : r.Sound) (allowBounds : Bool) (wf : s.Wf) :
    Yields (variableDeclarator r allowBounds) s fun d => [.declarator d] := by
  refine .here ((variableNames_yields sound allowBounds wf).bind fun names t ⟨so, nonempty⟩ => ?_)
  obtain ⟨first, member⟩ := List.exists_mem_of_ne_nil _ nonempty
  refine (asClause_ensures sound true so).bind fun type u facts => ?_
  obtain ⟨so, names⟩ := facts
  refine so.goOn ?_ fun so => ?_
  · rw [List.all_append, Node.all_map_isPhrase fun _ => rfl, all_clauseNodes_isPhrase]
    rfl
  refine (so.eatPlace rfl).bind fun equals v facts => ?_
  refine (facts.1.optionally (Node.ofOption Node.ofInitializer) rfl
    fun _ => initializer_yields sound facts.1.wf).bind fun value w so => ?_
  refine so.finishWhen (so.reached (List.mem_append_left _ (List.mem_append_left _
    (List.mem_map_of_mem member)))) rfl rfl fun none => ?_
  exact Node.isProper_of_arguments (names (so.later.clean none)) rfl

theorem variableDeclarators_yields (sound : r.Sound) (allowBounds : Bool) (wf : s.Wf) :
    Ensures (variableDeclarators r allowBounds) s fun l t =>
      Stretch s.here s t (Node.ofDeclarators l) [] ∧ l.items ≠ [] :=
  (commaList_yields .declarator _ (fun _ wf => variableDeclarator_yields sound allowBounds wf)
    wf).and (commaList_nonempty _ s)

theorem loopDeclarator_yields (sound : r.Sound) (wf : s.Wf) :
    Yields (loopDeclarator r) s fun d => [.declarator d] := by
  refine (variableName_yields sound false wf).bind fun name t so => ?_
  have lower := (so.fits _ (List.mem_singleton.2 rfl)).start
  refine (asClause_ensures sound false so.rebase).bind fun type u facts => ?_
  obtain ⟨so, names⟩ := facts
  have reached := so.reached List.mem_cons_self
  rw [← List.append_nil ([_] ++ _)] at so
  refine Ensures.mono (so.finishWhen reached rfl rfl fun none => ?_) fun _ _ so => so.weaken lower
  exact Node.isProper_of_arguments (names none) rfl

-- Attributes

theorem isSolid_of_attributeTarget (targets : (attributeTarget? s).isSome = true) :
    s.kind.isSolid = true ∧ s.kindAfter.isSolid = true := by
  unfold attributeTarget? at targets
  split at targets
  · simp at targets
  next colon =>
    have after : s.kindAfter = .mark .colon := by simpa using colon
    refine ⟨?_, by rw [after]; rfl⟩
    split at targets
    next assembly =>
      simp only [Token.isContextual, Bool.and_eq_true, beq_iff_eq] at assembly
      rw [ParseState.kind, assembly.1]
      rfl
    next =>
      split at targets
      next module =>
        rw [beq_iff_eq.1 module]
        rfl
      next => simp at targets

theorem appliedAttribute_yields (sound : r.Sound) (wf : s.Wf) :
    Yields (appliedAttribute r) s fun a => [.appliedAttribute a] := by
  refine .here (.get ?_)
  extract_lets target rest
  have goOn (t : ParseState) (so : Stretch s.here s t [] []) :
      Ensures (rest ()) t fun a u => Stretch s.here s u [.appliedAttribute a] [] := by
    refine (so.part (name_yields so.wf)).bind fun name u so => .check ?_
    refine (optionalArguments_ensures sound _ so).bind fun arguments v facts => ?_
    obtain ⟨so, names⟩ := facts
    exact so.finishWhen (so.reached List.mem_cons_self) rfl rfl
      fun none => Node.isProper_of_arguments (names none) rfl
  split
  next targets =>
    obtain ⟨first, second⟩ := isSolid_of_attributeTarget targets
    refine (Stretch.refl wf).skip first fun so => so.skip ?_ fun so => goOn _ so
    rwa [ParseState.kind_advance wf first]
  next => exact goOn s (.refl wf)

theorem attributeBlock_yields (sound : r.Sound) (wf : s.Wf) (solid : s.kind.isSolid = true) :
    Yields (attributeBlock r) s fun b => b.attributes.items.map .appliedAttribute := by
  refine (Stretch.refl wf).read solid fun so => ?_
  refine (so.part (commaList_yields .appliedAttribute _
    (fun _ wf => appliedAttribute_yields sound wf) so.wf)).bind fun attributes t so => ?_
  refine (so.expectPlace rfl rfl).bind fun closeAngle u ⟨so, present⟩ => ?_
  extract_lets rest
  split
  next absent =>
    have dirty : u.diagnostics ≠ [] := fun none => by simp_all
    refine (so.resync _ dirty).bind fun _ v so => ?_
    exact (so.eat rfl).bind fun _ _ facts => facts.1
  next => exact so

theorem attributeBlocksWithin_yields (sound : r.Sound) (n : Nat) (wf : s.Wf) :
    Yields (attributeBlocksWithin r n) s Node.ofAttributes := by
  induction n generalizing s with
  | zero => exact Stretch.refl wf
  | succ n ih =>
    refine .check ?_
    split
    next starts =>
      refine (attributeBlock_yields sound wf (by rw [beq_iff_eq.1 starts]; rfl)).bind
        fun block t so => ?_
      exact (so.part (ih so.wf)).bind fun _ _ so => so
    next => exact Stretch.refl wf

theorem attributeBlocks_yields (sound : r.Sound) (wf : s.Wf) :
    Yields (attributeBlocks r) s Node.ofAttributes :=
  .get (attributeBlocksWithin_yields sound _ wf)

-- Parameters

theorem agree_append {found : List (Placed ParameterModifier)} {modifier : ParameterModifier}
    (span : Span) (agree : ParameterModifier.agree found = true)
    (fresh : (found.any fun f => f.value == modifier) = false)
    (fits : (ParameterModifier.conflicts.any fun pair =>
      (pair.1 == modifier || found.any fun f => f.value == pair.1)
        && (pair.2 == modifier || found.any fun f => f.value == pair.2)) = false) :
    ParameterModifier.agree (found ++ [⟨modifier, span⟩]) = true := by
  unfold ParameterModifier.agree at agree ⊢
  simp only [Bool.and_eq_true, decide_eq_true_eq] at agree ⊢
  have fresh : modifier ∉ found.map Placed.value := by simpa using fresh
  refine ⟨?_, ?_⟩
  · rw [List.map_append]
    exact (List.perm_append_singleton _ _).nodup_iff.2 (List.nodup_cons.2 ⟨fresh, agree.1⟩)
  · refine List.all_eq_true.2 fun pair member => ?_
    have apart := List.any_eq_false.1 fits pair member
    simp only [List.any_append, List.any_cons, List.any_nil, Bool.or_false,
      Bool.or_comm (List.any found _), BEq.comm (a := modifier)]
    exact Bool.not_eq_true' _ ▸ eq_false_of_ne_true apart

/-- Specifiers that do not go together have been reported. -/
theorem parameterModifiersAfter_ensures {lo : Nat} {o : ParseState} {ns : List Node} (n : Nat)
    {found : List (Placed ParameterModifier)} (so : Stretch lo o s ns [])
    (agree : s.diagnostics = [] → ParameterModifier.agree found = true) :
    Ensures (parameterModifiersAfter n found) s fun list t => Stretch lo o t ns [] ∧
      (t.diagnostics = [] → ParameterModifier.agree list = true) := by
  induction n generalizing s found with
  | zero => exact ⟨so, agree⟩
  | succ n ih =>
    refine .peek ?_
    split
    · exact ⟨so, agree⟩
    next modifier denotes =>
      have forward := so.wf.stream.order
      refine so.skip (isSolid_of_parameterModifier denotes) fun so => ?_
      extract_lets has goOn
      split
      · exact (so.report _ rfl fun _ => forward).bind fun _ _ facts =>
          ih facts.1 fun none => absurd none facts.2.1
      next fresh =>
        split
        · exact (so.report _ rfl fun _ => forward).bind fun _ _ facts =>
            ih facts.1 fun none => absurd none facts.2.1
        next fits =>
          refine ih so fun none => agree_append _ (agree (s.diagnostics_advance ▸ none)) ?_ ?_
          · exact eq_false_of_ne_true fresh
          · exact eq_false_of_ne_true fits

theorem parameter_yields (sound : r.Sound) (wf : s.Wf) :
    Yields (parameter r) s fun p => [.parameter p] := by
  refine .here ((attributeBlocks_yields sound wf).bind fun attributes t so => .get ?_)
  refine (parameterModifiersAfter_ensures _ so fun _ => rfl).bind fun modifiers u facts => ?_
  obtain ⟨so, agree⟩ := facts
  refine so.goOn (Node.all_ofAttributes_isPhrase _) fun so => ?_
  refine (so.part (variableName_yields sound false so.wf)).bind fun name v so => ?_
  refine (so.whenEaten (Node.ofOption .typeName) rfl rfl sound.typeName).bind fun type w so => ?_
  refine (so.whenEaten (Node.ofOption .expression) rfl rfl
    fun _ wf => value_yields sound wf).bind fun value x so => ?_
  extract_lets rest
  have goOn (y : ParseState)
      (so : Stretch s.here u y (Node.ofAttributes attributes ++ [.variableName name]
        ++ Node.ofOption .typeName type ++ Node.ofOption .expression value) [])
      (given : y.diagnostics = [] →
        (!(modifiers.any fun m => m.value == .optional) || value.isSome) = true) :
      Ensures (rest ()) y fun p z => Stretch s.here u z [.parameter p] [] := by
    refine so.finishWhen (so.reached (n := .variableName name) (by simp))
      (by simp [Node.children]) rfl fun none => Node.isProper_of_isModified ?_ rfl
    exact Bool.and_eq_true_iff.2 ⟨agree (so.later.clean none), given none⟩
  split
  · exact (so.reportUnexpected rfl).bind fun _ y facts =>
      goOn y facts.1 fun none => absurd none facts.2.1
  next fits =>
    refine goOn x so fun _ => ?_
    cases value <;> simp_all

theorem checkParameters_stretch {lo : Nat} {o : ParseState} {parameters : List Parameter}
    (so : Stretch lo o s (parameters.map .parameter) []) :
    Ensures (checkParameters parameters) s fun _ t =>
      Stretch lo o t (parameters.map .parameter) [] := by
  unfold checkParameters
  split
  next early found =>
    have member := List.dropLast_subset _ (List.mem_of_find?_eq_some found)
    have fits := so.fits (.parameter early) (List.mem_map_of_mem member)
    exact (so.report _ rfl fun _ => fits.order).mono fun _ _ facts => facts.1
  next => exact so

/-- A parameter that takes all further arguments and is not the last has been reported. -/
theorem checkParameters_last {parameters : List Parameter} (wf : s.Wf) :
    Ensures (checkParameters parameters) s fun _ t => t.diagnostics = [] →
      (parameters.dropLast.all fun p => !p.has .paramArray) = true := by
  unfold checkParameters
  split
  · exact fun none => absurd none (ParseState.diagnostics_report wf _ _)
  next all =>
    intro none
    simpa using all

theorem parameterList_ensures (sound : r.Sound) (wf : s.Wf) :
    Ensures (parameterList r) s fun l t => Stretch s.here s t (Node.ofParameters l) [] ∧
      (t.diagnostics = [] → l.all ParameterList.restIsLast = true) := by
  refine ((Stretch.refl wf).eatPlace rfl).bind fun openParen t facts => ?_
  obtain ⟨so, -⟩ := facts
  cases openParen with
  | none => exact ⟨so, fun _ => rfl⟩
  | some openParen =>
    dsimp -zeta only
    refine .check ?_
    extract_lets rest
    have goOn (parameters : CommaList Parameter) (u : ParseState)
        (so : Stretch s.here s u (parameters.items.map .parameter) []) :
        Ensures (rest parameters) u fun l v => Stretch s.here s v (Node.ofParameters l) [] ∧
          (v.diagnostics = [] → l.all ParameterList.restIsLast = true) := by
      refine ((checkParameters_stretch so).and (checkParameters_last so.wf)).bind
        fun _ v facts => ?_
      obtain ⟨so, last⟩ := facts
      refine ((so.expectPlace rfl rfl).and ((Stretch.refl so.wf).expectPlace rfl rfl)).bind
        fun closeParen w facts => ?_
      obtain ⟨⟨so, present⟩, more, -⟩ := facts
      extract_lets give
      split
      next absent =>
        have dirty : w.diagnostics ≠ [] := fun none => by simp_all
        refine (so.discard _ dirty).bind fun _ x facts => ?_
        obtain ⟨so, dirty⟩ := facts
        refine ((so.eat rfl).and ((Stretch.refl so.wf).eat rfl)).bind fun _ y facts => ?_
        exact ⟨facts.1.1, fun none => absurd (facts.2.1.later.clean none) dirty⟩
      next => exact ⟨so, fun none => last (more.later.clean none)⟩
    split
    · exact .here (goOn (.empty t.current.span.start) t so)
    · exact (so.part (commaList_yields .parameter _ (fun _ wf => parameter_yields sound wf)
        so.wf)).bind fun parameters u so => goOn parameters u so

theorem parameterList_yields (sound : r.Sound) (wf : s.Wf) :
    Yields (parameterList r) s Node.ofParameters :=
  (parameterList_ensures sound wf).mono fun _ _ facts => facts.1

-- Clauses

theorem returnType_yields (sound : r.Sound) (wf : s.Wf) :
    Yields (returnType r) s Node.ofReturnType := by
  refine ((Stretch.refl wf).eatPlace rfl).bind fun asKeyword t ⟨so, _⟩ => ?_
  cases asKeyword with
  | none => exact so
  | some asKeyword =>
    refine (so.part (attributeBlocks_yields sound so.wf)).bind fun attributes u so => ?_
    exact (so.part (sound.typeName _ so.wf)).bind fun _ _ so => so

theorem isSolid_of_instance {kind : TokenKind} {word : InstanceKind}
    (denotes : InstanceKind.ofKind? kind = some word) : kind.isSolid = true := by
  cases kind <;> first | rfl | simp [InstanceKind.ofKind?] at denotes

theorem handlesItem_yields (r : Rules) (wf : s.Wf) :
    Yields (handlesItem r) s fun i => [.handlesItem i] := by
  refine .peek ?_
  extract_lets rest
  have goOn (source : Name) (t : ParseState) (so : Stretch s.here s t [Node.ofName source] []) :
      Ensures (rest source) t fun i u => Stretch s.here s u [.handlesItem i] [] := by
    refine (so.expectPlace rfl rfl).bind fun dot u facts => ?_
    obtain ⟨so, present⟩ := facts
    extract_lets give
    split
    · refine (so.part (memberName_yields so.wf)).bind fun event v so => ?_
      exact so.finish (so.reached List.mem_cons_self) rfl rfl
    next absent =>
      have dirty (none : u.diagnostics = []) : False := absent (present none)
      refine (so.missing (fun place => .simpleName (.missing place))
        (fun none => (dirty none).elim) rfl).bind fun place v facts => ?_
      obtain ⟨so, -⟩ := facts
      exact so.finish (so.reached List.mem_cons_self) rfl rfl
  split
  next word denotes =>
    have solid : s.kind.isSolid = true := isSolid_of_instance denotes
    have special (t : ParseState) (so : Stretch s.here s t [] []) (ahead : t.ahead = s.ahead) :
        Stretch s.here s t.advance [Node.ofName (.special word s.current.span)] [] := by
      obtain ⟨current, -⟩ := List.cons.inj ahead
      refine so.token (n := Node.ofName (.special word s.current.span)) ?_ ?_ rfl (fun _ => rfl) rfl
      · rwa [ParseState.kind, current]
      · rw [current]
        rfl
    extract_lets pass
    split
    · refine ((Stretch.refl wf).report _ rfl fun _ => wf.stream.order).bind fun _ t facts => ?_
      exact goOn _ _ (special t facts.1 facts.2.2)
    · exact goOn _ _ (special s (.refl wf) rfl)
  next => exact (identifier_yields wf).bind fun name t so => goOn (.simple name) t so

theorem handlesClause_yields (r : Rules) (wf : s.Wf) :
    Yields (handlesClause r) s Node.ofHandles := by
  refine ((Stretch.refl wf).eatPlace rfl).bind fun keyword t ⟨so, _⟩ => ?_
  cases keyword with
  | none => exact so
  | some keyword =>
    exact (so.part (commaList_yields .handlesItem _ (fun _ wf => handlesItem_yields r wf)
      so.wf)).bind fun _ _ so => so

theorem implementsClause_yields (wf : s.Wf) : Yields implementsClause s Node.ofImplements := by
  refine ((Stretch.refl wf).eatPlace rfl).bind fun keyword t ⟨so, _⟩ => ?_
  cases keyword with
  | none => exact so
  | some keyword =>
    exact (so.part (commaList_yields Node.ofName _ (fun _ wf => name_yields wf) so.wf)).bind
      fun _ _ so => so

end Parse

end VisualBasic
