import VisualBasic.Parse.Declaration
import VisualBasic.Proofs.Parse.Attempt
import VisualBasic.Proofs.Parse.Bodies
import VisualBasic.Proofs.Parse.Directive
import VisualBasic.Proofs.Parse.Member

/-!
Declarations.  They are read behind their attributes and modifiers, so a rule for a member goes on
with what has been read since `start`.
-/

set_option autoImplicit false

namespace VisualBasic

namespace Stretch

variable {α : Type} {lo : Nat} {o s : ParseState} {ns : List Node} {nodes : α → List Node}

section

variable {β : Type} {c : Prop} [Decidable c] {p : Parse (Option α)} {f : Option α → Parse β}
  {Q : β → ParseState → Prop}

/-- A part that is read under a condition. -/
theorem partIf (so : Stretch lo o s ns []) (nodes : Option α → List Node) (none : nodes none = [])
    (more : c → Yields p s nodes)
    (rest : ∀ a t, Stretch lo o t (ns ++ nodes a) [] → Ensures (f a) t Q) :
    Ensures (if c then p >>= f else pure Option.none >>= f) s Q :=
  .branch (fun holds => so.part (more holds)) (fun _ => .pure (by rwa [none, List.append_nil])) rest

theorem partUnless (so : Stretch lo o s ns []) (nodes : Option α → List Node)
    (none : nodes none = []) (more : ¬ c → Yields p s nodes)
    (rest : ∀ a t, Stretch lo o t (ns ++ nodes a) [] → Ensures (f a) t Q) :
    Ensures (if c then pure Option.none >>= f else p >>= f) s Q :=
  .branch (P := fun a t => Stretch lo o t (ns ++ nodes a) [])
    (fun _ => .pure (by rwa [none, List.append_nil])) (fun fails => so.part (more fails)) rest

end

/-- A rule that goes on by reading a token.  What has been read reaches behind its start. -/
theorem opens {f : Token → Parse α} (so : Stretch lo o s ns [])
    (phrases : ns.all Node.isPhrase = true) (solid : s.kind.isSolid = true)
    (rest : Stretch lo s.advance s.advance ns [] → lo < s.advance.limit →
      Ensures (f s.current) s.advance fun a t => Stretch lo s.advance t (nodes a) []) :
    Ensures (Parse.read >>= f) s fun a t => Stretch lo o t (nodes a) [] := by
  have reached := (ParseState.limit_advance so.wf (ParseState.kind_ne_endOfStream solid)).1
  have lower := so.lower
  refine so.read solid fun next => next.goOn phrases fun so => rest so ?_
  omega

theorem opening {f : Unit → Parse α} (so : Stretch lo o s ns [])
    (phrases : ns.all Node.isPhrase = true) (solid : s.kind.isSolid = true)
    (rest : Stretch lo s.advance s.advance ns [] → lo < s.advance.limit →
      Ensures (f ()) s.advance fun a t => Stretch lo s.advance t (nodes a) []) :
    Ensures (Parse.skip >>= f) s fun a t => Stretch lo o t (nodes a) [] :=
  opens (f := fun _ => f ()) so phrases solid rest

end Stretch

namespace Parse

variable {r : Rules} {b : Bodies} {depth : Nat} {o s : ParseState} {start : Location}
  {head : DeclarationHead}

theorem badDeclaration_attempt {t : ParseState} {ns : List Node} {problem : Problem}
    (so : Stretch s.here s t ns []) (phrases : ns.all Node.isPhrase = true)
    (quiet : problem.isQuiet = true) :
    Ensures (badDeclaration s.current.span.start problem) t fun d u =>
      Attempt s u (.declaration d) := by
  refine (so.reportUnexpected quiet).bind fun _ u ⟨so, dirty, _⟩ => ?_
  exact (so.discard [] dirty).bind fun _ v ⟨so, dirty⟩ => so.giveUp phrases dirty

/-- A declaration that breaks off behind its first word. -/
theorem badDeclaration_stretch {ns : List Node} {problem : Problem}
    (so : Stretch start.index o s ns []) (phrases : ns.all Node.isPhrase = true)
    (reached : start.index < o.limit) (quiet : problem.isQuiet = true) :
    Ensures (badDeclaration start problem) s fun d t =>
      Stretch start.index o t [.declaration d] [] := by
  refine (so.reportUnexpected quiet).bind fun _ t ⟨so, dirty, _⟩ => ?_
  refine (so.discard [] dirty).bind fun _ u ⟨so, dirty⟩ => ?_
  have so := so.forget phrases
  exact so.finishWhen (so.past reached) rfl rfl fun none => absurd none dirty

-- The top of a file

theorem switchSetting_stretch {lo : Nat} {ns : List Node} (so : Stretch lo o s ns []) :
    Ensures switchSetting s fun _ t => Stretch lo o t ns [] := by
  refine .peek (.atStatementEnd ?_)
  split
  · exact so
  · split
    next isOn =>
      exact so.skip (by rw [ParseState.kind, isOn]; rfl) fun so => so
    next =>
      split
      next isOff => exact so.skip (isSolid_of_isContextual isOff) fun so => so
      next => exact (so.reportUnexpected rfl).bind fun _ _ facts => facts.1

theorem compareSetting_stretch {lo : Nat} {ns : List Node} (so : Stretch lo o s ns []) :
    Ensures compareSetting s fun _ t => Stretch lo o t ns [] := by
  refine .peek ?_
  split
  next isBinary => exact so.skip (isSolid_of_isContextual isBinary) fun so => so
  next =>
    split
    next isText => exact so.skip (isSolid_of_isContextual isText) fun so => so
    next => exact (so.reportUnexpected rfl).bind fun _ _ facts => facts.1

theorem isSolid_of_optionKind {k : Token} {kind : OptionKind} (denotes : optionKind? k = some kind) :
    k.kind.isSolid = true := by
  unfold optionKind? at denotes
  split at denotes
  next spells => exact isSolid_of_isContextual spells
  next =>
    split at denotes
    next spells => exact isSolid_of_isContextual spells
    next =>
      split at denotes
      next spells => exact isSolid_of_isContextual spells
      next => cases denotes

theorem optionDeclaration_yields (wf : s.Wf) (solid : s.kind.isSolid = true) :
    Yields optionDeclaration s fun d => [.declaration d] := by
  refine .read wf solid fun so reached => .peek ?_
  split
  next =>
    refine (so.reportUnexpected rfl).bind fun _ t ⟨so, dirty, _⟩ => ?_
    refine (so.discard [] dirty).bind fun _ u ⟨so, dirty⟩ => ?_
    exact so.finishWhen (so.past reached) rfl rfl fun none => absurd none dirty
  next kind denotes =>
    refine so.skip (isSolid_of_optionKind denotes) fun so => ?_
    extract_lets rest
    have goOn (setting : Option OptionSetting) (t : ParseState)
        (so : Stretch s.here s.advance t [] []) :
        Ensures (rest setting) t fun d u => Stretch s.here s.advance u [.declaration d] [] :=
      so.finishStatement (so.past reached) rfl rfl
    split
    · exact (compareSetting_stretch so).bind fun setting t so => goOn setting t so
    · exact (switchSetting_stretch so).bind fun setting t so => goOn setting t so

theorem optionDeclaration_allowed (container : Container) (s : ParseState) :
    Ensures optionDeclaration s fun d _ =>
      d.isAllowedIn container = container.headingProblem?.isNone := by
  refine Ensures.any.bind fun _ t _ => .peek ?_
  split
  · rfl
  · refine Ensures.any.bind fun _ u _ => ?_
    exact .branch (fun _ => .any) (fun _ => .any) fun _ _ _ => rfl

theorem importsDeclaration_allowed (container : Container) (s : ParseState) :
    Ensures (importsDeclaration r) s fun d _ =>
      d.isAllowedIn container = container.headingProblem?.isNone := rfl

theorem identifier_advances (isName : s.kind = .identifier) :
    Ensures identifier s fun _ t => t = s.advance := by
  refine .peek ?_
  rw [show s.current.kind = .identifier from isName]
  rfl

theorem importsClause_yields (phrases : r.Sound) (wf : s.Wf) :
    Yields (importsClause r) s fun c => [.importsClause c] := by
  refine .here (.check (.kindAfter ?_))
  split
  next isAlias =>
    obtain ⟨named, equals⟩ := Bool.and_eq_true_iff.1 isAlias
    have named := beq_iff_eq.1 named
    refine ((identifier_yields wf).and (identifier_advances named)).bind
      fun aliasName t ⟨so, moves⟩ => ?_
    have solid : t.kind.isSolid = true := by
      rw [moves, ParseState.kind_advance wf (by rw [named]; rfl), beq_iff_eq.1 equals]
      rfl
    refine so.read solid fun so => ?_
    refine (so.part (elementType_yields phrases so.wf)).bind fun target u so => ?_
    exact so.finish (so.reached List.mem_cons_self) rfl rfl
  next =>
    refine (elementType_yields phrases wf).bind fun target t so => ?_
    exact so.finish (so.reached (List.mem_singleton.2 rfl)) rfl rfl

theorem importsDeclaration_yields (phrases : r.Sound) (wf : s.Wf) (solid : s.kind.isSolid = true) :
    Yields (importsDeclaration r) s fun d => [.declaration d] := by
  refine .read wf solid fun so reached => ?_
  refine (so.part (commaList_yields .importsClause _
    (fun _ wf => importsClause_yields phrases wf) so.wf)).bind fun clauses t so => ?_
  exact so.finishStatement (so.past reached) rfl rfl

theorem typeList_yields (phrases : r.Sound) (kind : TypeListKind) (container : Container)
    (wf : s.Wf) (solid : s.kind.isSolid = true) :
    Yields (typeList r kind container) s fun d => [.declaration d] := by
  refine .read wf solid fun so reached => ?_
  extract_lets keyword rest
  have goOn (t : ParseState) (so : Stretch s.here s.advance t [] []) :
      Ensures (rest ()) t fun d u => Stretch s.here s.advance u [.declaration d] [] := by
    refine (so.part (commaList_yields .typeName _
      (fun _ wf => elementType_yields phrases wf) so.wf)).bind fun types u so => ?_
    extract_lets close
    have closes (v : ParseState) (so : Stretch s.here s.advance v (types.items.map .typeName) []) :
        Ensures (close ()) v fun d w => Stretch s.here s.advance w [.declaration d] [] :=
      so.finishStatementWhen (so.past reached) rfl rfl fun _ => by cases kind <;> rfl
    split
    next first second rest given =>
      have fits := so.fits (.typeName second) (by simp [given])
      exact (so.report _ rfl fun _ => fits.order).bind fun _ v ⟨so, _⟩ => closes v so
    next => exact closes u so
  split
  · exact goOn _ so
  · exact (so.report _ (by cases kind <;> rfl) fun _ => wf.stream.order).bind
      fun _ t ⟨so, _⟩ => goOn t so

theorem namesOne_of_single {kind : TypeListKind} {container : Container}
    {types : CommaList TypeName} {span : Span} (nonempty : types.items ≠ [])
    (single : ∀ first second rest, kind = .inheritsFrom → container = .type .classType →
      types.items = first :: second :: rest → False) :
    Declaration.namesOne container ⟨kind, types, span⟩ = true := by
  simp only [Declaration.namesOne, Bool.or_eq_true, bne_iff_ne, beq_iff_eq]
  by_cases base : kind = .inheritsFrom ∧ container = .type .classType
  · refine .inr ?_
    cases items : types.items with
    | nil => exact absurd items nonempty
    | cons first rest =>
      cases rest with
      | nil => rfl
      | cons second rest => exact (single first second rest base.1 base.2 items).elim
  · exact .inl (Decidable.not_and_iff_not_or_not.1 base)

/-- Types in the wrong place, and a second base of a class, have been reported. -/
theorem typeList_allowed (phrases : r.Sound) (kind : TypeListKind) (container : Container)
    (wf : s.Wf) (solid : s.kind.isSolid = true) :
    Ensures (typeList r kind container) s fun d t =>
      t.diagnostics = [] → d.isAllowedIn container = true := by
  refine (Stretch.refl wf).read solid fun so => ?_
  extract_lets keyword rest
  have goOn (t : ParseState) (wf : t.Wf)
      (placed : t.diagnostics = [] → kind.isAllowedIn container = true) :
      Ensures (rest ()) t fun d u => u.diagnostics = [] → d.isAllowedIn container = true := by
    refine ((commaList_yields .typeName _ (fun _ wf => elementType_yields phrases wf) wf).and
      (commaList_nonempty _ t)).bind fun types u facts => ?_
    obtain ⟨so, nonempty⟩ := facts
    extract_lets close
    have closes (v : ParseState) (wf : v.Wf) (allowed : v.diagnostics = [] → ∀ span,
        Declaration.isAllowedIn container (.typeList ⟨kind, types, span⟩) = true) :
        Ensures (close ()) v fun d w => w.diagnostics = [] → d.isAllowedIn container = true :=
      ((Stretch.refl wf).endStatement _).bind fun span w facts none =>
        allowed (facts.2.later.clean none) span
    split
    next first second rest given =>
      have fits := so.fits (.typeName second) (by simp [given])
      refine (so.report _ rfl fun _ => fits.order).bind fun _ v facts => ?_
      exact closes v facts.1.wf fun none => absurd none facts.2.1
    next single =>
      refine closes u so.wf fun none span => ?_
      exact Bool.and_eq_true_iff.2
        ⟨placed (so.later.clean none), namesOne_of_single nonempty single⟩
  split
  next placed => exact goOn _ so.wf fun _ => placed
  next =>
    refine (so.report _ (by cases kind <;> rfl) fun _ => wf.stream.order).bind fun _ t facts => ?_
    exact goOn t facts.1.wf fun none => absurd none facts.2.1

-- Members

theorem fieldDeclaration_stretch (phrases : r.Sound)
    (so : Stretch start.index o s (Node.ofAttributes head.attributes) []) :
    Ensures (fieldDeclaration r start head) s fun d t =>
      Stretch start.index o t [.declaration d] [] := by
  refine ((variableDeclarators_yields phrases true so.wf).and
    (so.part ((variableDeclarators_yields phrases true so.wf).mono fun _ _ facts => facts.1))).bind
    fun declarators t ⟨⟨_, nonempty⟩, so⟩ => ?_
  obtain ⟨first, member⟩ := List.exists_mem_of_ne_nil _ nonempty
  have reached := so.reached (List.mem_append_right _ (List.mem_map_of_mem member))
  exact so.finishStatement reached rfl rfl

theorem all_attributes_isPhrase (head : DeclarationHead) :
    (Node.ofAttributes head.attributes).all Node.isPhrase = true :=
  Node.all_ofAttributes_isPhrase _

/-- A namespace has no attributes; those that are there do not show in it. -/
theorem namespaceDeclaration_stretch (sound : b.Sound depth)
    (so : Stretch start.index o s (Node.ofAttributes head.attributes) [])
    (solid : s.kind.isSolid = true) (bound : s.remaining ≤ depth) :
    Ensures (namespaceDeclaration b start) s fun d t =>
      Stretch start.index o t [.declaration d] [] := by
  have fewer := remaining_advance so.wf solid
  refine so.opening (all_attributes_isPhrase head) solid fun so reached => ?_
  have so := so.forget (all_attributes_isPhrase head)
  refine (so.part (name_yields so.wf)).bind fun name t so => ?_
  refine (so.endLine (so.beyond reached)).bind fun header u line => ?_
  have left := line.so.later.remaining
  refine (declarationBody_body sound .namespaceBlock line.forward .namespaceBody line.so.wf
    (by omega)).bind fun found v body => ?_
  refine (end_of_body line.so body rfl).bind fun ending w facts => ?_
  obtain ⟨so, roster⟩ := facts
  exact so.finishBlock (so.past reached) line.start rfl rfl rfl roster

theorem typeDeclaration_stretch (phrases : r.Sound) (sound : b.Sound depth) (kind : TypeKind)
    (so : Stretch start.index o s (Node.ofAttributes head.attributes) [])
    (solid : s.kind.isSolid = true) (bound : s.remaining ≤ depth) :
    Ensures (typeDeclaration r b start head kind) s fun d t =>
      Stretch start.index o t [.declaration d] [] := by
  have fewer := remaining_advance so.wf solid
  refine so.opening (all_attributes_isPhrase head) solid fun so reached => ?_
  refine (so.part (identifier_yields so.wf)).bind fun name t so => ?_
  refine so.partUnless Node.ofTypeParameters rfl
    (fun _ => typeParameters_yields phrases so.wf) fun parameters u so => ?_
  refine (so.endLine (so.beyond reached)).bind fun header v line => ?_
  have left := line.so.later.remaining
  refine (declarationBody_body sound kind.block line.forward (.type kind) line.so.wf
    (by omega)).bind fun found w body => ?_
  refine (end_of_body line.so body (by cases kind <;> rfl)).bind fun ending x facts => ?_
  obtain ⟨so, roster⟩ := facts
  exact so.finishBlockWhen (so.past reached) line.start rfl
    (by simp [Node.children, Node.childrenOfDeclaration]) rfl (fun _ => by cases kind <;> rfl) roster

theorem enumDeclaration_stretch (phrases : r.Sound) (sound : b.Sound depth)
    (so : Stretch start.index o s (Node.ofAttributes head.attributes) [])
    (solid : s.kind.isSolid = true) (bound : s.remaining ≤ depth) :
    Ensures (enumDeclaration r b start head) s fun d t =>
      Stretch start.index o t [.declaration d] [] := by
  have fewer := remaining_advance so.wf solid
  refine so.opening (all_attributes_isPhrase head) solid fun so reached => ?_
  refine (so.part (identifier_yields so.wf)).bind fun name t so => ?_
  refine (so.whenEaten (Node.ofOption .typeName) rfl rfl
    fun _ wf => elementType_yields phrases wf).bind fun underlying u so => ?_
  refine (so.endLine (so.beyond reached)).bind fun header v line => ?_
  have left := line.so.later.remaining
  refine (declarationBody_body sound .enumBlock line.forward .enumBody line.so.wf
    (by omega)).bind fun found w body => ?_
  refine (end_of_body line.so body rfl).bind fun ending x facts => ?_
  obtain ⟨so, roster⟩ := facts
  exact so.finishBlock (so.past reached) line.start rfl
    (by simp [Node.children, Node.childrenOfDeclaration]) rfl roster

/-- The name of a constructor is the word `New`. -/
theorem methodName_stretch {lo : Nat} {ns : List Node} {α : Type} {kind : MethodKind}
    {f : SimpleName → Parse α} {Q : α → ParseState → Prop} (so : Stretch lo o s ns [])
    (named : kind = .constructor → s.kind = .word .kwNew)
    (rest : ∀ name t, Stretch lo o t (ns ++ [.simpleName name]) [] → Ensures (f name) t Q) :
    Ensures (if kind = .constructor then do
      let token ← read
      let name ← pure (SimpleName.ofToken token)
      f name
    else do
      let name ← identifier
      f name) s Q := by
  split
  next constructs =>
    exact rest _ _ (named_token so (name?_of_kind (.inr ⟨_, named constructs⟩)))
  next => exact (so.part (identifier_yields so.wf)).bind rest

theorem all_ofParameters_isPhrase (l : Option ParameterList) :
    (Node.ofParameters l).all Node.isPhrase = true :=
  Node.all_getD_isPhrase (fun _ => Node.all_map_isPhrase (fun _ => rfl) _) l

theorem all_named_isPhrase (head : DeclarationHead) (name : SimpleName) :
    (Node.ofAttributes head.attributes ++ [Node.simpleName name]).all Node.isPhrase = true := by
  rw [List.all_append, all_attributes_isPhrase]
  rfl

theorem all_generic_isPhrase (head : DeclarationHead) (name : SimpleName)
    (l : Option TypeParameterList) :
    (Node.ofAttributes head.attributes ++ [Node.simpleName name] ++ Node.ofTypeParameters l).all
      Node.isPhrase = true := by
  rw [List.all_append, all_named_isPhrase]
  exact Node.all_getD_isPhrase (fun _ => Node.all_map_isPhrase (fun _ => rfl) _) l

/-- The parameters of a member.  A rule goes on behind them with what it has read. -/
theorem parameters_stretch {α : Type} {lo : Nat} {ns : List Node} {nodes : α → List Node}
    {f : Option ParameterList → Parse α} (phrases : r.Sound) (so : Stretch lo o s ns [])
    (phrasal : ns.all Node.isPhrase = true)
    (rest : ∀ parameters t, Stretch lo t t (ns ++ Node.ofParameters parameters) [] → o.Later t →
      (t.diagnostics = [] → parameters.all ParameterList.restIsLast = true) →
      Ensures (f parameters) t fun a u => Stretch lo t u (nodes a) []) :
    Ensures (parameterList r >>= f) s fun a u => Stretch lo o u (nodes a) [] := by
  refine (parameterList_ensures phrases so.wf).bind fun parameters t facts => ?_
  obtain ⟨more, last⟩ := facts
  have so := so.append more
  refine Stretch.goOn so ?_ fun here => rest parameters t here so.later last
  rw [List.all_append, phrasal, all_ofParameters_isPhrase]
  rfl

theorem methodDeclaration_stretch (phrases : r.Sound) (sound : b.Sound depth) (kind : MethodKind)
    (container : Container) (so : Stretch start.index o s (Node.ofAttributes head.attributes) [])
    (solid : s.kind.isSolid = true) (named : kind = .constructor → s.kindAfter = .word .kwNew)
    (bound : s.remaining ≤ depth) :
    Ensures (methodDeclaration r b start head kind container) s fun d t =>
      Stretch start.index o t [.declaration d] [] := by
  have fewer := remaining_advance so.wf solid
  have named (constructs : kind = .constructor) : s.advance.kind = .word .kwNew :=
    (ParseState.kind_advance so.wf solid).trans (named constructs)
  refine so.opening (all_attributes_isPhrase head) solid fun so reached => ?_
  refine methodName_stretch so named fun name t so => ?_
  refine so.partUnless Node.ofTypeParameters rfl
    (fun _ => typeParameters_yields phrases so.wf) fun typeParameters u so => ?_
  refine parameters_stretch phrases so (all_generic_isPhrase head name typeParameters)
    fun parameters v so later last => ?_
  have reached := Nat.lt_of_lt_of_le reached later.limit
  have passed := later.remaining
  refine so.partIf Node.ofReturnType rfl
    (fun _ => returnType_yields phrases so.wf) fun result w so => ?_
  refine (so.part (handlesClause_yields r so.wf)).bind fun handled x so => ?_
  refine (so.part (implementsClause_yields so.wf)).bind fun implemented y so => ?_
  refine (so.endLine (so.beyond reached)).bind fun header z line => ?_
  have left := line.so.later.remaining
  split
  next =>
    rw [pure_bind]
    refine line.so.finishWhen (line.so.past reached)
      (by simp [Node.children, Node.childrenOfDeclaration]) rfl fun none => ?_
    exact Node.isProper_of_parameters (last (line.so.later.clean none)) (by cases kind <;> rfl) rfl
  next =>
    refine (statementBody_body sound kind.block line.forward line.so.wf (by omega)).bind
      fun found p body => ?_
    refine (end_of_body line.so body (by cases kind <;> rfl)).bind fun ending q facts => ?_
    obtain ⟨so, roster⟩ := facts
    rw [pure_bind]
    refine so.finishBlockWhen (so.past reached) line.start rfl
      (by simp [Node.children, Node.childrenOfDeclaration]) rfl (fun none => ?_) roster
    exact Node.isProper_of_parameters (last (so.later.clean none)) (by cases kind <;> rfl) rfl

theorem isSolid_of_operator {kind contextual : TokenKind} {op : OverloadableOperator}
    (denotes : OverloadableOperator.ofToken? kind contextual = some op) :
    kind.isSolid = true := by
  cases kind with
  | endOfStream | lexicalError | lineTerminator =>
    simp [OverloadableOperator.ofToken?, BinaryOperator.ofKind?] at denotes
  | _ => rfl

/-- An operator that is not found is reported.  The token in its place is passed unless the line
goes on or ends there. -/
theorem operatorName_stretch {lo : Nat} {ns : List Node} (so : Stretch lo o s ns []) :
    Ensures operatorName s fun found t =>
      Stretch lo o t ns [] ∧ (t.diagnostics = [] → found.1.isSome = true) := by
  refine .peek ?_
  split
  next op denotes =>
    exact so.skip (isSolid_of_operator denotes) fun so => ⟨so, fun _ => rfl⟩
  next =>
    refine (so.reportUnexpected rfl).bind fun _ t ⟨so, dirty, _⟩ => .check (.atStatementEnd ?_)
    split
    next =>
      refine so.placeholder.bind fun place u ⟨_, so, _, _, same⟩ => ?_
      exact ⟨so, fun none => absurd (same ▸ none) dirty⟩
    next goesOn =>
      have inside := ParseState.within_skipped t (by simp_all)
      exact ⟨so.advance (fun _ => dirty) inside,
        fun none => absurd (t.diagnostics_advance ▸ none) dirty⟩

theorem operatorDeclaration_stretch (phrases : r.Sound) (sound : b.Sound depth)
    (so : Stretch start.index o s (Node.ofAttributes head.attributes) [])
    (solid : s.kind.isSolid = true) (bound : s.remaining ≤ depth) :
    Ensures (operatorDeclaration r b start head) s fun d t =>
      Stretch start.index o t [.declaration d] [] := by
  have fewer := remaining_advance so.wf solid
  refine so.opening (all_attributes_isPhrase head) solid fun so reached => ?_
  refine (operatorName_stretch so).bind fun operator t ⟨so, present⟩ => ?_
  have reached := so.beyond reached
  have fewer := so.later.remaining
  refine so.goOn (all_attributes_isPhrase head) fun so => ?_
  refine parameters_stretch phrases so (all_attributes_isPhrase head)
    fun parameters u so later last => ?_
  have reached := Nat.lt_of_lt_of_le reached later.limit
  have passed := later.remaining
  refine (so.part (returnType_yields phrases so.wf)).bind fun result v so => ?_
  refine (so.endLine (so.beyond reached)).bind fun header w line => ?_
  have left := line.so.later.remaining
  refine (statementBody_body sound .operatorBlock line.forward line.so.wf (by omega)).bind
    fun found x body => ?_
  refine (end_of_body line.so body rfl).bind fun ending y facts => ?_
  obtain ⟨so, roster⟩ := facts
  refine so.finishBlockWhen (so.past reached) line.start rfl rfl rfl (fun none => ?_) roster
  have none := so.later.clean none
  exact Node.isProper_of_parameters (last none) (present (later.clean none)) rfl

theorem all_propertyParts_isPhrase (head : DeclarationHead) (name : SimpleName)
    (parameters : Option ParameterList) (result : Option ReturnType)
    (implemented : Option ImplementsClause) :
    (Node.ofAttributes head.attributes ++ [Node.simpleName name] ++ Node.ofParameters parameters
      ++ Node.ofReturnType result ++ Node.ofImplements implemented).all Node.isPhrase = true := by
  have list := all_ofParameters_isPhrase parameters
  have type : (Node.ofReturnType result).all Node.isPhrase = true := Node.all_getD_isPhrase
    (fun _ => by rw [List.all_append, Node.all_ofAttributes_isPhrase]; rfl) result
  have names : (Node.ofImplements implemented).all Node.isPhrase = true :=
    Node.all_getD_isPhrase (fun _ => Node.all_map_isPhrase Node.isPhrase_ofName _) implemented
  simp only [List.all_append, all_attributes_isPhrase head, list, type, names]
  rfl

theorem implies_eq_false_of_isPhrase {n c : Node} (phrase : c.isPhrase = true) :
    n.implies c = false := by
  cases c with
  | declaration => simp [Node.isPhrase] at phrase
  | _ => cases n with
    | declaration d => cases d <;> rfl
    | _ => rfl

/-- A property implies no accessor that comes behind its name. -/
theorem implies_eq_false_of_after {d : PropertyDeclaration Declaration} {c : Node}
    (after : d.name.span.start.index ≤ c.span.start.index) :
    (Node.declaration (.property d)).implies c = false := by
  cases c with
  | declaration e =>
    cases e with
    | accessor a => exact decide_eq_false (Nat.not_lt.2 after)
    | _ => rfl
  | _ => rfl

/-- The accessor that a property of a single accessor implies spans the keyword and the body of the
property. -/
theorem impliedAccessor_fits {t : ParseState} {d : AccessorDeclaration Statement} {keyword : Span}
    (span : d.span = keyword.merge d.body.span) (attributes : d.head.attributes = [])
    (parameters : d.parameters = none) (order : keyword.start.index ≤ keyword.finish.index)
    (before : keyword.finish.index ≤ d.body.span.start.index)
    (ordered : d.body.span.start.index ≤ d.body.span.finish.index)
    (reached : d.body.span.finish.index ≤ t.limit)
    (covers : ∀ c ∈ Node.ofStatements d.body, d.body.span.start.index ≤ c.span.start.index ∧
      c.span.finish.index ≤ d.body.span.finish.index)
    (fits : ∀ c ∈ Node.ofStatements d.body, c.Fits 0 t.limit (t.diagnostics = []))
    (ascending : Node.Ascending (Node.ofStatements d.body)) :
    (Node.declaration (.accessor d)).Fits keyword.start.index t.limit (t.diagnostics = []) := by
  have children : (Node.declaration (.accessor d)).children = Node.ofStatements d.body := by
    simp [Node.children, Node.childrenOfDeclaration, attributes, parameters, Node.ofAttributes,
      Node.ofParameters]
  have begins : (Node.declaration (.accessor d)).span.start.index = keyword.start.index := by
    show d.span.start.index = _
    rw [span, Span.index_start_merge]
    omega
  have ends : (Node.declaration (.accessor d)).span.finish.index = d.body.span.finish.index := by
    show d.span.finish.index = _
    rw [span, Span.index_finish_merge]
    omega
  have own : (Node.declaration (.accessor d)).Fits (Node.declaration (.accessor d)).span.start.index
      (Node.declaration (.accessor d)).span.finish.index (t.diagnostics = []) := by
    refine .own (by omega) (fun c member => ?_) (children ▸ ascending) (fun _ => ?_) rfl fun _ _ => rfl
    · rw [children] at member
      obtain ⟨after, within⟩ := covers c member
      exact { fits c member with start := by omega, finish := by omega }
    · refine Node.isProper_of_parameters ?_ ?_ rfl
      · rw [Node.parameters?, parameters]
        rfl
      · cases d with
        | mk kind => cases kind <;> rfl
  exact own.mono (by omega) (by omega) id

/-- A property with the accessor that it implies, from what has been read for both. -/
theorem stretch_of_implied {t : ParseState} {n a : Node} {parts statements : List Node}
    {owed : List (BlockKind × Nat)} (so : Stretch start.index o t (parts ++ statements) owed)
    (reached : start.index ≤ t.limit) (phrases : parts.all Node.isPhrase = true)
    (fits : a.Fits start.index t.limit (t.diagnostics = [])) (span : n.span = t.spanSince start)
    (children : n.children = parts ++ [a]) (below : a.children = statements)
    (implied : n.implies a = true) (late : ∃ c ∈ parts, a.span.start.index < c.span.start.index)
    (plain : ∀ c, a.implies c = false)
    (whole : t.diagnostics = [] → n.isProper = true) (noLoop : n.closing? = none)
    (isItem : n.isPhrase = false) (owes : n.unclosed = owed) (listed : n.lists = [[a]])
    (allowed : a.isAllowedIn n.container = true) (orderly : t.diagnostics = [] → a.Orderly o.ahead) :
    Stretch start.index o t [n] [] := by
  have begins : n.span.start.index = start.index := by rw [span]; rfl
  have ends : n.span.finish.index = t.limit := by
    rw [span, t.index_finishSince]
    exact Nat.max_eq_right reached
  have inside (c : Node) (member : c ∈ n.children) :
      c.Fits start.index t.limit (t.diagnostics = []) := by
    rw [children] at member
    rcases List.mem_append.1 member with part | last
    · exact so.fits c (List.mem_append_left _ part)
    · rw [List.mem_singleton.1 last]
      exact fits
  -- the accessor is the one child that is listed behind a later one
  have inOrder : n.InOrder := by
    refine Node.inOrder_of_last children (List.pairwise_append.1 so.ascending).1
      (fun c member => Node.not_displaced noLoop ?_)
      (iff_of_false (fun inOrder => ?_) (not_not.2 (.inl implied)))
    · exact implies_eq_false_of_isPhrase (List.all_eq_true.1 phrases c member)
    · obtain ⟨c, member, later⟩ := late
      exact Nat.not_lt.2 (inOrder c member) later
  refine so.gather (.refl t) isItem begins (Nat.le_of_eq ends) ⟨by omega, fun c member => ?_⟩
    inOrder (fun none => ⟨whole none, ?_⟩) (fun c member => ⟨_, _, inside c member⟩) (fun none => ?_) ?_
  · rw [Node.contains_iff, begins, ends]
    exact iff_of_true ⟨(inside c member).start, (inside c member).finish⟩
      (Node.not_closedBefore noLoop)
  · simp [Node.closingVariables, noLoop]
  · have roster : Node.Roster o.ahead n.container [a] :=
      ⟨.singleton a, List.forall_mem_singleton.2 allowed, List.pairwise_singleton _ _⟩
    refine Node.everywhere_iff.2 ⟨Node.orderly_of_lists listed
      (List.forall_mem_singleton.2 roster), fun c member => ?_⟩
    rw [children] at member
    rcases List.mem_append.1 member with part | last
    · exact so.orderly none c (List.mem_append_left _ part)
    · rw [List.mem_singleton.1 last]
      refine Node.everywhere_iff.2 ⟨orderly none, fun c member => ?_⟩
      exact so.orderly none c (List.mem_append_right _ (below ▸ member))
  · have none : parts.flatMap Node.openBlocks = [] := List.flatMap_eq_nil_iff.2 fun c member =>
      Node.openBlocks_of_isPhrase (List.all_eq_true.1 phrases c member)
    rw [Node.openBlocks_of_implied children phrases implied fun c _ => plain c, below, owes,
      List.flatMap_append, none]
    exact List.perm_append_comm

theorem singleAccessorProperty_stretch (phrases : r.Sound) (sound : b.Sound depth)
    (so : Stretch start.index o s (Node.ofAttributes head.attributes) [])
    (solid : s.kind.isSolid = true) (bound : s.remaining ≤ depth) :
    Ensures (singleAccessorProperty r b start head) s fun d t =>
      Stretch start.index o t [.declaration d] [] := by
  have fewer := remaining_advance so.wf solid
  have wf := so.wf
  have lower := so.lower
  obtain ⟨passed, behind, -⟩ := ParseState.limit_advance wf (ParseState.kind_ne_endOfStream solid)
  refine so.opens (all_attributes_isPhrase head) solid fun so reached => ?_
  refine ((so.part (identifier_yields so.wf)).and (identifier_yields so.wf)).bind
    fun name t ⟨so, own⟩ => ?_
  have late := (own.fits _ (List.mem_singleton.2 rfl)).start
  refine parameters_stretch phrases so (all_named_isPhrase head name)
    fun parameters u so later last => ?_
  have reached := Nat.lt_of_lt_of_le reached later.limit
  have named := later.here
  have read := later.limit
  have fewer := Nat.lt_of_le_of_lt later.remaining fewer
  refine so.partIf Node.ofReturnType rfl
    (fun _ => returnType_yields phrases so.wf) fun result v so => ?_
  refine (so.endLine (so.beyond reached)).bind fun header w line => ?_
  have left := line.so.later.remaining
  refine (statementBody_body sound .propertyBlock line.forward line.so.wf (by omega)).bind
    fun found x body => ?_
  refine (takeEnd_silent body.so.wf (end_stands body rfl)).bind fun ending y ⟨ended, same⟩ => ?_
  have so := (line.so.append body.so).followed ended
  rw [← same] at so
  have final := so.later.limit
  have limit := ended.later.limit
  have here := line.so.later.here
  have token := ParseState.finish_le_limit_advance wf (ParseState.kind_ne_endOfStream solid)
  have begins := body.start
  have ends := body.finish
  extract_lets span accessor
  -- the keyword is passed before the name is read
  have early : accessor.span.start.index < name.span.start.index := by
    have early : accessor.span.start.index ≤ s.here :=
      Nat.le_trans (Nat.le_of_eq (Span.index_start_merge _ _)) (Nat.min_le_left _ _)
    have late : s.advance.here ≤ name.span.start.index := late
    omega
  refine .spanFrom (.pure (stretch_of_implied (a := .declaration (.accessor accessor)) so
    (so.past reached) ?_ ?_ rfl ?_ rfl (decide_eq_true early) ⟨.simpleName name, by simp, early⟩
    (fun _ => rfl) (fun none => ?_) rfl rfl ?_ rfl ?_ fun none => ?_))
  · simpa [Node.ofImplements] using all_propertyParts_isPhrase head name parameters result none
  · refine (impliedAccessor_fits (d := accessor) rfl rfl rfl wf.stream.order ?_ body.order ?_
      body.covers ?_ ?_).mono lower (Nat.le_refl _) id
    · show s.current.span.finish.index ≤ found.1.span.start.index
      omega
    · show found.1.span.finish.index ≤ y.limit
      omega
    · intro c member
      exact (so.fits c (List.mem_append_right _ member)).mono (Nat.zero_le _) (Nat.le_refl _) id
    · exact body.so.ascending
  · simp [Node.children, Node.childrenOfDeclaration, Node.ofImplements, Node.ofDeclarations]
  · exact Node.isProper_of_parameters (last (so.later.clean none)) rfl rfl
  · exact Node.unclosed_eq_owing rfl line.start
  · rfl
  · exact Node.orderly_of_lists rfl (List.forall_mem_singleton.2
      (body.roster_since line.so.runs ended.later none))

theorem propertyDeclaration_stretch (phrases : r.Sound) (sound : b.Sound depth)
    (container : Container) (so : Stretch start.index o s (Node.ofAttributes head.attributes) [])
    (solid : s.kind.isSolid = true) (bound : s.remaining ≤ depth) :
    Ensures (propertyDeclaration r b start head container) s fun d t =>
      Stretch start.index o t [.declaration d] [] := by
  have fewer := remaining_advance so.wf solid
  refine so.opening (all_attributes_isPhrase head) solid fun so reached => .peekKind ?_
  have single (keyword : s.advance.kind.isSolid = true) :=
    singleAccessorProperty_stretch phrases sound so keyword (by omega)
  split
  next isGet => exact single (by rw [isGet]; rfl)
  next isSet => exact single (by rw [isSet]; rfl)
  next isLet => exact single (by rw [isLet]; rfl)
  next =>
    refine (so.part (identifier_yields so.wf)).bind fun name t so => ?_
    refine parameters_stretch phrases so (all_named_isPhrase head name)
      fun parameters u so later last => ?_
    have reached := Nat.lt_of_lt_of_le reached later.limit
    have passed := later.remaining
    refine (so.part (returnType_yields phrases so.wf)).bind fun result v so => ?_
    refine (so.part (implementsClause_yields so.wf)).bind fun implemented w so => ?_
    refine (so.endLine (so.beyond reached)).bind fun header x line => ?_
    have left := line.so.later.remaining
    have phrasal := all_propertyParts_isPhrase head name parameters result implemented
    split
    next =>
      rw [pure_bind]
      refine line.so.finishNode (line.so.past reached)
        (by simp [Node.children, Node.childrenOfDeclaration]) rfl (fun none => ?_) rfl rfl
        (fun c member => implies_eq_false_of_isPhrase (List.all_eq_true.1 phrasal c member))
        fun _ => Node.orderly_of_flat rfl _
      exact Node.isProper_of_parameters (last (line.so.later.clean none)) rfl rfl
    next =>
      refine (declarationBody_body sound .propertyBlock line.forward .propertyBody line.so.wf
        (by omega)).bind fun found y body => ?_
      refine (end_of_body line.so body rfl).bind fun ending z facts => ?_
      obtain ⟨so, roster⟩ := facts
      rw [pure_bind]
      refine so.finishNode (so.past reached)
        (by simp [Node.children, Node.childrenOfDeclaration]) rfl
        (fun none => Node.isProper_of_parameters (last (so.later.clean none)) rfl rfl)
        (Node.unclosed_eq_owing rfl line.start) rfl (fun c member => ?_)
        fun none => Node.orderly_of_lists rfl (roster none)
      rcases List.mem_append.1 member with part | accessor
      · exact implies_eq_false_of_isPhrase (List.all_eq_true.1 phrasal c part)
      · have fits := line.so.fits (.simpleName name) (by simp)
        have before := fits.order
        have ends := fits.finish
        have behind := line.so.wf.behind
        have after := (body.so.fits c accessor).start
        exact implies_eq_false_of_after
          (show (Node.simpleName name).span.start.index ≤ c.span.start.index by omega)

theorem accessorDeclaration_ensures (phrases : r.Sound) (sound : b.Sound depth)
    (kind : AccessorKind) (container : Container) (forward : head.modifiers.Forward)
    (distinct : s.diagnostics = [] → (head.modifiers.modifiers.map Placed.value).Nodup)
    (so : Stretch start.index o s (Node.ofAttributes head.attributes) [])
    (solid : s.kind.isSolid = true) (bound : s.remaining ≤ depth) :
    Ensures (accessorDeclaration r b start head kind) s fun d t =>
      Stretch start.index o t [.declaration d] [] ∧
        (t.diagnostics = [] → d.isAllowedIn container = true) := by
  have fewer := remaining_advance so.wf solid
  have reached := (ParseState.limit_advance so.wf (ParseState.kind_ne_endOfStream solid)).1
  have lower := so.lower
  rw [← s.diagnostics_advance] at distinct
  refine so.skip solid fun so => ?_
  refine (((checkModifiers_stretch forward _ so).and
    (checkModifiers_stretch forward _ (.refl so.wf))).and
    (checkModifiers_keeps _ so.wf distinct)).bind fun _ t facts => ?_
  obtain ⟨⟨so, own⟩, keeps⟩ := facts
  have reached : start.index < t.limit := own.beyond (by omega)
  have passed := own.later.remaining
  refine Ensures.mono (P := fun d u => Stretch start.index t u [.declaration d] [] ∧
    d.isAllowedIn container = head.modifiers.keeps (if kind.isOfProperty then Modifier.access else []))
    (.and ?_ rfl) fun d u facts => ?_
  · refine parameters_stretch phrases (so.restart (all_attributes_isPhrase head))
      (all_attributes_isPhrase head) fun parameters u so later last => ?_
    have reached := Nat.lt_of_lt_of_le reached later.limit
    have fewer := later.remaining
    refine (so.endLine (so.beyond reached)).bind fun header v line => ?_
    have left := line.so.later.remaining
    refine (statementBody_body sound kind.block line.forward line.so.wf (by omega)).bind
      fun found w body => ?_
    refine (end_of_body line.so body (by cases kind <;> rfl)).bind fun ending x facts => ?_
    obtain ⟨so, roster⟩ := facts
    refine so.finishBlockWhen (so.past reached) line.start rfl rfl rfl (fun none => ?_) roster
    exact Node.isProper_of_parameters (last (so.later.clean none)) (by cases kind <;> rfl) rfl
  · obtain ⟨more, same⟩ := facts
    refine ⟨(so.forget (all_attributes_isPhrase head)).trans more, fun none => ?_⟩
    rw [same]
    exact keeps (more.later.clean none)

theorem eventDeclaration_stretch (phrases : r.Sound)
    (so : Stretch start.index o s (Node.ofAttributes head.attributes) [])
    (solid : s.kind.isSolid = true) :
    Ensures (eventDeclaration r start head) s fun d t =>
      Stretch start.index o t [.declaration d] [] := by
  refine so.opening (all_attributes_isPhrase head) solid fun so reached => ?_
  refine (so.part (identifier_yields so.wf)).bind fun name t so => ?_
  refine parameters_stretch phrases so (all_named_isPhrase head name)
    fun parameters u so later last => ?_
  have reached := Nat.lt_of_lt_of_le reached later.limit
  refine so.partIf (Node.ofOption .typeName) rfl (fun _ => ?_) fun type v so => ?_
  · exact (Stretch.refl so.wf).whenEaten (Node.ofOption .typeName) rfl rfl
      fun _ wf => elementType_yields phrases wf
  · refine (so.part (implementsClause_yields so.wf)).bind fun implemented w so => ?_
    refine so.finishStatementWhen (so.past reached)
      (by simp [Node.children, Node.childrenOfDeclaration]) rfl fun none => ?_
    exact Node.isProper_of_parameters (last (so.later.clean none)) rfl rfl

theorem customEventDeclaration_stretch (phrases : r.Sound) (sound : b.Sound depth)
    (so : Stretch start.index o s (Node.ofAttributes head.attributes) [])
    (solid : s.kind.isSolid = true) (second : s.kindAfter.isSolid = true)
    (bound : s.remaining ≤ depth) :
    Ensures (customEventDeclaration r b start head) s fun d t =>
      Stretch start.index o t [.declaration d] [] := by
  have fewer := remaining_advance so.wf solid
  have second : s.advance.kind.isSolid = true := by rwa [ParseState.kind_advance so.wf solid]
  refine so.opens (all_attributes_isPhrase head) solid fun so reached => ?_
  refine so.skip second fun so => ?_
  refine (so.part (identifier_yields so.wf)).bind fun name t so => ?_
  refine (so.expect rfl rfl).bind fun keyword u ⟨so, _⟩ => ?_
  extract_lets rest
  have goOn (type : Option TypeName) (v : ParseState)
      (so : Stretch start.index s.advance v (Node.ofAttributes head.attributes
        ++ [.simpleName name] ++ Node.ofOption .typeName type) []) :
      Ensures (rest type) v fun d w => Stretch start.index s.advance w [.declaration d] [] := by
    refine (so.part (implementsClause_yields so.wf)).bind fun implemented w so => ?_
    refine (so.endLine (so.beyond reached)).bind fun header x line => ?_
    have left := line.so.later.remaining
    refine (declarationBody_body sound .eventBlock line.forward .eventBody line.so.wf
      (by omega)).bind fun found y body => ?_
    refine (end_of_body line.so body rfl).bind fun ending z facts => ?_
    obtain ⟨so, roster⟩ := facts
    exact so.finishBlock (so.past reached) line.start rfl
      (by simp [Node.children, Node.childrenOfDeclaration]) rfl roster
  cases keyword with
  | none => exact goOn none u (by simpa [Node.ofOption] using so)
  | some keyword =>
    exact (so.part (elementType_yields phrases so.wf)).mapBind fun type v so => goOn (some type) v so

theorem isSolid_of_isFunction {kind : TokenKind} {isFunction : Bool}
    (denotes : isFunction? kind = some isFunction) : kind.isSolid = true := by
  cases kind <;> first | rfl | simp [isFunction?] at denotes

theorem delegateDeclaration_stretch (phrases : r.Sound)
    (so : Stretch start.index o s (Node.ofAttributes head.attributes) [])
    (solid : s.kind.isSolid = true) :
    Ensures (delegateDeclaration r start head) s fun d t =>
      Stretch start.index o t [.declaration d] [] := by
  refine so.opening (all_attributes_isPhrase head) solid fun so reached => .peekKind ?_
  split
  next =>
    exact badDeclaration_stretch so (all_attributes_isPhrase head) reached rfl
  next isFunction denotes =>
    refine so.skip (isSolid_of_isFunction denotes) fun so => ?_
    refine (so.part (identifier_yields so.wf)).bind fun name t so => ?_
    refine (so.part (typeParameters_yields phrases so.wf)).bind fun typeParameters u so => ?_
    refine parameters_stretch phrases so (all_generic_isPhrase head name typeParameters)
      fun parameters v so later last => ?_
    have reached := Nat.lt_of_lt_of_le reached later.limit
    refine so.partIf Node.ofReturnType rfl
      (fun _ => returnType_yields phrases so.wf) fun result w so => ?_
    refine so.finishStatementWhen (so.past reached)
      (by simp [Node.children, Node.childrenOfDeclaration]) rfl fun none => ?_
    exact Node.isProper_of_parameters (last (so.later.clean none)) (by cases isFunction <;> rfl) rfl

theorem charset_stretch {lo : Nat} {ns : List Node} (so : Stretch lo o s ns []) :
    Ensures charset s fun _ t => Stretch lo o t ns [] := by
  refine .peek ?_
  extract_lets found rest
  split
  next spells =>
    refine so.skip ?_ fun so => so
    by_cases ansi : s.current.isContextual .kwAnsi = true
    · exact isSolid_of_isContextual ansi
    · by_cases unicode : s.current.isContextual .kwUnicode = true
      · exact isSolid_of_isContextual unicode
      · by_cases auto : s.current.isContextual .kwAuto = true
        · exact isSolid_of_isContextual auto
        · simp [found, ansi, unicode, auto] at spells
  next => exact so

theorem externalDeclaration_stretch (phrases : r.Sound)
    (so : Stretch start.index o s (Node.ofAttributes head.attributes) [])
    (solid : s.kind.isSolid = true) :
    Ensures (externalDeclaration r start head) s fun d t =>
      Stretch start.index o t [.declaration d] [] := by
  refine so.opening (all_attributes_isPhrase head) solid fun so reached => ?_
  refine (charset_stretch so).bind fun charset t so => .peekKind ?_
  split
  next => exact badDeclaration_stretch so (all_attributes_isPhrase head) reached rfl
  next isFunction denotes =>
    refine so.skip (isSolid_of_isFunction denotes) fun so => ?_
    refine (so.part (identifier_yields so.wf)).bind fun name u so => ?_
    refine (so.expect rfl rfl).bind fun keyword v ⟨so, _⟩ => ?_
    extract_lets afterLibrary
    have parts (library : Option String) (w : ParseState)
        (so : Stretch start.index s.advance w
          (Node.ofAttributes head.attributes ++ [.simpleName name]) []) :
        Ensures (afterLibrary library) w fun d x =>
          Stretch start.index s.advance x [.declaration d] [] := by
      refine (so.eat rfl).bind fun aliasKeyword x ⟨so, _⟩ => ?_
      extract_lets afterAlias
      have signature (aliasName : Option String) (y : ParseState)
          (so : Stretch start.index s.advance y
            (Node.ofAttributes head.attributes ++ [.simpleName name]) []) :
          Ensures (afterAlias aliasName) y fun d z =>
            Stretch start.index s.advance z [.declaration d] [] := by
        refine parameters_stretch phrases so (all_named_isPhrase head name)
          fun parameters z so later last => ?_
        have reached := Nat.lt_of_lt_of_le reached later.limit
        refine so.partIf Node.ofReturnType rfl
          (fun _ => returnType_yields phrases so.wf) fun result w so => ?_
        refine so.finishStatementWhen (so.past reached)
          (by simp [Node.children, Node.childrenOfDeclaration]) rfl fun none => ?_
        exact Node.isProper_of_parameters (last (so.later.clean none))
          (by cases isFunction <;> rfl) rfl
      cases aliasKeyword with
      | none => exact signature none x so
      | some _ => exact (so.silent (stringLiteral_yields so.wf)).bind signature
    cases keyword with
    | none => exact parts none v so
    | some _ => exact (so.silent (stringLiteral_yields so.wf)).bind parts

-- Dispatch

theorem isSolid_of_member {isModified : Bool} {member : Member}
    (introduces : member? s isModified = some member) : s.kind.isSolid = true := by
  unfold member? at introduces
  cases kind : s.kind <;> first | rfl | simp [kind] at introduces

/-- The words that introduce a constructor and a custom event are two each. -/
theorem kindAfter_of_member {isModified : Bool} {member : Member}
    (introduces : member? s isModified = some member) :
    (member = .constructor → s.kindAfter = .word .kwNew) ∧
      (member = .customEvent → s.kindAfter = .word .kwEvent) := by
  unfold member? at introduces
  constructor <;> rintro rfl <;> split at introduces <;> grind

theorem placementProblem_isQuiet {member : Member} {container : Container} {problem : Problem}
    (misplaced : member.placementProblem? container = some problem) : problem.isQuiet = true := by
  unfold Member.placementProblem? at misplaced
  split at misplaced <;> (try split at misplaced) <;> cases misplaced <;> rfl

theorem headingProblem_isQuiet {container : Container} {problem : Problem}
    (misplaced : container.headingProblem? = some problem) : problem.isQuiet = true := by
  unfold Container.headingProblem? at misplaced
  split at misplaced <;> cases misplaced <;> rfl

theorem checkModifiers_ahead (list : ModifierList) (allowed : List Modifier) (s : ParseState) :
    Ensures (checkModifiers list allowed) s fun _ t => t.ahead = s.ahead := by
  unfold checkModifiers
  split
  · exact s.ahead_report _ _
  · rfl

theorem kinds_of_ahead {t : ParseState} (ahead : t.ahead = s.ahead) :
    t.kind = s.kind ∧ t.kindAfter = s.kindAfter ∧ t.remaining = s.remaining := by
  obtain ⟨current, following⟩ := List.cons.inj ahead
  simp [ParseState.kind, ParseState.kindAfter, ParseState.remaining, current, following]

theorem memberDeclaration_ensures (phrases : r.Sound) (sound : b.Sound depth)
    {head : DeclarationHead} (forward : head.modifiers.Forward)
    (distinct : s.diagnostics = [] → (head.modifiers.modifiers.map Placed.value).Nodup)
    (container : Container) {member : Member} {isModified : Bool}
    (so : Stretch start.index o s (Node.ofAttributes head.attributes) [])
    (introduces : member? s isModified = some member) (bound : s.remaining ≤ depth) :
    Ensures (memberDeclaration r b start head container member) s fun d t =>
      Stretch start.index o t [.declaration d] [] ∧
        (t.diagnostics = [] → d.isAllowedIn container = true) := by
  have solid := isSolid_of_member introduces
  obtain ⟨constructs, custom⟩ := kindAfter_of_member introduces
  -- a member that is out of place, or has a modifier that is, has been reported before it is read
  have checked : Ensures (memberDeclaration r b start head container member) s fun d t =>
      Stretch start.index o t [.declaration d] [] ∧
        (t.diagnostics = [] → member.placementProblem? container = none ∧
          head.modifiers.keeps (member.modifiersIn container) = true) := by
    refine .peek ?_
    extract_lets methodKind rest
    have goOn (t : ParseState)
        (so : Stretch start.index o t (Node.ofAttributes head.attributes) [])
        (ahead : t.ahead = s.ahead)
        (distinct : t.diagnostics = [] → (head.modifiers.modifiers.map Placed.value).Nodup)
        (placed : t.diagnostics = [] → member.placementProblem? container = none) :
        Ensures (rest ()) t fun d u => Stretch start.index o u [.declaration d] [] ∧
          (u.diagnostics = [] → member.placementProblem? container = none ∧
            head.modifiers.keeps (member.modifiersIn container) = true) := by
      refine ((((checkModifiers_stretch forward _ so).and
        (checkModifiers_stretch forward _ (.refl so.wf))).and (checkModifiers_ahead _ _ t)).and
        (checkModifiers_keeps _ so.wf distinct)).bind fun _ u facts => ?_
      obtain ⟨⟨⟨so, own⟩, same⟩, keeps⟩ := facts
      obtain ⟨kind, after, left⟩ := kinds_of_ahead (same.trans ahead)
      rw [← kind] at solid
      rw [← left] at bound
      rw [← after] at constructs custom
      have here := so.restart (all_attributes_isPhrase head)
      refine Ensures.mono (P := fun d v => Stretch start.index u v [.declaration d] []) ?_
        fun d v more => ⟨(so.forget (all_attributes_isPhrase head)).trans more, fun none => ?_⟩
      · cases member with
        | namespaceBlock => exact namespaceDeclaration_stretch sound here solid bound
        | type kind => exact typeDeclaration_stretch phrases sound kind here solid bound
        | enum => exact enumDeclaration_stretch phrases sound here solid bound
        | field => exact fieldDeclaration_stretch phrases here
        | method =>
          have other : methodKind ≠ .constructor := by
            unfold methodKind
            split <;> simp
          exact methodDeclaration_stretch phrases sound methodKind container here solid
            (fun same => absurd same other) bound
        | constructor =>
          exact methodDeclaration_stretch phrases sound .constructor container here solid
            (fun _ => constructs rfl) bound
        | operator => exact operatorDeclaration_stretch phrases sound here solid bound
        | property => exact propertyDeclaration_stretch phrases sound container here solid bound
        | event => exact eventDeclaration_stretch phrases here solid
        | customEvent =>
          exact customEventDeclaration_stretch phrases sound here solid (by rw [custom rfl]; rfl)
            bound
        | delegate => exact delegateDeclaration_stretch phrases here solid
        | external => exact externalDeclaration_stretch phrases here solid
      · have none := more.later.clean none
        exact ⟨placed (own.later.clean none), keeps none⟩
    split
    next problem misplaced =>
      refine (so.report _ (placementProblem_isQuiet misplaced) fun _ => so.wf.stream.order).bind
        fun _ t facts => ?_
      obtain ⟨so, dirty, ahead⟩ := facts
      exact goOn t so ahead (fun none => absurd none dirty) fun none => absurd none dirty
    next placed => exact goOn s so rfl distinct fun _ => placed
  refine (checked.and (memberDeclaration_introduces container member)).mono fun d t facts => ?_
  obtain ⟨⟨read, checked⟩, found⟩ := facts
  exact ⟨read, fun none => found.isAllowedIn (checked none).1 (checked none).2⟩

theorem rejectCustom_stretch {lo : Nat} {ns : List Node} (so : Stretch lo o s ns []) :
    Ensures rejectCustom s fun _ t => Stretch lo o t ns [] := by
  refine .get ?_
  split
  next rejected =>
    refine (so.report _ rfl fun _ => so.wf.stream.order).bind fun _ t ⟨so, _, ahead⟩ => ?_
    obtain ⟨kind, -⟩ := kinds_of_ahead ahead
    have solid := isSolid_of_isContextual (Bool.and_eq_true_iff.1 rejected).1
    exact so.skip (kind ▸ solid) fun so => so
  next => exact so

theorem enumValue_attempt {t : ParseState} {attributes : List AttributeBlock} (phrases : r.Sound)
    (so : Stretch s.here s t (Node.ofAttributes attributes) []) :
    Ensures (enumValue r s.current.span.start attributes) t fun d u =>
      Attempt s u (.declaration d) := by
  refine .peek ?_
  split
  next named =>
    have solid : t.kind.isSolid = true := by rw [ParseState.kind, named]; rfl
    refine so.attempt (Node.all_ofAttributes_isPhrase _) solid fun so => ?_
    refine (so.part (identifier_yields so.wf)).bind fun name u so => ?_
    refine (so.whenEaten (Node.ofOption .expression) rfl rfl
      fun _ wf => value_yields phrases wf).bind fun value v so => ?_
    have reached := so.reached (n := .simpleName name) (by simp)
    exact so.finishStatement reached (by simp [Node.children, Node.childrenOfDeclaration]) rfl
  next =>
    refine (so.report _ rfl fun _ => so.wf.stream.order).bind fun _ u facts => ?_
    obtain ⟨so, dirty, -⟩ := facts
    refine (so.skipStatement dirty).bind fun _ v facts => ?_
    obtain ⟨so, dirty⟩ := facts
    exact so.giveUp (Node.all_ofAttributes_isPhrase _) dirty

theorem isSolid_of_accessor {kind : TokenKind} {accessor : AccessorKind}
    (denotes : AccessorKind.ofKind? kind = some accessor) : kind.isSolid = true := by
  cases kind <;> first | rfl | simp [AccessorKind.ofKind?] at denotes

theorem accessorIn_ensures {t : ParseState} (phrases : r.Sound) (sound : b.Sound depth)
    {head : DeclarationHead} (forward : head.modifiers.Forward)
    (distinct : t.diagnostics = [] → (head.modifiers.modifiers.map Placed.value).Nodup)
    (container : Container) (ofProperty : Bool)
    (so : Stretch s.here s t (Node.ofAttributes head.attributes) [])
    (bound : t.remaining ≤ depth) :
    Ensures (accessorIn r b s.current.span.start head ofProperty) t fun d u =>
      Attempt s u (.declaration d) ∧ (u.diagnostics = [] → d.isAllowedIn container = true) := by
  refine .peekKind ?_
  extract_lets kind
  cases found : kind.filter fun k => k.isOfProperty == ofProperty with
  | some accessor =>
    have solid := isSolid_of_accessor (Option.filter_eq_some_iff.1 found).1
    refine .and (so.attempt (all_attributes_isPhrase head) solid fun so => ?_) ?_
    · exact (accessorDeclaration_ensures phrases sound accessor container forward distinct so solid
        bound).mono fun _ _ facts => facts.1
    · exact (accessorDeclaration_ensures phrases sound accessor container forward distinct so solid
        bound).mono fun _ _ facts => facts.2
  | none =>
    refine .and (badDeclaration_attempt so (all_attributes_isPhrase head) ?_) fun _ => rfl
    cases ofProperty <;> rfl

theorem enumValue_allowed (start : Location) (attributes : List AttributeBlock)
    (container : Container) (s : ParseState) :
    Ensures (enumValue r start attributes) s fun d _ => d.isAllowedIn container = true := by
  refine .peek ?_
  split <;> rfl

theorem declarationAfter_ensures {t : ParseState} {attributes : List AttributeBlock}
    (phrases : r.Sound) (sound : b.Sound depth) (container : Container)
    (so : Stretch s.here s t (Node.ofAttributes attributes) []) (bound : t.remaining ≤ depth) :
    Ensures (declarationAfter r b s.current.span.start attributes container) t fun d u =>
      Attempt s u (.declaration d) ∧ (u.diagnostics = [] → d.isAllowedIn container = true) := by
  unfold declarationAfter
  split
  · exact (enumValue_attempt phrases so).and
      ((enumValue_allowed _ _ container t).mono fun _ _ allowed _ => allowed)
  · refine ((modifiers_ensures so).and (modifiers_ensures (.refl so.wf))).bind
      fun modifiers u facts => ?_
    obtain ⟨⟨so, forward, distinct⟩, own, -⟩ := facts
    have left := own.later.remaining
    split
    · exact accessorIn_ensures phrases sound forward distinct container true so (by omega)
    · split
      · exact accessorIn_ensures phrases sound forward distinct container false so (by omega)
      · refine ((rejectCustom_stretch so).and (rejectCustom_stretch (.refl so.wf))).bind
          fun _ v facts => .get ?_
        obtain ⟨so, own⟩ := facts
        have left := own.later.remaining
        have distinct (none : v.diagnostics = []) := distinct (own.later.clean none)
        split
        next =>
          exact .and (badDeclaration_attempt so (Node.all_ofAttributes_isPhrase _) rfl) fun _ => rfl
        next member introduces =>
          refine .and (so.attempt (Node.all_ofAttributes_isPhrase _) (isSolid_of_member introduces)
            fun so => ?_) ?_
          · exact (memberDeclaration_ensures phrases sound forward distinct container so introduces
              (by omega)).mono fun _ _ facts => facts.1
          · exact (memberDeclaration_ensures phrases sound forward distinct container so introduces
              (by omega)).mono fun _ _ facts => facts.2

theorem attributeBlock_nonempty (r : Rules) (s : ParseState) :
    Ensures (attributeBlock r) s fun block _ =>
      block.attributes.items ≠ [] ∧ block.span.Forward := by
  refine Ensures.any.bind fun _ t _ => (commaList_nonempty _ t).bind fun attributes u some => ?_
  refine Ensures.any.bind fun closeAngle v _ => ?_
  extract_lets rest
  split
  · refine Ensures.any.bind fun _ w _ => Ensures.any.bind fun _ x _ => .spanFrom ⟨some, ?_⟩
    exact x.spanSince_forward _
  · exact .spanFrom ⟨some, v.spanSince_forward _⟩

/-- Attributes begin with an angle bracket and are not empty. -/
theorem attributeBlocksWithin_nonempty (r : Rules) (n : Nat) (s : ParseState) :
    Ensures (attributeBlocksWithin r n) s fun blocks _ =>
      ∀ block ∈ blocks, s.kind = .mark .lessThan ∧ block.attributes.items ≠ [] ∧
        block.span.Forward := by
  induction n generalizing s with
  | zero => exact List.forall_mem_nil _
  | succ n ih =>
    refine .check ?_
    split
    next opens =>
      have opens := beq_iff_eq.1 opens
      refine (attributeBlock_nonempty r s).bind fun first t some => (ih t).bind fun rest u others => ?_
      exact List.forall_mem_cons.2
        ⟨⟨opens, some⟩, fun block member => ⟨opens, (others block member).2⟩⟩
    next => exact List.forall_mem_nil _

theorem reportHeading_ensures {lo : Nat} {ns : List Node} (container : Container) {span : Span}
    (forward : span.Forward) (so : Stretch lo o s ns []) :
    Ensures (reportHeading container span) s fun _ t => Stretch lo o t ns [] ∧
      t.ahead = s.ahead ∧ (t.diagnostics = [] → container.headingProblem?.isNone = true) := by
  unfold reportHeading
  split
  next problem misplaced =>
    refine (so.report _ (headingProblem_isQuiet misplaced) fun _ => forward).mono fun _ _ facts => ?_
    exact ⟨facts.1, facts.2.2, fun none => absurd none facts.2.1⟩
  next placed => exact ⟨so, rfl, fun _ => Option.isNone_iff_eq_none.2 placed⟩

theorem attributedDeclaration_ensures (phrases : r.Sound) (sound : b.Sound depth)
    (container : Container) (wf : s.Wf) (bound : s.remaining ≤ depth) :
    Ensures (attributedDeclaration r b container) s fun d t =>
      Attempt s t (.declaration d) ∧ (t.diagnostics = [] → d.isAllowedIn container = true) := by
  refine .here (((attributeBlocks_yields phrases wf).and
    (.get (attributeBlocksWithin_nonempty r _ s))).bind
    fun attributes t ⟨so, nonempty⟩ => .atStatementEnd ?_)
  have left := so.later.remaining
  split
  next first isFirst _ =>
    obtain ⟨opened, items, forward⟩ := nonempty first (List.mem_of_mem_head? isFirst)
    have solid : s.kind.isSolid = true := by rw [opened]; rfl
    obtain ⟨applied, member⟩ := List.exists_mem_of_ne_nil _ items
    refine (reportHeading_ensures container forward so).bind fun _ u facts => ?_
    obtain ⟨so, -, placed⟩ := facts
    have reached := so.reached (n := .appliedAttribute applied)
      (List.mem_flatMap.2 ⟨first, List.mem_of_mem_head? isFirst, List.mem_map_of_mem member⟩)
    refine .and ?_ placed
    exact Ensures.mono (so.finish reached rfl rfl) fun _ _ so => .ofSolid so solid
  next => exact declarationAfter_ensures phrases sound container so (by omega)

/-- A declaration that its container does not allow has been reported. -/
theorem declaration_ensures (phrases : r.Sound) (sound : b.Sound depth) (container : Container)
    (wf : s.Wf) (bound : s.remaining ≤ depth) :
    Ensures (declaration r b container) s fun d t =>
      Attempt s t (.declaration d) ∧ (t.diagnostics = [] → d.isAllowedIn container = true) := by
  refine .peek (.get ?_)
  split
  next kind ends =>
    refine ((Stretch.refl wf).report _ rfl fun _ => wf.stream.order).bind fun _ t facts => ?_
    obtain ⟨so, dirty, ahead⟩ := facts
    refine (endBlock_line so.wf ((terminator?_of_ahead ahead).trans ends)).bind fun _ u line => ?_
    refine .pure ⟨?_, fun _ => rfl⟩
    refine .ofSolid (so.append (line.node rfl rfl fun none => ?_)) (isSolid_of_terminator ends)
    exact absurd (line.so.later.clean none) dirty
  next => exact .and (badDeclaration_attempt (.refl wf) rfl rfl) fun _ => rfl
  next =>
    split
    next word =>
      have solid : s.kind.isSolid = true := by rw [ParseState.kind, word]; rfl
      refine (reportHeading_ensures container wf.stream.order (.refl wf)).bind fun _ t facts => ?_
      obtain ⟨so, ahead, placed⟩ := facts
      refine ((optionDeclaration_yields so.wf ((kinds_of_ahead ahead).1 ▸ solid)).and
        (optionDeclaration_allowed container t)).mono fun d u facts => ?_
      refine ⟨.ofSolid (so.append facts.1) solid, fun none => ?_⟩
      rw [facts.2]
      exact placed (facts.1.later.clean none)
    next word =>
      have solid : s.kind.isSolid = true := by rw [ParseState.kind, word]; rfl
      refine (reportHeading_ensures container wf.stream.order (.refl wf)).bind fun _ t facts => ?_
      obtain ⟨so, ahead, placed⟩ := facts
      refine ((importsDeclaration_yields phrases so.wf ((kinds_of_ahead ahead).1 ▸ solid)).and
        (importsDeclaration_allowed container t)).mono fun d u facts => ?_
      refine ⟨.ofSolid (so.append facts.1) solid, fun none => ?_⟩
      rw [facts.2]
      exact placed (facts.1.later.clean none)
    next word =>
      have solid : s.kind.isSolid = true := by rw [ParseState.kind, word]; rfl
      exact ((typeList_yields phrases _ container wf solid).mono
        fun _ _ so => .ofSolid so solid).and (typeList_allowed phrases _ container wf solid)
    next word =>
      have solid : s.kind.isSolid = true := by rw [ParseState.kind, word]; rfl
      exact ((typeList_yields phrases _ container wf solid).mono
        fun _ _ so => .ofSolid so solid).and (typeList_allowed phrases _ container wf solid)
    next => exact attributedDeclaration_ensures phrases sound container wf bound

theorem declaration_attempt (phrases : r.Sound) (sound : b.Sound depth) (container : Container)
    (wf : s.Wf) (bound : s.remaining ≤ depth) :
    Ensures (declaration r b container) s fun d t => Attempt s t (.declaration d) :=
  (declaration_ensures phrases sound container wf bound).mono fun _ _ facts => facts.1

end Parse

end VisualBasic
