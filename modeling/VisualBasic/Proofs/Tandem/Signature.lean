import VisualBasic.Parse.Signature
import VisualBasic.Proofs.Tandem.Phrase

/-!
Variables, attributes and parameters are read alike in two texts.
-/

set_option autoImplicit false

namespace VisualBasic.Parse

variable {α β : Type} [Relocate α] [Relocate β] {c : Seam} {o : ParseState} {k : Bound}
  {r r' : Rules} {X Y : ParseState}

-- Variables

theorem run_modifiersAfter_of_ended {s : ParseState}
    (ends : s.kind = .endOfStream ∨ s.kind = .lineTerminator) (n : Nat)
    (found : List (VisualBasic.Placed Modifier)) : (modifiersAfter n found).run s = (found, s) := by
  cases n with
  | zero => rfl
  | succ n =>
    rw [modifiersAfter, Paired.run_peek]
    rcases ends with kind | kind
    · rw [show s.current.kind = _ from kind]
      rfl
    · rw [show s.current.kind = _ from kind]
      rfl

theorem modifiersAfter_tracks {n m : Nat} (near : Near c o (Bound.mk n m + 1) X Y)
    (found : List (VisualBasic.Placed Modifier)) :
    Tracks c o (Bound.mk n m + 1) (modifiersAfter n found)
      (modifiersAfter m (relocate c.carry found)) X Y := by
  refine near.steps (motive := fun n m X Y => ∀ found, Tracks c o (Bound.mk n m + 1)
    (modifiersAfter n found) (modifiersAfter m (relocate c.carry found)) X Y)
    (fun n m X Y near ends found => ?_) (fun n m next X Y near found => ?_) found
  · exact (near.pure rfl).ofRun (run_modifiersAfter_of_ended (.inl ends) ..)
      (run_modifiersAfter_of_ended (near.endsToo ends) ..)
  · refine near.peek ?_ fun x y ends breaks _ _ => ?_
    · rw [Token.kind_relocate]
      split
      next => exact near.pure rfl
      next modifier word =>
        have next (span : Span) {X Y : ParseState} (near : Near c o (Bound.mk n m + 1) X Y) :
            Tracks c o (Bound.mk n m + 1 + 1) (modifiersAfter n (found ++ [⟨modifier, span⟩]))
              (modifiersAfter m (relocate c.carry found ++ [⟨modifier, relocate c.carry span⟩]))
              X Y := by
          have rest := next X Y near (found ++ [⟨modifier, span⟩])
          rw [relocate_append] at rest
          exact rest.up
        refine near.skip (TokenKind.inside_of word rfl rfl rfl) fun X Y near => ?_
        rw [any_relocate _ _ fun _ => rfl]
        split
        · exact near.report (fun _ => rfl) fun X Y _ near => next _ near
        · exact next _ near
    · simp only [Token.kind, Lexeme.kind, ends, breaks]
      exact near.pure rfl

theorem hullOf_relocate (words : List (VisualBasic.Placed Modifier)) (place : Location) :
    hullOf (relocate c.carry words) (c.carry place) = relocate c.carry (hullOf words place) := by
  unfold hullOf
  rw [head?_relocate, getLast?_relocate]
  cases words.head? with
  | none => rfl
  | some first =>
    cases words.getLast? with
    | none => rfl
    | some last => exact Seam.merge_carry _ _

theorem modifiers_tracks (near : Near c o k X Y) : Tracks c o k modifiers modifiers X Y := by
  refine near.here (Paired.get ?_)
  refine ((modifiersAfter_tracks near.fresh []).within near).bind
    fun found X Y near => near.pure ?_
  rw [hullOf_relocate]
  rfl

theorem checkModifiers_tracks (near : Near c o k X Y) (list : ModifierList)
    (allowed : List Modifier) :
    Tracks c o k (checkModifiers list allowed) (checkModifiers (relocate c.carry list) allowed)
      X Y := by
  unfold checkModifiers
  rw [show (relocate c.carry list).modifiers = relocate c.carry list.modifiers from rfl,
    find?_relocate _ _ fun _ => rfl]
  cases list.modifiers.find? _ with
  | none => exact near.pure rfl
  | some invalid => exact near.reported (fun _ => rfl)

theorem variableName_tracks (agree : r.Agree c k r') (near : Near c o k X Y) (allowBounds : Bool) :
    Tracks c o k (variableName r allowBounds) (variableName r' allowBounds) X Y := by
  refine (identifier_tracks near).bind fun name X Y near => ?_
  refine near.optionallyAt rfl (fun parenthesis => arrayBounds_tracks agree near.up
    (Paired.endsLine_of rfl parenthesis) allowBounds) fun array X Y near => ?_
  exact (near.spanFrom rfl).bind fun span X Y near => near.pure rfl

theorem constructorArguments_tracks (agree : r.Agree c k r') (near : Near c o k X Y)
    (type : TypeName) :
    Tracks c o k (constructorArguments r type) (constructorArguments r' (relocate c.carry type))
      X Y := by
  unfold constructorArguments
  rw [TypeName.isBad_relocate]
  refine near.check rfl (fun parenthesis => ?_) fun _ => ?_
  · exact near.optionally rfl fun _ => argumentList_tracks agree near.up
      (Paired.endsLine_of rfl parenthesis)
  · rw [Bool.and_false]
    exact near.pure rfl

theorem asClause_tracks (agree : r.Agree c k r') (near : Near c o k X Y) (allowNew : Bool) :
    Tracks c o k (asClause r allowNew) (asClause r' allowNew) X Y := by
  refine near.up.eatPlace rfl (fun _ => near.pure rfl) fun _ X Y near => ?_
  dsimp -zeta only
  extract_lets rest rest'
  have typed (newKeyword : Option Location) (X Y : ParseState) (near : Near c o k X Y) :
      Tracks c o k (rest newKeyword) (rest' (relocate c.carry newKeyword)) X Y := by
    cases newKeyword with
    | some place =>
      refine ((elementType_tracks agree near.up).within near).bind fun type X Y near => ?_
      refine (constructorArguments_tracks agree near type).bind fun arguments X Y near => ?_
      exact (near.spanFrom rfl).bind fun span X Y near => near.pure rfl
    | none =>
      refine (agree.typeName o X Y near).bind fun type X Y near => ?_
      exact (near.spanFrom rfl).bind fun span X Y near => near.pure rfl
  cases allowNew with
  | true =>
    exact near.up.eatPlace rfl (fun _ => typed none X Y near) fun _ X Y near => typed (some _) X Y near
  | false => exact (near.pure rfl).bind typed

theorem variableNames_tracks (agree : r.Agree c k r') (near : Near c o k X Y)
    (allowBounds : Bool) :
    Tracks c o k (variableNames r allowBounds) (variableNames r' allowBounds) X Y := by
  refine Paired.get (Tracked.bind (Tracked.within (near.fresh.separatedFrom
    (fun _ X Y near => ?_) near.fresh_le ()) near)
    fun items X Y near => near.pure (items.toHullList_relocate fun _ => rfl))
  refine (variableName_tracks agree near allowBounds).bind fun found X Y near => near.pure ?_
  have missing : (relocate c.carry found).name.isMissing = found.name.isMissing := rfl
  rw [missing]
  cases found.name.isMissing <;> rfl

theorem variableDeclarator_tracks (agree : r.Agree c k r') (near : Near c o k X Y)
    (allowBounds : Bool) :
    Tracks c o k (variableDeclarator r allowBounds) (variableDeclarator r' allowBounds) X Y := by
  refine near.here ?_
  refine (variableNames_tracks agree near allowBounds).bind fun names X Y near => ?_
  refine (asClause_tracks agree near true).bind fun type X Y near => ?_
  refine near.up.eatPlace rfl (fun _ => ?_) fun _ X Y near => ?_
  · refine (near.pure rfl).bind fun value X Y near => ?_
    exact (near.spanFrom rfl).bind fun span X Y near => near.pure rfl
  · refine (near.optionally rfl fun _ => initializer_tracks agree near).bind
      fun value X Y near => ?_
    exact (near.spanFrom rfl).bind fun span X Y near => near.pure rfl

theorem variableDeclarators_tracks (agree : r.Agree c k r') (near : Near c o k X Y)
    (allowBounds : Bool) :
    Tracks c o k (variableDeclarators r allowBounds) (variableDeclarators r' allowBounds) X Y :=
  near.commaList (fun _ => rfl) fun _ _ near => variableDeclarator_tracks agree near allowBounds

theorem loopDeclarator_tracks (agree : r.Agree c k r') (near : Near c o k X Y) :
    Tracks c o k (loopDeclarator r) (loopDeclarator r') X Y := by
  refine (variableName_tracks agree near false).bind fun name X Y near => ?_
  refine (asClause_tracks agree near false).bind fun type X Y near => ?_
  exact (near.spanFrom rfl).bind fun span X Y near => near.pure rfl

-- Attributes and parameters

/-- Where a line ends there is no target. -/
theorem attributeTarget?_of_ended {s : ParseState}
    (ends : s.kind = .endOfStream ∨ s.kind = .lineTerminator) : attributeTarget? s = none := by
  have isEnd : s.current.kind.endsLine = true := by
    rcases ends with kind | kind
    · rw [show s.current.kind = _ from kind]
      rfl
    · rw [show s.current.kind = _ from kind]
      rfl
  have word : (s.kind == .word .kwModule) = false := by
    rcases ends with kind | kind <;> rw [kind] <;> rfl
  unfold attributeTarget?
  rw [Token.isContextual_eq_false isEnd, word]
  split <;> rfl

theorem attributeTarget?_eq (twin : Twin c X Y) : attributeTarget? Y = attributeTarget? X := by
  rcases twin.kind_cases with inside | ends | breaks
  · have after : (Y.kindAfter != .mark .colon) = (X.kindAfter != .mark .colon) :=
      congrArg not ((twin.kindAfter inside).beq rfl)
    unfold attributeTarget?
    rw [after, twin.isContextual, twin.kind.beq rfl]
  · rw [attributeTarget?_of_ended (.inl ends), attributeTarget?_of_ended (twin.endsToo ends)]
  · rw [attributeTarget?_of_ended (.inr breaks),
      attributeTarget?_of_ended (.inr ((twin.kind_eq_of_break breaks).trans breaks))]

/-- A target stands before a colon. -/
theorem colon_of_attributeTarget? {s : ParseState} (found : (attributeTarget? s).isSome = true) :
    s.kind ≠ .endOfStream ∧ s.kind ≠ .lineTerminator ∧ s.kindAfter = .mark .colon := by
  refine ⟨fun ends => ?_, fun breaks => ?_, ?_⟩
  · rw [attributeTarget?_of_ended (.inl ends)] at found
    cases found
  · rw [attributeTarget?_of_ended (.inr breaks)] at found
    cases found
  · by_contra other
    simp [attributeTarget?, other] at found

theorem appliedAttribute_tracks (agree : r.Agree c k r') (near : Near c o k X Y) :
    Tracks c o k (appliedAttribute r) (appliedAttribute r') X Y := by
  refine near.here (Paired.get ?_)
  rw [attributeTarget?_eq near.toTwin]
  generalize X.current.span.start = start
  generalize found : attributeTarget? X = target
  have same : target = relocate c.carry target := by cases target <;> rfl
  extract_lets written rest rest'
  have named {X Y : ParseState} (near : Near c o k X Y) :
      Tracks c o k (rest ()) (rest' ()) X Y := by
    refine (name_tracks near).bind fun name X Y near => ?_
    rw [Name.isIncomplete_relocate]
    refine near.optionallyAt rfl (fun parenthesis => argumentList_tracks agree near.up
      (Paired.endsLine_of rfl parenthesis)) fun arguments X Y near => ?_
    refine (near.spanFrom rfl).bind fun span X Y near => near.pure ?_
    exact congrArg (Attribute.mk · _ _ _) same
  split
  next isTarget =>
    obtain ⟨goesOn, stays, colon⟩ := colon_of_attributeTarget? (by rw [found]; exact isTarget)
    have inside := near.kind_cases.resolve_right fun ends => ends.elim goesOn stays
    refine near.up.skipOver inside fun X Y kind near => ?_
    exact near.up.skip (Paired.endsLine_of rfl (kind.trans colon)) fun X Y near => named near
  next => exact named near

theorem attributeBlock_tracks (agree : r.Agree c k r') (near : Near c o (k + 1) X Y)
    (inside : X.kind.endsLine = false) :
    Tracks c o k (attributeBlock r) (attributeBlock r') X Y := by
  refine near.read inside fun X Y near => ?_
  refine (near.commaList (fun _ : Attribute => rfl) fun X Y near => appliedAttribute_tracks agree near).bind
    fun attributes X Y near => ?_
  refine (near.expectPlace rfl).bind fun closeAngle X Y near => ?_
  extract_lets rest rest'
  have ends {X Y : ParseState} (near : Near c o k X Y) : Tracks c o k (rest ()) (rest' ()) X Y :=
    (near.spanFrom rfl).bind fun span X Y near => near.pure rfl
  cases closeAngle with
  | some place => exact ends near
  | none =>
    refine near.resync.bind fun _ X Y near => ?_
    exact near.up.eat rfl (fun _ => ends near) fun _ X Y near => ends near

theorem run_attributeBlocksWithin_of_ne {s : ParseState} (other : s.kind ≠ .mark .lessThan)
    (n : Nat) : (attributeBlocksWithin r n).run s = ([], s) := by
  cases n with
  | zero => rfl
  | succ n =>
    show (ite ((s.kind == .mark .lessThan) = true) _ _ : Parse (List AttributeBlock)).run s = _
    rw [beq_eq_false_iff_ne.2 other]
    rfl

theorem attributeBlocksWithin_tracks {n m : Nat} (agree : r.Agree c ⟨n, m⟩ r')
    (near : Near c o (Bound.mk n m + 1) X Y) :
    Tracks c o (Bound.mk n m + 1) (attributeBlocksWithin r n) (attributeBlocksWithin r' m) X Y := by
  refine near.steps (motive := fun n m X Y => r.Agree c ⟨n, m⟩ r' →
    Tracks c o (Bound.mk n m + 1) (attributeBlocksWithin r n) (attributeBlocksWithin r' m) X Y)
    (fun n m X Y near ends _ => ?_) (fun n m next X Y near agree => ?_) agree
  · obtain ⟨here, there⟩ := near.ended_ne ends (.mark .lessThan) rfl
    exact (near.pure rfl).ofRun (run_attributeBlocksWithin_of_ne here _)
      (run_attributeBlocksWithin_of_ne there _)
  · refine near.check rfl (fun angle => ?_) fun _ => near.pure rfl
    refine (attributeBlock_tracks agree near (Paired.endsLine_of rfl angle)).bind
      fun block X Y near => ?_
    exact (next X Y near (agree.mono (Bound.le_succ _))).bind fun blocks X Y near => near.up.pure rfl

theorem attributeBlocks_tracks (agree : r.Agree c k r') (near : Near c o k X Y) :
    Tracks c o k (attributeBlocks r) (attributeBlocks r') X Y :=
  Paired.get ((attributeBlocksWithin_tracks (agree.mono (Bound.le_of_succ near.fresh_le))
    near.fresh).within near)

theorem run_parameterModifiersAfter_of_ended {s : ParseState}
    (ends : s.kind = .endOfStream ∨ s.kind = .lineTerminator) (n : Nat)
    (found : List (VisualBasic.Placed ParameterModifier)) :
    (parameterModifiersAfter n found).run s = (found, s) := by
  cases n with
  | zero => rfl
  | succ n =>
    rw [parameterModifiersAfter, Paired.run_peek]
    rcases ends with kind | kind
    · rw [show s.current.kind = _ from kind]
      rfl
    · rw [show s.current.kind = _ from kind]
      rfl

theorem parameterModifiersAfter_tracks {n m : Nat} (near : Near c o (Bound.mk n m + 1) X Y)
    (found : List (VisualBasic.Placed ParameterModifier)) :
    Tracks c o (Bound.mk n m + 1) (parameterModifiersAfter n found)
      (parameterModifiersAfter m (relocate c.carry found)) X Y := by
  refine near.steps (motive := fun n m X Y => ∀ found, Tracks c o (Bound.mk n m + 1)
    (parameterModifiersAfter n found) (parameterModifiersAfter m (relocate c.carry found)) X Y)
    (fun n m X Y near ends found => ?_) (fun n m next X Y near found => ?_) found
  · exact (near.pure rfl).ofRun (run_parameterModifiersAfter_of_ended (.inl ends) ..)
      (run_parameterModifiersAfter_of_ended (near.endsToo ends) ..)
  · refine near.peek ?_ fun x y ends breaks _ _ => ?_
    · rw [Token.kind_relocate]
      split
      next => exact near.pure rfl
      next modifier word =>
        have next (span : Span) {X Y : ParseState} (near : Near c o (Bound.mk n m + 1) X Y) :
            Tracks c o (Bound.mk n m + 1 + 1)
              (parameterModifiersAfter n (found ++ [⟨modifier, span⟩]))
              (parameterModifiersAfter m
                (relocate c.carry found ++ [⟨modifier, relocate c.carry span⟩])) X Y := by
          have rest := next X Y near (found ++ [⟨modifier, span⟩])
          rw [relocate_append] at rest
          exact rest.up
        have has (m : ParameterModifier) :
            ((relocate c.carry found).any fun f => f.value == m) =
              found.any fun f => f.value == m :=
          any_relocate _ _ fun _ => rfl
        refine near.skip (TokenKind.inside_of word rfl rfl rfl) fun X Y near => ?_
        simp only [has]
        split
        · exact near.report (fun _ => rfl) fun X Y _ near => next _ near
        · split
          · exact near.report (fun _ => rfl) fun X Y _ near => next _ near
          · exact next _ near
    · simp only [Token.kind, Lexeme.kind, ends, breaks]
      exact near.pure rfl

theorem parameter_tracks (agree : r.Agree c k r') (near : Near c o k X Y) :
    Tracks c o k (parameter r) (parameter r') X Y := by
  refine near.here ?_
  refine (attributeBlocks_tracks agree near).bind fun attributes X Y near => Paired.get ?_
  refine ((parameterModifiersAfter_tracks near.fresh []).within near).bind
    fun modifiers X Y near => ?_
  refine (variableName_tracks agree near false).bind fun name X Y near => ?_
  refine (near.whenEaten rfl (agree.typeName o)).bind fun type X Y near => ?_
  refine (near.whenEaten rfl fun X Y near => agree.value near).bind fun value X Y near => ?_
  have optional : ((relocate c.carry value).isNone &&
      (relocate c.carry modifiers).any fun m => m.value == .optional) =
        (value.isNone && modifiers.any fun m => m.value == .optional) := by
    rw [any_relocate _ _ fun _ => rfl]
    cases value <;> rfl
  rw [optional]
  split
  · refine near.reportUnexpected fun X Y _ near => ?_
    exact (near.spanFrom rfl).bind fun span X Y near => near.pure rfl
  · exact (near.spanFrom rfl).bind fun span X Y near => near.pure rfl

theorem checkParameters_tracks (near : Near c o k X Y) (parameters : List Parameter) :
    Tracks c o k (checkParameters parameters) (checkParameters (relocate c.carry parameters))
      X Y := by
  have last : (relocate c.carry parameters).dropLast = relocate c.carry parameters.dropLast :=
    List.map_dropLast.symm
  unfold checkParameters
  rw [last, find?_relocate _ _ fun p => any_relocate _ _ fun _ => rfl]
  cases parameters.dropLast.find? _ with
  | none => exact near.pure rfl
  | some early => exact near.reported fun _ => rfl

theorem parameterList_tracks (agree : r.Agree c k r') (near : Near c o k X Y) :
    Tracks c o k (parameterList r) (parameterList r') X Y := by
  refine near.up.eatPlace rfl (fun _ => near.pure rfl) fun _ X Y near => ?_
  dsimp -zeta only
  extract_lets rest rest'
  have closes (parameters : CommaList Parameter) (X Y : ParseState) (near : Near c o k X Y) :
      Tracks c o k (rest parameters) (rest' (relocate c.carry parameters)) X Y := by
    refine (checkParameters_tracks near parameters.items).bind fun _ X Y near => ?_
    refine near.closeParenthesis.bind fun close X Y near => ?_
    extract_lets last last'
    have ends {X Y : ParseState} (near : Near c o k X Y) : Tracks c o k (last ()) (last' ()) X Y :=
      (near.spanFrom rfl).bind fun span X Y near => near.pure rfl
    cases close with
    | some place => exact ends near
    | none =>
      refine near.resync.bind fun _ X Y near => ?_
      exact near.up.eat rfl (fun _ => ends near) fun _ X Y near => ends near
  refine near.check rfl (fun _ => ?_) fun _ => ?_
  · exact near.here ((near.pure rfl).bind closes)
  · exact (near.commaList (fun _ : Parameter => rfl) fun X Y near => parameter_tracks agree near).bind closes

theorem returnType_tracks (agree : r.Agree c k r') (near : Near c o k X Y) :
    Tracks c o k (returnType r) (returnType r') X Y := by
  refine near.up.eatPlace rfl (fun _ => near.pure rfl) fun _ X Y near => ?_
  refine (attributeBlocks_tracks agree near).bind fun attributes X Y near => ?_
  refine (agree.typeName o X Y near).bind fun type X Y near => ?_
  exact (near.spanFrom rfl).bind fun span X Y near => near.pure rfl

theorem handledEvent_tracks (source : Name) (start : Location) (near : Near c o k X Y) :
    Tracks c o k
      (do
        let dot ← expectPlace (.mark .period) .expectedPeriod
        let event ← if dot.isSome then memberName else do pure (.missing (← placeholder))
        return HandlesItem.mk source dot event (← spanFrom start))
      (do
        let dot ← expectPlace (.mark .period) .expectedPeriod
        let event ← if dot.isSome then memberName else do pure (.missing (← placeholder))
        return HandlesItem.mk (relocate c.carry source) dot event (← spanFrom (c.carry start)))
      X Y := by
  refine (near.expectPlace rfl).bind fun dot X Y near => ?_
  cases dot with
  | some place =>
    refine (memberName_tracks near).bind fun event X Y near => ?_
    exact (near.spanFrom rfl).bind fun span X Y near => near.pure rfl
  | none =>
    refine near.placeholder.bind fun place X Y near => ?_
    refine (near.pure rfl).bind fun event X Y near => ?_
    exact (near.spanFrom rfl).bind fun span X Y near => near.pure rfl

theorem handlesItem_tracks (agree : r.Agree c k r') (near : Near c o k X Y) :
    Tracks c o k (handlesItem r) (handlesItem r') X Y := by
  refine near.peek ?_ fun x y ends breaks _ start => ?_
  · rw [Token.kind_relocate, agree.version]
    have event (source : Name) (X' Y' : ParseState) (near : Near c o k X' Y') :=
      handledEvent_tracks source X.current.span.start near
    split
    next kind word =>
      have inside := TokenKind.inside_of word rfl rfl rfl
      split
      · refine near.report (fun _ => rfl) fun X' Y' same near => ?_
        refine near.up.skip (ParseState.kind_of_ahead same ▸ inside) fun X Y near => ?_
        exact (near.pure rfl).bind event
      · refine near.up.skip inside fun X Y near => ?_
        exact (near.pure rfl).bind event
    next =>
      refine (identifier_tracks near).bind fun name X Y near => ?_
      exact (near.pure rfl).bind event
  · simp only [Token.kind, Lexeme.kind, ends, breaks, start]
    refine (identifier_tracks near).bind fun name X Y near => ?_
    exact (near.pure rfl).bind fun source X Y near => handledEvent_tracks source _ near

theorem handlesClause_tracks (agree : r.Agree c k r') (near : Near c o k X Y) :
    Tracks c o k (handlesClause r) (handlesClause r') X Y := by
  refine near.up.eatPlace rfl (fun _ => near.pure rfl) fun _ X Y near => ?_
  refine (near.commaList (fun _ : HandlesItem => rfl) fun X Y near => handlesItem_tracks agree near).bind
    fun events X Y near => ?_
  exact (near.spanFrom rfl).bind fun span X Y near => near.pure rfl

theorem implementsClause_tracks (near : Near c o k X Y) :
    Tracks c o k implementsClause implementsClause X Y := by
  refine near.up.eatPlace rfl (fun _ => near.pure rfl) fun _ X Y near => ?_
  refine (near.commaList (Name.span_relocate _) fun X Y near => name_tracks near).bind
    fun members X Y near => ?_
  exact (near.spanFrom rfl).bind fun span X Y near => near.pure rfl

end VisualBasic.Parse
