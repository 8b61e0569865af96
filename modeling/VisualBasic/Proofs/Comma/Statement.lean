import VisualBasic.Parse.SimpleStatement
import VisualBasic.Proofs.Comma.Signature

/-!
Statements of one line, and the lines that end a block or start its next part.
-/

set_option autoImplicit false

namespace VisualBasic

/-- A rule that writes a statement. -/
abbrev WritesStatement (p : Parse Statement) : Prop :=
  Writes p (fun st => [Node.ofStatement st]) fun _ => []

namespace Parse

variable {r : Rules} {o s t : ParseState}

-- Labels and jumps

theorem lineNumber_writes : WritesStatement lineNumber := by
  intro s sane
  refine .peek (.get ?_)
  extract_lets give
  have goOn (t : ParseState) (so : Writ s t [] []) :
      Ensures (give ()) t fun st u => Writ s u [Node.ofStatement st] [] :=
    (so.part label_writes).bind fun _ _ so => so.item rfl rfl rfl
  split
  · exact goOn s (.refl sane)
  · exact ((Writ.refl sane).pass (.report _ _)).bind fun _ t so => goOn t so

theorem nameLabel_writ (so : Writ o s [] []) :
    Writ o s.advance [Node.ofStatement (.label (.name (.ofToken s.current)) s.current.span)] [] :=
  so.name.item rfl rfl rfl

theorem goToStatement_writes : WritesStatement goToStatement := by
  intro s sane
  have so := (Writ.refl sane).onto sane.advance
  exact .read ((so.part label_writes).bind fun target t so => so.finishStatement rfl rfl rfl)

theorem namedBlock_proceeds (ofKind? : TokenKind → Option BlockKind) (problem : Problem) :
    Proceeds (namedBlock ofKind? problem) := by
  refine .bind .peekKind fun kind => ?_
  split
  · exact .bind .skip fun _ => .pure
  · exact .bind (.reportUnexpected _) fun _ => .pure

theorem exitStatement_writes : WritesStatement exitStatement := by
  intro s sane
  have so := (Writ.refl sane).onto sane.advance
  exact .read ((so.pass (namedBlock_proceeds _ _)).bind fun block t so =>
    so.finishStatement rfl rfl rfl)

theorem continueStatement_writes : WritesStatement continueStatement := by
  intro s sane
  have so := (Writ.refl sane).onto sane.advance
  exact .read ((so.pass (namedBlock_proceeds _ _)).bind fun block t so =>
    so.finishStatement rfl rfl rfl)

theorem stopStatement_writes : WritesStatement stopStatement :=
  fun _ sane => .read (((Writ.refl sane).onto sane.advance).finishStatement rfl rfl rfl)

theorem endProgram_writes : WritesStatement endProgram := by
  intro s sane
  have so : Writ s s.advance [Node.ofStatement (.endProgram s.current.span)] [] :=
    ((Writ.refl sane).onto sane.advance).item rfl rfl rfl
  refine .read (.atStatementEnd ?_)
  extract_lets give
  split
  · exact so
  · refine (so.pass (.reportUnexpected _)).bind fun _ t so => ?_
    exact (so.pass (.resync [])).bind fun _ _ so => so

theorem optionalOperand_writes {build : Option Expression → Span → Statement} (rules : r.Punctuates)
    (builds : build = .returnValue ∨ build = .throwException) :
    WritesStatement (optionalOperand r build) := by
  intro s sane
  have so := (Writ.refl sane).onto sane.advance
  refine .read (.atStatementEnd ((so.optionalNode (value_writes rules)).bind fun operand t so => ?_))
  rcases builds with rfl | rfl
  · exact so.finishStatement rfl rfl rfl
  · exact so.finishStatement rfl rfl rfl

theorem raiseError_writes (rules : r.Punctuates) : WritesStatement (raiseError r) := by
  intro s sane
  have so := (Writ.refl sane).onto sane.advance
  exact .read ((so.nodePart (value_writes rules)).bind fun operand t so =>
    so.finishStatement rfl rfl rfl)

theorem obsoleteJump_writes : WritesStatement obsoleteJump := by
  intro s sane
  refine .peek (((Writ.refl sane).pass (.report _ _)).bind fun _ t so => .skip ?_)
  refine ((so.onto so.sane.advance).pass .skipStatement).bind fun _ u so => ?_
  exact so.finishItem rfl rfl rfl

-- Errors

theorem handlerTarget_writes :
    Writes handlerTarget (fun a => Node.childrenOfStatement (.onError a default)) fun _ => [] := by
  intro s sane
  have so := Writ.refl sane
  refine .get ?_
  split
  · exact .skip (so.onto sane.advance)
  · split
    · exact .skip (.skip ((so.onto sane.advance).onto sane.advance.sane.advance))
    · exact (so.part label_writes).bind fun _ _ so => so

theorem onErrorAction_writes :
    Writes onErrorAction (fun a => Node.childrenOfStatement (.onError a default)) fun _ => [] := by
  intro s sane
  have passed := (Writ.refl sane).onto sane.advance
  refine .peekKind ?_
  split
  · exact .skip (passed.part handlerTarget_writes)
  · refine .skip ((passed.pass (.expect _ _)).bind fun found t so => ?_)
    cases found <;> exact so
  · exact ((Writ.refl sane).pass (.reportUnexpected _)).bind fun _ _ so => so

theorem onErrorStatement_writes : WritesStatement onErrorStatement := by
  intro s sane
  have so := (Writ.refl sane).onto sane.advance
  refine .read ((so.pass (.expect _ _)).bind fun found t so => ?_)
  cases found with
  | none => exact (so.pass (.resync [])).bind fun _ u so => so.finishItem rfl rfl rfl
  | some _ =>
    refine (so.part onErrorAction_writes).bind fun action u so => ?_
    cases action <;> exact so.finishStatement rfl rfl rfl

theorem resumeTarget_writes :
    Writes resumeTarget (fun a => Node.childrenOfStatement (.resume a default)) fun _ => [] := by
  intro s sane
  refine .eat (fun _ => (Writ.refl sane).onto sane.advance) fun _ => .atStatementEnd ?_
  split
  · exact Writ.refl sane
  · exact (label_writes s sane).bind fun _ _ so => so

theorem resumeStatement_writes : WritesStatement resumeStatement := by
  intro s sane
  have so := (Writ.refl sane).onto sane.advance
  refine .read ((so.part resumeTarget_writes).bind fun target t so => ?_)
  cases target <;> exact so.finishStatement rfl rfl rfl

-- Assignments and calls

/-- A group that is taken for an argument after all is an argument. -/
theorem regroup_writ {target callee : Expression} {first : Argument Expression}
    (so : Writ o s [.expression target] []) (within : HoldsCall o s target)
    (regroups : regroup? target = some (callee, first)) :
    Writ o s [.expression callee, .argument first] [] := by
  unfold regroup? at regroups
  split at regroups
  next callee openParen mark value argumentSpan commas listSpan closeParen span callSpan =>
    obtain ⟨rfl, rfl⟩ : callee = _ ∧ _ = first := by simpa using regroups
    obtain ⟨called, group⟩ := within
    have parts := (Node.everywhere_iff.1 (so.nodes _ List.mem_cons_self)).2
    have called : Writ o s [.expression callee] [] :=
      ⟨so.onward, List.forall_mem_singleton.2 fun _ => called,
        List.forall_mem_singleton.2 (parts _ List.mem_cons_self), List.forall_mem_nil _⟩
    have given := (Node.everywhere_iff.1
      (parts _ (List.mem_cons_of_mem _ List.mem_cons_self))).2 (.expression value)
      List.mem_cons_self
    -- the group becomes an operand around its value, and the operand an argument
    have operand : (Node.expression (.parenthesized value closeParen span)).Everywhere
        (Node.IsPunctuated (s.diagnostics = [])) :=
      Node.everywhere_of_lists rfl (List.forall_mem_nil _) (List.forall_mem_singleton.2 given)
    have grouped : Writ o s [.argument ⟨none, none, some (.parenthesized value closeParen span),
        span⟩] [] :=
      ⟨so.onward, List.forall_mem_singleton.2 fun _ => group,
        List.forall_mem_singleton.2 (Node.everywhere_of_lists rfl (List.forall_mem_nil _)
          (List.forall_mem_singleton.2 operand)), List.forall_mem_nil _⟩
    exact called.beside grouped
  next => simp at regroups

theorem callArguments_writ {target : Expression} (rules : r.Punctuates)
    (so : Writ o s [.expression target] []) (within : HoldsCall o s target) :
    Ensures (callArguments r target) s fun a t =>
      Writ o t (.expression a.1 :: Node.ofArguments a.2) (Punctuation.ofArguments a.2) := by
  refine .check ?_
  split
  next callee first regroups _ =>
    have so : Writ o s ([.expression callee] ++ [.argument first]) [] :=
      regroup_writ so within regroups
    exact (bareArgumentsFrom_writ rules so).bind fun _ _ so => so
  next => exact (so.part (bareArguments_writes rules)).bind fun _ _ so => so

theorem assignmentOrCall_writes (rules : r.Punctuates) : WritesStatement (assignmentOrCall r) := by
  intro s sane
  refine (operand_ensures rules sane).bind fun target t facts => ?_
  obtain ⟨so, within⟩ := facts
  extract_lets start finish
  have call (c : Expression × Option Arguments) (u : ParseState)
      (so : Writ s u (.expression c.1 :: Node.ofArguments c.2) (Punctuation.ofArguments c.2)) :
      Ensures (finish c) u fun st v => Writ s v [Node.ofStatement st] [] :=
    so.finishStatement rfl rfl rfl
  have passed := so.onto so.sane.advance
  refine .peek ?_
  split
  · refine .skip ((passed.part (value_writes rules)).bind fun source u so => ?_)
    exact so.finishStatement rfl rfl rfl
  · split
    · refine .skip ((passed.part (value_writes rules)).bind fun source u so => ?_)
      exact so.finishStatement rfl rfl rfl
    · refine .atStatementEnd ?_
      split
      · exact call (target, none) t so
      · exact (callArguments_writ rules so within).bind fun c u so => call c u so

theorem callStatement_writes (rules : r.Punctuates) : WritesStatement (callStatement r) := by
  intro s sane
  have so := (Writ.refl sane).onto sane.advance
  exact .read ((so.part (operand_writes rules)).bind fun target t so => so.finishStatement rfl rfl rfl)

theorem keywordAssignment_writes (rules : r.Punctuates) : WritesStatement (keywordAssignment r) := by
  intro s sane
  have so := (Writ.refl sane).onto sane.advance
  refine .read ((so.part (operand_writes rules)).bind fun target t so => ?_)
  refine (so.pass (.expectPlace _ _)).bind fun equals u so => ?_
  extract_lets rest
  have goOn (equals : Location) (v : ParseState) (so : Writ s v [.expression target] []) :
      Ensures (rest equals) v fun st w => Writ s w [Node.ofStatement st] [] :=
    (so.part (value_writes rules)).bind fun source w so => so.finishStatement rfl rfl rfl
  cases equals with
  | some equals => exact goOn equals u so
  | none => exact (so.pass .placeholder).bind fun place v so => goOn place v so

theorem midAssignment_writes (rules : r.Punctuates) : WritesStatement (midAssignment r) := by
  intro s sane
  have so := ((Writ.refl sane).onto sane.advance).onto sane.advance.sane.advance
  refine .read (.skip ((so.part (value_writes rules)).bind fun target t so => ?_))
  refine (so.pass (.expect _ _)).bind fun _ u so => ?_
  refine (so.part (value_writes rules)).bind fun start v so => ?_
  refine (so.whenEaten (value_writes rules)).bind fun length w so => ?_
  refine (so.pass .closeParenthesis).bind fun _ x so => ?_
  refine (so.pass (.expect _ _)).bind fun _ y so => ?_
  refine (so.part (value_writes rules)).bind fun source z so => ?_
  exact (so.endStatement _).bind fun span _ facts => facts.2.item rfl rfl rfl

-- Other statements of one line

theorem localDeclaration_writes (rules : r.Punctuates) : WritesStatement (localDeclaration r) := by
  intro s sane
  refine .here (((Writ.refl sane).pass modifiers_proceeds).bind fun modifiers t so => ?_)
  refine (so.pass (checkModifiers_proceeds _ _)).bind fun _ u so => ?_
  refine (so.part (variableDeclarators_writes rules true)).bind fun declarators v so => ?_
  exact so.finishStatement rfl rfl rfl

theorem raiseEvent_writes (rules : r.Punctuates) : WritesStatement (raiseEvent r) := by
  intro s sane
  have so := (Writ.refl sane).onto sane.advance
  refine .read ((so.part identifier_writes).bind fun name t so => .check ?_)
  refine (so.part (optionalArguments_writes rules _)).bind fun arguments u so => ?_
  exact so.finishStatement rfl rfl rfl

theorem handlerStatement_writes (rules : r.Punctuates) (adds : Bool) :
    WritesStatement (handlerStatement r adds) := by
  intro s sane
  have so := (Writ.refl sane).onto sane.advance
  refine .read ((so.part (value_writes rules)).bind fun event t so => ?_)
  refine (so.pass (.expectPlace _ _)).bind fun comma u so => ?_
  refine (so.part (value_writes rules)).bind fun handler v so => ?_
  exact so.finishStatement rfl rfl rfl

theorem values_writes (rules : r.Punctuates) :
    Writes (values r) (fun l => l.items.map .expression) fun l => [.ofList Expression.span l] :=
  commaList_writes (fun _ => ⟨rfl, rfl⟩) (value_writes rules)

theorem reDimStatement_writes (rules : r.Punctuates) : WritesStatement (reDimStatement r) := by
  intro s sane
  have so := (Writ.refl sane).onto sane.advance
  refine .read ((so.pass (.eatContextual _)).bind fun preserve t so => ?_)
  refine (so.part (values_writes rules)).bind fun arrays u so => ?_
  exact so.finishStatement rfl rfl rfl

theorem eraseStatement_writes (rules : r.Punctuates) : WritesStatement (eraseStatement r) := by
  intro s sane
  have so := (Writ.refl sane).onto sane.advance
  exact .read ((so.part (values_writes rules)).bind fun arrays t so => so.finishStatement rfl rfl rfl)

-- The ends and parts of blocks

theorem endBlock_proceeds (kind : BlockKind) : Proceeds (endBlock kind) := by
  refine .bind .read fun first => ?_
  extract_lets rest
  have ends : Proceeds (rest ()) := .bind (.endStatement _) fun _ => .pure
  split
  · exact ends
  · exact .bind .skip fun _ => ends

theorem wordLine_proceeds : Proceeds wordLine := .bind .read fun _ => .endStatement _

theorem expectThen_proceeds (thenKeyword : Option Location) : Proceeds (expectThen thenKeyword) := by
  refine .bind .atStatementEnd fun _ => ?_
  split
  · exact .bind (.reportUnexpected _) fun _ => .resync []
  · exact .pure

theorem elseIfLine_writes (rules : r.Punctuates) :
    Writes (elseIfLine r) (fun l => [.expression l.condition]) fun _ => [] := by
  intro s sane
  have so := (Writ.refl sane).onto sane.advance
  refine .read ?_
  extract_lets rest
  have goOn (t : ParseState) (so : Writ s t [] []) :
      Ensures (rest ()) t fun l u => Writ s u [.expression l.condition] [] := by
    refine (so.part (value_writes rules)).bind fun condition u so => ?_
    refine (so.pass (.eatPlace _)).bind fun thenKeyword v so => ?_
    refine (so.pass (expectThen_proceeds _)).bind fun _ w so => ?_
    exact (so.pass (.endStatement _)).bind fun _ _ so => so
  split
  · exact .skip (goOn _ (so.onto so.sane.advance))
  · exact goOn _ so

theorem loopCondition_writes (rules : r.Punctuates) :
    Writes (loopCondition r) Node.ofLoopCondition fun _ => [] := by
  intro s sane
  refine .peek ?_
  extract_lets isWhile give
  split
  · have so := (Writ.refl sane).onto sane.advance
    exact .skip ((so.part (value_writes rules)).bind fun _ _ so => .spanFrom so)
  · refine .atStatementEnd ?_
    split
    · exact Writ.refl sane
    · refine ((Writ.refl sane).pass (.reportUnexpected _)).bind fun _ t so => ?_
      exact (so.pass (.resync [])).bind fun _ _ so => so

theorem loopLine_writes (rules : r.Punctuates) :
    Writes (loopLine r) (fun l => Node.ofLoopCondition l.condition) fun _ => [] := by
  intro s sane
  have so := (Writ.refl sane).onto sane.advance
  refine .read ((so.part (loopCondition_writes rules)).bind fun condition t so => ?_)
  exact (so.pass (.endStatement _)).bind fun _ _ so => so

theorem nextLine_writes (rules : r.Punctuates) :
    Writes (nextLine r) (fun l => l.loopVariables.items.map .expression)
      fun l => Punctuation.ofNext (some l) := by
  intro s sane
  have so := (Writ.refl sane).onto sane.advance
  refine .read (.atStatementEnd ?_)
  extract_lets rest
  have goOn (named : CommaList Expression) (t : ParseState)
      (so : Writ s t (named.items.map .expression) [.ofList Expression.span named]) :
      Ensures (rest named) t fun l u =>
        Writ s u (l.loopVariables.items.map .expression) (Punctuation.ofNext (some l)) :=
    (so.pass (.endStatement _)).bind fun _ _ so => so
  split
  · exact .here (goOn (.empty _) _ (so.listed (Punctuation.holds_empty Expression.span _ _)))
  · exact (so.part (values_writes rules)).bind fun named t so => goOn named t so

theorem catchLine_writes (rules : r.Punctuates) : Writes (catchLine r) Node.ofCatch fun _ => [] := by
  intro s sane
  have so := (Writ.refl sane).onto sane.advance
  refine .read (.check ((so.optionalNode identifier_writes).bind fun name t so => ?_))
  extract_lets rest
  have goOn (type : Option TypeName) (u : ParseState)
      (so : Writ s u (Node.ofOption .simpleName name ++ Node.ofOption .typeName type) []) :
      Ensures (rest type) u fun l v => Writ s v (Node.ofCatch l) [] := by
    refine (so.whenEaten (value_writes rules)).bind fun filter v so => ?_
    exact (so.pass (.endStatement _)).bind fun _ _ so => so
  split
  · exact (so.whenEaten (elementType_writes rules)).bind fun type u so => goOn type u so
  · exact goOn none t (by simpa [Node.ofOption] using so)

theorem caseClause_writes (rules : r.Punctuates) :
    Writes (caseClause r) (fun c => [.caseClause c]) fun _ => [] := by
  intro s sane
  refine .here (((Writ.refl sane).pass (.eatPlace _)).bind fun isKeyword t so => .peekKind ?_)
  split
  · refine .skip (((so.onto so.sane.advance).part (value_writes rules)).bind fun operand u so => ?_)
    exact so.finish rfl rfl
  · refine (so.pass (.reportUnexpected _)).bind fun _ u so => ?_
    refine (so.missing (fun place => .expression (.bad (.point place))) rfl).bind fun place v so => ?_
    exact so.finish rfl rfl
  · refine (so.part (value_writes rules)).bind fun lower u so => ?_
    refine (so.pass (.eatPlace _)).bind fun toKeyword v so => ?_
    cases toKeyword with
    | some toKeyword =>
      exact (so.part (value_writes rules)).bind fun upper w so => so.finish rfl rfl
    | none => exact so.around rfl rfl rfl rfl

theorem caseLine_writes (rules : r.Punctuates) :
    Writes (caseLine r) (fun l => Node.ofCaseHeader (.case l))
      fun l => Punctuation.ofCaseHeader (.case l) := by
  intro s sane
  have so := (Writ.refl sane).onto sane.advance
  refine .read ((so.part (commaList_writes (fun _ => ⟨rfl, rfl⟩) (caseClause_writes rules))).bind
    fun clauses t so => ?_)
  exact (so.pass (.endStatement _)).bind fun _ _ so => so

theorem caseElseLine_proceeds : Proceeds caseElseLine :=
  .bind .read fun _ => .bind .skip fun _ => .endStatement _

theorem strayTerminator_writes (rules : r.Punctuates) (x : Terminator) :
    WritesStatement (strayTerminator r x) := by
  intro s sane
  refine .peek (((Writ.refl sane).pass (.report _ _)).bind fun _ t so => ?_)
  cases x with
  | endOf kind => exact (so.pass (endBlock_proceeds kind)).bind fun _ _ so => so.item rfl rfl rfl
  | loop => exact (so.part (loopLine_writes rules)).bind fun _ _ so => so.item rfl rfl rfl
  | next => exact (so.part (nextLine_writes rules)).bind fun _ _ so => so.item rfl rfl rfl
  | elseIf => exact (so.part (elseIfLine_writes rules)).bind fun _ _ so => so.item rfl rfl rfl
  | elsePart | finallyPart =>
    exact (so.pass wordLine_proceeds).bind fun _ _ so => so.item rfl rfl rfl
  | case => exact (so.part (caseLine_writes rules)).bind fun _ _ so => so.item rfl rfl rfl
  | caseElse => exact (so.pass caseElseLine_proceeds).bind fun _ _ so => so.item rfl rfl rfl
  | catchPart => exact (so.part (catchLine_writes rules)).bind fun _ _ so => so.item rfl rfl rfl

end Parse

end VisualBasic
