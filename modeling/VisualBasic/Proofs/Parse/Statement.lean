import VisualBasic.Parse.Body
import VisualBasic.Proofs.Parse.BlockStatement
import VisualBasic.Proofs.Parse.Declaration

/-!
Single statements.  Wherever a statement is tried, it is read or it stalls behind a diagnostic.
-/

set_option autoImplicit false

namespace VisualBasic

/-- Beginning a construct does not show in what has been read. -/
theorem Attempt.ofBegun {s t : ParseState} {n : Node} (wf : s.Wf)
    (attempt : Attempt { s with suppressed := false } t n) : Attempt s t n := by
  have begun := (Stretch.refl wf).beginConstruct
  rcases attempt with ⟨so, guarded⟩ | ⟨so, still, dirty, start, finish, children, noLoop, owes⟩
  · exact .inl ⟨begun.trans so, guarded⟩
  · exact .inr ⟨begun.trans so, still, dirty, start, finish, children, noLoop, owes⟩

namespace Statement

/-- The statement is neither a block nor a terminator, nor a declaration. -/
def isSimple : Statement → Bool
  | .ifBlock _ | .lineIf _ | .doBlock _ | .forBlock _ | .forEachBlock _ | .whileBlock _
  | .objectBlock _ | .usingBlock _ | .tryBlock _ | .selectBlock _ | .endBlock _ | .loop _ | .next _
  | .elseIf _ | .elsePart _ | .case _ | .caseElse _ | .catchPart _ | .finallyPart _
  | .declaration _ => false
  | _ => true

def isDeclaration : Statement → Bool
  | .declaration _ => true
  | _ => false

theorem isDeclaration_of_isSimple {st : Statement} (simple : st.isSimple = true) :
    st.isDeclaration = false := by
  cases st <;> first | rfl | cases simple

theorem isAllowedIn_of_not_isDeclaration {st : Statement} (other : st.isDeclaration = false)
    (container : Container) : (Node.ofStatement st).isAllowedIn container = true := by
  cases st <;> first | rfl | cases other

end Statement

namespace Parse

variable {r : Rules} {b : Bodies} {depth : Nat} {s : ParseState}

theorem nameLabel_yields (wf : s.Wf) (named : s.kind = .identifier) :
    Yields nameLabel s fun st => [Node.ofStatement st] := by
  have so := named_token (.refl wf) (name?_of_kind (.inl named))
  exact so.around (ofToken_whole wf (name?_of_kind (.inl named))).1.symm rfl rfl

theorem badStatement_attempt (wf : s.Wf) :
    Ensures badStatement s fun st t => Attempt s t (Node.ofStatement st) := by
  refine .here (((Stretch.refl wf).reportUnexpected rfl).bind fun _ t ⟨so, dirty, _⟩ => ?_)
  exact (so.discard [] dirty).bind fun _ u ⟨so, dirty⟩ => so.giveUp rfl dirty

theorem isSolid_of_startsOperand (starts : startsOperand s = true) : s.kind.isSolid = true := by
  unfold startsOperand at starts
  cases kind : s.kind with
  | endOfStream | lexicalError | lineTerminator =>
    simp [kind, IntrinsicType.ofCastKind?, IntrinsicType.ofKind?] at starts
  | _ => rfl

theorem operandStatement_attempt (phrases : r.Sound) (wf : s.Wf) :
    Ensures (operandStatement r) s fun st t => Attempt s t (Node.ofStatement st) := by
  refine .get ?_
  split
  next starts =>
    exact (assignmentOrCall_yields phrases wf).mono
      fun _ _ so => .ofSolid so (isSolid_of_startsOperand starts)
  next => exact badStatement_attempt wf

theorem keywordStatement_attempt (phrases : r.Sound) (sound : b.Sound depth) (wf : s.Wf)
    {keyword : Keyword} (word : s.kind = .word keyword) (bound : s.remaining ≤ depth) :
    Ensures (keywordStatement r b keyword) s fun st t => Attempt s t (Node.ofStatement st) := by
  have solid : s.kind.isSolid = true := by rw [word]; rfl
  have read {p : Parse Statement} (yields : Yields p s fun st => [Node.ofStatement st]) :
      Ensures p s fun st t => Attempt s t (Node.ofStatement st) :=
    yields.mono fun _ _ so => .ofSolid so solid
  unfold keywordStatement
  split
  · exact read (localDeclaration_yields phrases wf)
  · exact read (localDeclaration_yields phrases wf)
  · exact read (localDeclaration_yields phrases wf)
  · exact read (callStatement_yields phrases wf solid)
  · exact read (keywordAssignment_yields phrases wf solid)
  · exact read (keywordAssignment_yields phrases wf solid)
  · exact read (goToStatement_yields wf solid)
  · exact read (obsoleteJump_yields wf solid)
  · exact read (exitStatement_yields wf solid)
  · exact read (continueStatement_yields wf solid)
  · exact read (stopStatement_yields wf solid)
  · exact read (endProgram_yields wf solid)
  · exact read (optionalOperand_yields phrases wf solid (.inl rfl))
  · exact read (optionalOperand_yields phrases wf solid (.inr rfl))
  · exact read (raiseError_yields phrases wf solid)
  · exact read (raiseEvent_yields phrases wf solid)
  · exact read (handlerStatement_yields phrases true wf solid)
  · exact read (handlerStatement_yields phrases false wf solid)
  · exact read (onErrorStatement_yields wf solid)
  · exact read (resumeStatement_yields wf solid)
  · exact read (reDimStatement_yields phrases wf solid)
  · exact read (eraseStatement_yields phrases wf solid)
  · exact read (ifStatement_yields phrases sound wf solid bound)
  · exact read (doBlock_yields phrases sound wf solid bound)
  · exact read (forStatement_yields phrases sound wf word bound)
  · exact read (whileBlock_yields phrases sound wf solid bound)
  · exact read (objectBlock_yields phrases sound .withObject wf solid bound)
  · exact read (objectBlock_yields phrases sound .syncLock wf solid bound)
  · exact read (usingBlock_yields phrases sound wf solid bound)
  · exact read (tryBlock_yields phrases sound wf solid bound)
  · exact read (selectBlock_yields phrases sound wf solid bound)
  · exact operandStatement_attempt phrases wf

theorem plainStatement_attempt (phrases : r.Sound) (sound : b.Sound depth) (wf : s.Wf)
    (bound : s.remaining ≤ depth) :
    Ensures (plainStatement r b) s fun st t => Attempt s t (Node.ofStatement st) := by
  refine .get ?_
  split
  next named =>
    have solid : s.kind.isSolid = true := by rw [named]; rfl
    split
    · exact (nameLabel_yields wf named).mono fun _ _ so => .ofSolid so solid
    · split
      next starts =>
        exact (midAssignment_yields phrases wf starts).mono fun _ _ so => .ofSolid so solid
      next => exact (assignmentOrCall_yields phrases wf).mono fun _ _ so => .ofSolid so solid
  next number =>
    exact (lineNumber_yields wf number).mono fun _ _ so => .ofSolid so (by rw [number]; rfl)
  next keyword word => exact keywordStatement_attempt phrases sound wf word bound
  next => exact operandStatement_attempt phrases wf

theorem statement_attempt (phrases : r.Sound) (sound : b.Sound depth) (wf : s.Wf)
    (bound : s.remaining ≤ depth) :
    Ensures (statement r b) s fun st t => Attempt s t (Node.ofStatement st) := by
  refine .beginConstruct (.get ?_)
  have begun := (ParseState.Act.begin (s := s)).wf wf
  split
  next x starts =>
    exact (strayTerminator_ensures phrases begun starts).mono
      fun _ _ facts => .ofBegun wf (.ofSolid facts.1 (isSolid_of_terminator starts))
  next =>
    split
    · exact (declaration_attempt phrases sound .script begun bound).bind
        fun _ _ attempt => .ofBegun wf attempt
    · exact (plainStatement_attempt phrases sound begun bound).mono
        fun _ _ attempt => .ofBegun wf attempt

/-- A token that is neither a modifier nor an angle bracket says alone what its line starts. -/
theorem lineStart_eq_ofKinds (noModifier : Modifier.ofKind? s.kind = none)
    (noBracket : s.kind ≠ .mark .lessThan) : s.lineStart = .ofKinds s.ahead := by
  have first : Lookahead.kindAt s.ahead 0 = s.kind := rfl
  have plain : Lookahead.isModifier s.current = false := by
    simp [Lookahead.isModifier, show Modifier.ofKind? s.current.kind = none from noModifier]
  have behind : Lookahead.behindAttributes none s.ahead = (true, s.ahead) := by
    simp [ParseState.ahead, Lookahead.behindAttributes,
      show s.current.kind ≠ .mark .lessThan from noBracket]
  have unmodified : s.ahead.takeWhile Lookahead.isModifier = [] := by
    simp [ParseState.ahead, plain]
  have rest : s.ahead.dropWhile Lookahead.isModifier = s.ahead := by
    simp [ParseState.ahead, plain]
  simp only [ParseState.lineStart, LineStart.ofTokens, behind, unmodified, rest, first]
  cases LineStart.ofKinds s.ahead <;> simp [noBracket]

/-- A line that belongs at the top of a file or type is not at its end. -/
theorem atStatementEnd_of_heading (heading : s.lineStart = .heading) :
    s.atStatementEnd = false := by
  by_contra ends
  rw [Bool.not_eq_false] at ends
  have first : Lookahead.kindAt s.ahead 0 = s.kind := rfl
  have starts (kind : TokenKind) (same : s.kind = kind) (plain : Modifier.ofKind? kind = none)
      (noBracket : kind ≠ .mark .lessThan)
      (others : ∀ tokens, Lookahead.kindAt tokens 0 = kind → LineStart.ofKinds tokens = .statement) :
      False := by
    rw [lineStart_eq_ofKinds (same ▸ plain) (same ▸ noBracket), others _ (first.trans same)] at heading
    cases heading
  unfold ParseState.atStatementEnd at ends
  split at ends
  next kind => exact starts _ kind rfl (by simp) fun _ same => by simp [LineStart.ofKinds, same]
  next kind => exact starts _ kind rfl (by simp) fun _ same => by simp [LineStart.ofKinds, same]
  next kind => exact starts _ kind rfl (by simp) fun _ same => by simp [LineStart.ofKinds, same]
  next kind => exact starts _ kind rfl (by simp) fun _ same => by simp [LineStart.ofKinds, same]
  next kind => exact starts _ kind rfl (by simp) fun _ same => by simp [LineStart.ofKinds, same]
  next => cases ends

/-- A statement that is not at its end is skipped by at least a token. -/
theorem skipStatement_moves (wf : s.Wf) (dirty : s.diagnostics ≠ [])
    (goesOn : s.atStatementEnd = false) :
    Ensures skipStatement s fun _ t => t.remaining < s.remaining := by
  have ends : s.kind ≠ .endOfStream := fun ends => by simp [ParseState.atStatementEnd, ends] at goesOn
  have fewer := (ParseState.limit_advance wf ends).2.2
  obtain ⟨n, count⟩ : ∃ n, s.remaining = n + 1 := ⟨s.remaining - 1, by omega⟩
  show (s.advanceWhile _ s.remaining).remaining < s.remaining
  have step : s.advanceWhile (fun s => !s.atStatementEnd) (n + 1)
      = s.advance.advanceWhile (fun s => !s.atStatementEnd) n := by
    simp [ParseState.advanceWhile, goesOn]
  have inside := ParseState.within_skipped s (by simp [goesOn])
  have passed := (Stretch.refl wf).advance (fun _ => dirty) inside
  have later := ((Stretch.refl passed.wf).advanceWhile ParseState.within_skipped n
    (s.diagnostics_advance ▸ dirty)).later.remaining
  rw [count, step]
  omega

theorem misplacedHeading_moves (wf : s.Wf) (heading : s.lineStart = .heading) :
    Ensures misplacedHeading s fun st t => Stretch s.here s t [Node.ofStatement st] [] ∧
      t.remaining < s.remaining ∧ t.diagnostics ≠ [] := by
  refine .beginConstruct (.peek ?_)
  refine ((Stretch.refl wf).beginConstruct.report _ rfl fun _ => wf.stream.order).bind
    fun _ t ⟨so, dirty, ahead⟩ => ?_
  obtain ⟨kind, after, left⟩ := kinds_of_ahead ahead
  have goesOn : t.atStatementEnd = false := by
    have first := atStatementEnd_of_heading heading
    simp only [ParseState.atStatementEnd, kind, after, so.depth] at first ⊢
    exact first
  refine ((so.skipStatement dirty).and (skipStatement_moves so.wf dirty goesOn)).bind
    fun _ u facts => ?_
  obtain ⟨⟨so, dirty⟩, moved⟩ := facts
  have moved : u.remaining < s.remaining := Nat.lt_of_lt_of_eq moved left
  have reached : s.current.span.start.index ≤ u.limit := Nat.le_of_lt (so.later.moved moved)
  exact (Stretch.finishWhen so reached rfl rfl fun none => absurd none dirty).and ⟨moved, dirty⟩

theorem listedStatement_moves (phrases : r.Sound) (sound : b.Sound depth) (wf : s.Wf)
    (goesOn : s.kind ≠ .endOfStream) (inside : s.kind ≠ .lineTerminator)
    (bound : s.remaining ≤ depth) :
    Ensures (listedStatement r b) s fun st t =>
      Stretch s.here s t [Node.ofStatement st] [] ∧ t.remaining < s.remaining := by
  refine .get ?_
  split
  next misplaced =>
    exact (misplacedHeading_moves wf (beq_iff_eq.1 (Bool.and_eq_true_iff.1 misplaced).2)).mono
      fun _ _ facts => ⟨facts.1, facts.2.1⟩
  next => exact .moving goesOn inside (statement_attempt phrases sound wf bound)

-- Statements without parts

theorem keywordAssignment_simple :
    Ensures (keywordAssignment r) s fun st _ => st.isSimple = true := by
  refine Ensures.any.bind fun keyword t _ => Ensures.any.bind fun target u _ =>
    Ensures.any.bind fun equals v _ => ?_
  extract_lets rest
  cases equals <;> rfl

theorem endProgram_simple : Ensures endProgram s fun st _ => st.isSimple = true := by
  refine Ensures.any.bind fun keyword t _ => .atStatementEnd ?_
  extract_lets rest
  split <;> rfl

theorem onErrorStatement_simple : Ensures onErrorStatement s fun st _ => st.isSimple = true := by
  refine Ensures.any.bind fun keyword t _ => Ensures.any.bind fun word u _ => ?_
  cases word <;> rfl

theorem assignmentOrCall_simple :
    Ensures (assignmentOrCall r) s fun st _ => st.isSimple = true := by
  refine Ensures.any.bind fun target t _ => .peek ?_
  extract_lets start
  split
  · rfl
  · split
    · rfl
    · refine .atStatementEnd ?_
      split <;> rfl

theorem operandStatement_simple :
    Ensures (operandStatement r) s fun st _ => st.isSimple = true := by
  refine .get ?_
  split
  · exact assignmentOrCall_simple
  · rfl

theorem lineNumber_simple : Ensures lineNumber s fun st _ => st.isSimple = true := by
  refine .peek (.get ?_)
  extract_lets rest
  split <;> rfl

/-- Only `statement` itself gives declarations. -/
theorem keywordStatement_isDeclaration (keyword : Keyword) :
    Ensures (keywordStatement r b keyword) s fun st _ => st.isDeclaration = false := by
  have simple {p : Parse Statement} (simple : Ensures p s fun st _ => st.isSimple = true) :
      Ensures p s fun st _ => st.isDeclaration = false :=
    simple.mono fun _ _ simple => Statement.isDeclaration_of_isSimple simple
  unfold keywordStatement
  split
  · rfl
  · rfl
  · rfl
  · rfl
  · exact simple keywordAssignment_simple
  · exact simple keywordAssignment_simple
  · rfl
  · rfl
  · rfl
  · rfl
  · rfl
  · exact simple endProgram_simple
  · rfl
  · rfl
  · rfl
  · rfl
  · rfl
  · rfl
  · exact simple onErrorStatement_simple
  · rfl
  · rfl
  · rfl
  · refine Ensures.any.bind fun _ t _ => Ensures.any.bind fun _ u _ => Ensures.any.bind fun _ v _ =>
      .peekKind ?_
    split <;> rfl
  · rfl
  · refine Ensures.any.bind fun _ t _ => Ensures.any.bind fun each u _ => ?_
    cases each <;> rfl
  · rfl
  · rfl
  · rfl
  · rfl
  · rfl
  · rfl
  · exact simple operandStatement_simple

theorem plainStatement_isDeclaration :
    Ensures (plainStatement r b) s fun st _ => st.isDeclaration = false := by
  have simple {p : Parse Statement} (simple : Ensures p s fun st _ => st.isSimple = true) :
      Ensures p s fun st _ => st.isDeclaration = false :=
    simple.mono fun _ _ simple => Statement.isDeclaration_of_isSimple simple
  refine .get ?_
  split
  next =>
    split
    · rfl
    · split
      · rfl
      · exact simple assignmentOrCall_simple
  next => exact simple lineNumber_simple
  next keyword _ => exact keywordStatement_isDeclaration keyword
  next => exact simple operandStatement_simple

/-- A declaration that cannot stand among statements has been reported. -/
theorem statement_allowed (phrases : r.Sound) (sound : b.Sound depth) (wf : s.Wf)
    (bound : s.remaining ≤ depth) :
    Ensures (statement r b) s fun st t =>
      t.diagnostics = [] → (Node.ofStatement st).isAllowedIn .script = true := by
  have begun := (ParseState.Act.begin (s := s)).wf wf
  refine .beginConstruct (.get ?_)
  split
  next starts =>
    exact (strayTerminator_ensures phrases begun starts).mono
      fun _ _ facts none => absurd none facts.2
  next =>
    split
    · exact (declaration_ensures phrases sound .script begun bound).bind fun _ _ facts => facts.2
    · exact plainStatement_isDeclaration.mono
        fun _ _ other _ => Statement.isAllowedIn_of_not_isDeclaration other .script

theorem listedStatement_allowed (phrases : r.Sound) (sound : b.Sound depth) (wf : s.Wf)
    (bound : s.remaining ≤ depth) :
    Ensures (listedStatement r b) s fun st t =>
      t.diagnostics = [] → (Node.ofStatement st).isAllowedIn .script = true := by
  refine .get ?_
  split
  · exact fun _ => rfl
  · exact .moving_clean (statement_allowed phrases sound wf bound)

end Parse

end VisualBasic
