import VisualBasic.Proofs.Parse.Body
import VisualBasic.Proofs.Parse.Comments
import VisualBasic.Proofs.Tandem.Declaration
import VisualBasic.Proofs.Tandem.Separators

/-!
Lists of statements and declarations are read alike in two texts, and so is everything that holds
them.  A list that the first text leaves open where the second one goes on does not count.
-/

set_option autoImplicit false

namespace VisualBasic

theorem Readers.mono {c : Seam} {j k : Bound} {r r' : Rules} (readers : Readers c k r r')
    (fewer : j ≤ k) : Readers c j r r' where
  agree := readers.agree.mono fewer
  alone c' := (readers.alone c').mono ⟨fewer.1, fewer.1⟩
  sound := readers.sound
  loops := readers.loops
  cut := readers.cut

theorem Bodies.Sound.mono {b : Bodies} {j k : Nat} (sound : b.Sound k) (fewer : j ≤ k) :
    b.Sound j where
  statements s wf bound := sound.statements s wf (Nat.lt_of_lt_of_le bound fewer)
  leaves s wf bound := sound.leaves s wf (Nat.lt_of_lt_of_le bound fewer)
  line s wf bound := sound.line s wf (Nat.lt_of_lt_of_le bound fewer)
  declarations container s wf bound :=
    sound.declarations container s wf (Nat.lt_of_lt_of_le bound fewer)

theorem Bodies.Agree.mono {c : Seam} {j k : Bound} {b b' : Bodies} (bodies : b.Agree c k b')
    (fewer : j ≤ k) : b.Agree c j b' where
  isScript := bodies.isScript
  statements X Y near := (bodies.statements X Y (near.mono fewer)).within near
  line X Y near := (bodies.line X Y (near.mono fewer)).within near
  declarations container X Y near :=
    (bodies.declarations container X Y (near.mono fewer)).within near
  stands := bodies.stands
  standsToo := bodies.standsToo
  sound := bodies.sound.mono fewer.1

namespace Parse

variable {c : Seam} {m : Option ParseState} {o : ParseState} {k : Bound} {r r' : Rules}
  {b b' : Bodies} {s X Y : ParseState}

-- Single statements

theorem nameLabel_tracks (near : Near c o k X Y) (inside : X.kind.endsLine = false) :
    Tracks c o k nameLabel nameLabel X Y := by
  refine near.up.read inside fun X Y near => near.pure ?_
  rw [SimpleName.ofToken_relocate]
  rfl

theorem badStatement_tracks (near : Near c o k X Y) :
    Tracks c o k badStatement badStatement X Y := by
  refine near.here (near.reportUnexpected fun X Y _ near => ?_)
  refine near.resync.bind fun _ X Y near => ?_
  exact (near.spanFrom rfl).bind fun span X Y near => near.pure rfl

theorem operandStatement_tracks (agree : r.Agree c k r') (near : Near c o k X Y) :
    Tracks c o k (operandStatement r) (operandStatement r') X Y := by
  refine Paired.get ?_
  rw [near.startsOperand]
  split
  · exact assignmentOrCall_tracks agree near
  · exact badStatement_tracks near

theorem keywordStatement_tracks (loops : c.loops) (agree : r.Agree c (k + 1) r')
    (bodies : b.Agree c k b') (near : Near c o (k + 1) X Y) {keyword : Keyword}
    (word : X.kind = .word keyword) :
    Tracked c (fun s _ => s.Firm) (Loose c (k + 1)) (keywordStatement r b keyword)
      (keywordStatement r' b' keyword) X Y := by
  have inside := Paired.endsLine_of rfl word
  have below := agree.mono k.le_succ
  unfold keywordStatement
  split
  · exact (localDeclaration_tracks agree near).loosely
  · exact (localDeclaration_tracks agree near).loosely
  · exact (localDeclaration_tracks agree near).loosely
  · exact (callStatement_tracks agree near inside).loosely
  · exact (keywordAssignment_tracks agree near inside).loosely
  · exact (keywordAssignment_tracks agree near inside).loosely
  · exact (goToStatement_tracks near inside).loosely
  · exact (obsoleteJump_tracks near inside).loosely
  · exact (exitStatement_tracks near inside).loosely
  · exact (continueStatement_tracks near inside).loosely
  · exact (stopStatement_tracks near inside).loosely
  · exact (endProgram_tracks near inside).loosely
  · exact (optionalOperand_tracks agree near inside fun _ _ => rfl).loosely
  · exact (optionalOperand_tracks agree near inside fun _ _ => rfl).loosely
  · exact (raiseError_tracks agree near inside).loosely
  · exact (raiseEvent_tracks agree near inside).loosely
  · exact (handlerStatement_tracks agree near inside true).loosely
  · exact (handlerStatement_tracks agree near inside false).loosely
  · exact (onErrorStatement_tracks near inside).loosely
  · exact (resumeStatement_tracks near inside).loosely
  · exact (reDimStatement_tracks agree near inside).loosely
  · exact (eraseStatement_tracks agree near inside).loosely
  · exact (ifStatement_tracks below bodies near inside).up
  · exact (doBlock_tracks below bodies near inside).up
  · exact (forStatement_tracks loops below bodies near inside).up
  · exact (whileBlock_tracks below bodies near inside).up
  · exact (objectBlock_tracks below bodies near inside .withObject).up
  · exact (objectBlock_tracks below bodies near inside .syncLock).up
  · exact (usingBlock_tracks below bodies near inside).up
  · exact (tryBlock_tracks below bodies near inside).up
  · exact (selectBlock_tracks below bodies near inside).up
  · exact (operandStatement_tracks agree near).loosely

theorem plainStatement_tracks (loops : c.loops) (agree : r.Agree c (k + 1) r')
    (bodies : b.Agree c k b') (near : Near c o (k + 1) X Y) :
    Tracked c (fun s _ => s.Firm) (Loose c (k + 1)) (plainStatement r b) (plainStatement r' b')
      X Y := by
  refine Paired.get ?_
  rcases near.kind with same | ⟨-, ends, breaks⟩
  case inr =>
    rw [ends, breaks]
    exact (operandStatement_tracks agree near).loosely
  rw [same]
  split
  next named =>
    have inside := Paired.endsLine_of rfl named
    have colon : (Y.kindAfter == .mark .colon) = (X.kindAfter == .mark .colon) :=
      (near.toTwin.kindAfter inside).beq rfl
    rw [colon, near.toKin.atLineStart, near.atMidAssignment]
    split
    · exact (nameLabel_tracks near inside).loosely
    split
    next starts => exact (midAssignment_tracks agree near starts).loosely
    · exact (assignmentOrCall_tracks agree near).loosely
  next number => exact (lineNumber_tracks near (Paired.endsLine_of rfl number)).loosely
  next keyword word => exact keywordStatement_tracks loops agree bodies near word
  next => exact (operandStatement_tracks agree near).loosely

/-- A statement that both parsers stand before. -/
theorem statement_tracks (loops : c.loops) (agree : r.Agree c (k + 1) r')
    (bodies : b.Agree c k b') (near : Paired c m (k + 1) X Y)
    (current : Y.current = relocate c.carry X.current) :
    Tracked c (fun s _ => s.Firm) (Loose c (k + 1)) (statement r b) (statement r' b') X Y := by
  refine near.beginConstruct fun near => Paired.get ?_
  rw [near.terminator]
  split
  next t starts => exact (strayTerminator_tracks agree near starts).loosely
  next =>
    rw [bodies.isScript, near.toKin.inProcedure, near.lineStart]
    split
    · refine (declaration_tracks agree bodies near current .script).bindWhen
        (fun d s firm => .inl firm) fun d X Y _ near => near.pure ?_
      rfl
    · exact plainStatement_tracks loops agree bodies near

-- Reasons to stop

instance : Relocate ListStep := ⟨fun _ step => step⟩
instance : Relocate DeclarationOrder := ⟨fun _ order => order⟩

/-- Both parsers still stand where they stood, though they may have reported something. -/
structure Stood (c : Seam) (k : Bound) (s X Y : ParseState) : Prop extends Loose c k X Y where
  same : X.ahead = s.ahead
  within : X.blocks = s.blocks

theorem stopUnclosed_tracks (stood : Stood c k s X Y) :
    Tracked c (fun _ _ => True) (Stood c k s) stopUnclosed stopUnclosed X Y := by
  have near := stood.toPaired
  refine Paired.get ?_
  rw [near.blocks, head?_relocate]
  cases innermost : X.blocks.head? with
  | none => exact .pure stood rfl
  | some block =>
    have same : ¬ c.IsCut → Problem.unclosed block.kind = .unclosed block.kind ∧
        relocate c.carry block.header = relocate c.carry block.header := fun _ => ⟨rfl, rfl⟩
    have reported := near.begun.reports_report same
    refine .step rfl rfl (.standing (ParseState.ahead_report ..) (ParseState.ahead_report ..)) ?_
    refine .pure ⟨reported.loose, ?_, ?_⟩ rfl
    · exact (ParseState.ahead_report ..).trans stood.same
    · exact (ParseState.blocks_report ..).trans stood.within

theorem stopAtTerminator_tracks (stood : Stood c k s X Y)
    (goesOn : c.IsCut → s.kind ≠ .endOfStream) :
    Tracked c (fun _ _ => True) (Stood c k s) stopAtTerminator stopAtTerminator X Y := by
  have near := stood.toPaired
  have kind : Y.kind = X.kind := near.kind.resolve_right fun ⟨cut, ends, _⟩ =>
    goesOn cut ((ParseState.kind_of_ahead stood.same).symm.trans ends)
  refine Paired.get ?_
  rw [kind, near.terminator, near.toKin.blocks, head?_relocate]
  split
  next => exact stopUnclosed_tracks stood
  next =>
    cases X.terminator? with
    | none => exact .pure stood rfl
    | some t =>
      cases X.blocks.head? with
      | none => exact .pure stood rfl
      | some block =>
        have moved : relocate c.carry (some block) = some (relocate c.carry block) := rfl
        have kind : (relocate c.carry block).kind = block.kind := rfl
        rw [moved]
        dsimp only
        rw [kind, near.toKin.outerAccepts]
        split
        · exact .pure stood rfl
        split
        · exact stopUnclosed_tracks stood
        · exact .pure stood rfl

theorem pendingNext_span_relocate (g : Location → Location) (p : PendingNext) :
    (relocate g p).span = relocate g p.span := by
  have items : (relocate g p).statement.loopVariables.items[(relocate g p).index]? =
      p.statement.loopVariables.items[p.index]?.map (relocate g) := List.getElem?_map ..
  unfold PendingNext.span
  rw [items]
  cases p.statement.loopVariables.items[p.index]? with
  | none => rfl
  | some e => exact e.span_relocate g

/-- What is left over of a `Next` is reported in both texts. -/
theorem dropPendingNext_near (near : Loose c k X Y) (pending : PendingNext) :
    Loose c k ((dropPendingNext pending).run X).2
      ((dropPendingNext (relocate c.carry pending)).run Y).2 := by
  have dropped : Loose c k { X with pendingNext := none } { Y with pendingNext := none } :=
    { near with
      pending := fun _ => rfl
      settled := fun _ => rfl
      stays := fun _ member => by cases member }
  refine (dropped.begun.reports_report fun _ => ⟨rfl, ?_⟩).loose
  exact pendingNext_span_relocate _ _

theorem stopAtPendingNext_tracks (loops : c.loops) (stood : Stood c k s X Y) :
    Tracked c (fun _ _ => True) (Stood c k s) stopAtPendingNext stopAtPendingNext X Y := by
  have near := stood.toPaired
  have dropped (pending : PendingNext) :
      Tracked c (fun _ _ => True) (Stood c k s)
        (dropPendingNext pending >>= fun _ => pure ListStep.goOn)
        (dropPendingNext (relocate c.carry pending) >>= fun _ => pure ListStep.goOn) X Y := by
    refine .step rfl rfl (.standing (ParseState.ahead_report ..) (ParseState.ahead_report ..)) ?_
    refine .pure ⟨dropPendingNext_near near pending, ?_, ?_⟩ rfl
    · exact (ParseState.ahead_report ..).trans stood.same
    · exact (ParseState.blocks_report ..).trans stood.within
  refine Paired.get ?_
  rw [near.pending loops, near.toKin.blocks, head?_relocate]
  cases X.pendingNext with
  | none => exact .pure stood rfl
  | some pending =>
    cases X.blocks.head? with
    | none => exact dropped pending
    | some block =>
      have left : relocate c.carry (some pending) = some (relocate c.carry pending) := rfl
      have moved : relocate c.carry (some block) = some (relocate c.carry block) := rfl
      have kind : (relocate c.carry block).kind = block.kind := rfl
      rw [left, moved]
      dsimp only
      rw [kind, near.toKin.outerAccepts]
      split
      · exact .pure stood rfl
      split
      · exact stopUnclosed_tracks stood
      · exact dropped pending

/-- Attributes that the first text leaves open may go on in the second one. -/
def Closed (c : Seam) (s : ParseState) : Prop :=
  c.IsCut → s.inProcedure = true → Lookahead.behindAttributes none s.ahead ≠ (false, [])

theorem stopAtMember_tracks (stood : Stood c k s X Y) (closed : Closed c s) :
    Tracked c (fun _ _ => True) (Stood c k s) stopAtMember stopAtMember X Y := by
  have near := stood.toPaired
  have inProcedure : X.inProcedure = s.inProcedure := by
    unfold ParseState.inProcedure
    rw [stood.within]
  refine Paired.get ?_
  rw [near.toKin.inProcedure, near.lineStart]
  cases holds : X.inProcedure with
  | false => exact .pure stood rfl
  | true =>
    have closed : c.IsCut → Lookahead.behindAttributes none X.ahead ≠ (false, []) := by
      rw [stood.same]
      exact fun cut => closed cut (inProcedure ▸ holds)
    rw [near.atSiblingAccessor closed]
    split
    · exact stopUnclosed_tracks stood
    · exact .pure stood rfl

theorem isNone_accessor? (twin : Twin c X Y) (member : X.lineStart = .member) :
    (Lookahead.accessor? Y.ahead).isNone = (Lookahead.accessor? X.ahead).isNone := by
  rcases (twin.ahead.behindAttributes rfl none).2 with behind | ⟨unclosed, -⟩
  · rcases Seam.Ahead.accessor behind with same | ⟨word, here, there⟩
    · rw [same]
    · rw [here, there]
      rfl
  · simp [ParseState.lineStart, LineStart.ofTokens, unclosed] at member

theorem leaves_eq (twin : Twin c X Y) (container : Container) :
    leaves Y container = leaves X container := by
  unfold leaves
  rw [twin.lineStart]
  by_cases member : X.lineStart = .member
  · have named : (Y.kind != .identifier) = (X.kind != .identifier) :=
      congrArg (!·) (twin.kind.beq rfl)
    have bracket : (Y.kind != .mark .lessThan) = (X.kind != .mark .lessThan) :=
      congrArg (!·) (twin.kind.beq rfl)
    rw [isNone_accessor? twin member, named, bracket]
  · rw [beq_eq_false_iff_ne.2 member]
    cases container <;> simp

theorem stopLeaving_tracks (stood : Stood c k s X Y) (container : Container) :
    Tracked c (fun _ _ => True) (Stood c k s) (stopLeaving container) (stopLeaving container)
      X Y := by
  refine Paired.get ?_
  rw [leaves_eq stood.toTwin]
  split
  · exact stopUnclosed_tracks stood
  · exact .pure stood rfl

theorem firstStop_tracks {steps : List (Parse ListStep)} (stood : Stood c k s X Y)
    (each : ∀ step ∈ steps, ∀ X Y, Stood c k s X Y →
      Tracked c (fun _ _ => True) (Stood c k s) step step X Y) :
    Tracked c (fun _ _ => True) (Stood c k s) (firstStop steps) (firstStop steps) X Y := by
  induction steps generalizing X Y with
  | nil => exact .pure stood rfl
  | cons step rest ih =>
    refine (each step List.mem_cons_self X Y stood).bind fun found X Y stood => ?_
    cases found with
    | goOn => exact ih stood fun step member => each step (List.mem_cons_of_mem _ member)
    | stop => exact .pure stood rfl

-- Where a text ends

theorem run_stopUnclosed (s : ParseState) :
    (stopUnclosed.run s).1 = .stop none ∧ (stopUnclosed.run s).2.ahead = s.ahead := by
  unfold stopUnclosed
  rw [Paired.run_get]
  cases s.blocks.head? with
  | none => exact ⟨rfl, rfl⟩
  | some block => exact ⟨rfl, ParseState.ahead_report ..⟩

theorem run_stopAtPendingNext (s : ParseState) :
    (stopAtPendingNext.run s).2.ahead = s.ahead ∧
      (s.pendingNext = none → stopAtPendingNext.run s = (.goOn, s)) := by
  unfold stopAtPendingNext
  rw [Paired.run_get]
  split
  next => exact ⟨rfl, fun _ => rfl⟩
  next left _ =>
    refine ⟨?_, fun none => by rw [none] at left; cases left⟩
    split
    · rfl
    split
    · exact (run_stopUnclosed s).2
    · exact ParseState.ahead_report ..
  next left _ => exact ⟨ParseState.ahead_report .., fun none => by rw [none] at left; cases left⟩

theorem run_stopAtTerminator_of_ended (ends : s.kind = .endOfStream) :
    stopAtTerminator.run s = stopUnclosed.run s := by
  unfold stopAtTerminator
  rw [Paired.run_get, if_pos ends]

/-- Where a text ends, its statements do, without a terminator unless a `Next` is left over. -/
theorem statementStops_of_ended (ends : s.kind = .endOfStream) :
    ∃ stop t, (firstStop [stopAtPendingNext, stopAtTerminator, stopAtMember]).run s =
        (.stop stop, t) ∧ t.kind = .endOfStream ∧ (s.pendingNext = none → stop = none) := by
  obtain ⟨ahead, settled⟩ := run_stopAtPendingNext s
  rw [firstStop, Paired.run_bind]
  generalize stopAtPendingNext.run s = first at ahead settled ⊢
  obtain ⟨step, t⟩ := first
  have ends : t.kind = .endOfStream := (ParseState.kind_of_ahead ahead).trans ends
  cases step with
  | stop stop => exact ⟨stop, t, rfl, ends, fun none => by cases settled none⟩
  | goOn =>
    obtain ⟨stops, ahead⟩ := run_stopUnclosed t
    refine ⟨none, (stopUnclosed.run t).2, ?_, (ParseState.kind_of_ahead ahead).trans ends,
      fun _ => rfl⟩
    show (firstStop [stopAtTerminator, stopAtMember]).run t = _
    rw [firstStop, Paired.run_bind, run_stopAtTerminator_of_ended ends, stops]
    rfl

theorem declarationStops_of_ended (ends : s.kind = .endOfStream) (container : Container) :
    ((firstStop [stopAtTerminator, stopLeaving container]).run s).1 = .stop none := by
  rw [firstStop, Paired.run_bind, run_stopAtTerminator_of_ended ends, (run_stopUnclosed s).1]
  rfl

theorem firstStop_goOn {step : Parse ListStep} {rest : List (Parse ListStep)}
    (first : step.run s = (.goOn, s)) (more : (firstStop rest).run s = (.goOn, s)) :
    (firstStop (step :: rest)).run s = (.goOn, s) := by
  rw [firstStop, Paired.run_bind, first]
  exact more

/-- Attributes that are still open where the text ends are no statement. -/
theorem listed_of_open (inside : s.inProcedure = true) (settled : s.pendingNext = none)
    (unclosed : Lookahead.behindAttributes none s.ahead = (false, [])) :
    (firstStop [stopAtPendingNext, stopAtTerminator, stopAtMember]).run s = (.goOn, s) ∧
      ∃ span, ((listedStatement r b).run s).1 = .bad span := by
  have bracket : s.kind = .mark .lessThan := by
    by_contra other
    have closed : Lookahead.behindAttributes none s.ahead = (true, s.ahead) := if_neg other
    simp [unclosed] at closed
  have line : s.lineStart = .statement := by
    simp [ParseState.lineStart, LineStart.ofTokens, unclosed]
  have plain : s.terminator? = none := by
    unfold ParseState.terminator?
    rw [bracket]
    rfl
  constructor
  · have accessor : Lookahead.accessor? s.ahead = none := by
      simp [Lookahead.accessor?, unclosed, Lookahead.kindAt]
    have second : stopAtTerminator.run s = (.goOn, s) := by
      unfold stopAtTerminator
      rw [Paired.run_get, if_neg (by simp [bracket]), plain]
      rfl
    have third : stopAtMember.run s = (.goOn, s) := by
      unfold stopAtMember
      rw [Paired.run_get, if_neg (by simp [ParseState.atSiblingAccessor, accessor, line])]
      rfl
    exact firstStop_goOn ((run_stopAtPendingNext s).2 settled)
      (firstStop_goOn second (firstStop_goOn third rfl))
  · have first : (statement r b).run s = badStatement.run { s with suppressed := false } := by
      have procedure : ParseState.inProcedure { s with suppressed := false } = true := inside
      have bracket : ParseState.kind { s with suppressed := false } = .mark .lessThan := bracket
      have begun : (beginConstruct.run s).2 = { s with suppressed := false } := rfl
      unfold statement
      rw [Paired.run_bind, begun, Paired.run_get,
        show ParseState.terminator? { s with suppressed := false } = none from plain, procedure,
        if_neg (by simp)]
      unfold plainStatement
      rw [Paired.run_get, bracket]
      unfold operandStatement
      rw [Paired.run_get, if_neg (by simp [startsOperand, bracket, IntrinsicType.ofCastKind?,
        IntrinsicType.ofKind?])]
    unfold listedStatement
    rw [Paired.run_get, inside, line, if_neg (by simp), Paired.run_moving, first]
    exact ⟨_, rfl⟩

-- Statements in a list

theorem skipStatement_moves_tracks {g : Unit → TokenKind → Prop} (near : Paired c m (k + 1) X Y)
    (goesOn : X.atStatementEnd = false) :
    Tracked c g (Paired c m k) skipStatement skipStatement X Y := by
  have inside : X.kind.endsLine = false := by
    refine near.kind_cases.resolve_right fun ends => ?_
    rcases ends with ends | ends <;> simp [ParseState.atStatementEnd, ends] at goesOn
  obtain ⟨next, moved, -, -⟩ := near.advanced inside
  obtain ⟨-, fewer, fewer'⟩ := near.advance inside
  obtain ⟨n, left⟩ : ∃ n, X.remaining = n + 1 := ⟨X.remaining - 1, by omega⟩
  obtain ⟨n', left'⟩ : ∃ n, Y.remaining = n + 1 := ⟨Y.remaining - 1, by omega⟩
  obtain ⟨after, paced⟩ := next.passed (fun s => !s.atStatementEnd)
    (fun X Y twin => by rw [twin.atStatementEnd])
    (fun X ends => by rcases ends with ends | ends <;> simp [ParseState.atStatementEnd, ends])
    (show _ ≤ n by omega) (show _ ≤ n' by omega)
  have first {s : ParseState} {n : Nat} (left : s.remaining = n + 1)
      (goesOn : s.atStatementEnd = false) :
      (skipStatement.run s) = ((), s.advance.advanceWhile (fun s => !s.atStatementEnd) n) := by
    show ((), s.advanceWhile _ s.remaining) = _
    rw [left, ParseState.advanceWhile, if_pos (by rw [goesOn]; rfl)]
  intro _
  refine ⟨rfl, ?_, ?_⟩
  all_goals rw [first left goesOn, first left' (near.toTwin.atStatementEnd.trans goesOn)]
  · exact after
  · exact moved.trans paced

theorem misplacedHeading_tracks {g : Statement → TokenKind → Prop} (near : Paired c m (k + 1) X Y)
    (heading : X.lineStart = .heading) :
    Tracked c g (Loose c k) misplacedHeading misplacedHeading X Y := by
  have goesOn := atStatementEnd_of_heading heading
  have inside : X.kind.endsLine = false := by
    refine near.kind_cases.resolve_right fun ends => ?_
    rcases ends with ends | ends <;> simp [ParseState.atStatementEnd, ends] at goesOn
  refine near.beginConstruct fun near => near.peekInside inside ?_
  refine near.report (fun _ => rfl) fun X' Y' same near => ?_
  have heading : X'.lineStart = .heading := by
    rw [ParseState.lineStart, same]
    exact heading
  refine (skipStatement_moves_tracks near (atStatementEnd_of_heading heading)).bind
    fun _ X Y near => ?_
  exact (near.spanFrom rfl).bind fun span X Y near => .pure near.loose rfl

theorem listedStatement_tracks (loops : c.loops) (agree : r.Agree c (k + 1) r')
    (bodies : b.Agree c k b') (near : Loose c (k + 1) X Y) (inside : X.kind.endsLine = false) :
    Tracked c (fun s _ => s.Firm) (Loose c k) (listedStatement r b) (listedStatement r' b')
      X Y := by
  refine Paired.get ?_
  rw [near.toKin.inProcedure, near.lineStart]
  split
  next misplaced =>
    exact misplacedHeading_tracks near (beq_iff_eq.1 (Bool.and_eq_true_iff.1 misplaced).2)
  next =>
    exact near.moving inside (statement_tracks loops agree bodies near (near.current_eq inside))
      fun _ firm => firm

-- Lists

/-- The statements of a list stand by themselves, and the first text does not end with them. -/
def ListFirm (found : List Statement × List Location × Option Terminator) (after : TokenKind) :
    Prop :=
  (∀ s ∈ found.1, s.Firm) ∧ (found.2.2.isSome = true ∨ after ≠ .endOfStream)

theorem not_firm_bad (span : Span) : ¬ (Statement.bad span).Firm := by
  intro firm
  cases (Node.everywhere_iff.1 firm.alone).1.1

theorem statementStops_track (loops : c.loops) (goesOn : c.IsCut → s.kind ≠ .endOfStream)
    (closed : Closed c s) (step : Parse ListStep)
    (member : step ∈ [stopAtPendingNext, stopAtTerminator, stopAtMember]) (X Y : ParseState)
    (stood : Stood c k s X Y) :
    Tracked c (fun _ _ => True) (Stood c k s) step step X Y := by
  simp only [List.mem_cons, List.not_mem_nil, or_false] at member
  rcases member with rfl | rfl | rfl
  · exact stopAtPendingNext_tracks loops stood
  · exact stopAtTerminator_tracks stood goesOn
  · exact stopAtMember_tracks stood closed

theorem run_statementsWithin_stop {n : Nat} {stop : Option Terminator} {t : ParseState}
    (stops : (firstStop [stopAtPendingNext, stopAtTerminator, stopAtMember]).run
      ((separators r).run s).2 = (.stop stop, t)) :
    (statementsWithin r b (n + 1)).run s = (([], ((separators r).run s).1, stop), t) := by
  rw [statementsWithin, Paired.run_bind, Paired.run_bind, stops]
  rfl

theorem run_statementsWithin_goOn {n : Nat} {t : ParseState}
    (goesOn : (firstStop [stopAtPendingNext, stopAtTerminator, stopAtMember]).run
      ((separators r).run s).2 = (.goOn, t)) :
    (statementsWithin r b (n + 1)).run s =
      let first := (listedStatement r b).run t
      let rest := (statementsWithin r b n).run first.2
      ((first.1 :: rest.1.1, ((separators r).run s).1 ++ rest.1.2.1, rest.1.2.2), rest.2) := by
  rw [statementsWithin, Paired.run_bind, Paired.run_bind, goesOn]
  rfl

/-- The statements of a list.  The induction is on the tokens that are left: each statement takes
one at least. -/
theorem statementsWithin_tracks {n n' : Nat} (readers : Readers c (k + 1) r r')
    (bodies : b.Agree c k b') (before : Before c ⟨n, n'⟩ X Y) (below : Bound.mk n n' ≤ k + 1) :
    Tracked c ListFirm (Loose c ⟨n, n'⟩) (statementsWithin r b n) (statementsWithin r' b' n')
      X Y := by
  induction n generalizing n' X Y with
  | zero => exact absurd before.bound (Nat.not_lt_zero _)
  | succ n ih =>
    cases n' with
    | zero => exact absurd before.bound' (Nat.not_lt_zero _)
    | succ n' =>
    have fewer := Bound.le_of_succ_le_succ below
    have readers' := readers.mono below
    obtain ⟨Z, j, meets⟩ := separatorsWithin_meets readers' before.toArrived before.bound
      before.bound' (Nat.le_refl _) (Nat.le_refl _)
    by_cases goesOn : c.IsCut → ((separators r).run X).2.kind ≠ .endOfStream
    case neg =>
      -- the first text ends within the list
      obtain ⟨cut, ends⟩ := Classical.not_imp.1 goesOn
      have settles := readers.cut cut
      obtain ⟨stop, t, stops, ends, settled⟩ := statementStops_of_ended (Classical.not_not.1 ends)
      intro fair
      have firm := (fair settles).2
      rw [run_statementsWithin_stop stops, settled (meets.near.settled settles)] at firm
      exact absurd ends (firm.resolve_left (by simp))
    obtain ⟨⟨colons, after, paced⟩, unbroken, -⟩ := separators_tracks readers' before goesOn
    by_cases closed : Closed c ((separators r).run X).2
    case neg =>
      -- the first text ends within attributes
      obtain ⟨cut, open_⟩ := Classical.not_imp.1 closed
      obtain ⟨inside, unclosed⟩ := Classical.not_imp.1 open_
      have settles := readers.cut cut
      obtain ⟨stops, span, bad⟩ := listed_of_open (r := r) (b := b) inside (after.settled settles)
        (Classical.not_not.1 unclosed)
      intro fair
      have firm := (fair settles).1
      rw [run_statementsWithin_goOn stops] at firm
      exact absurd (bad ▸ firm _ List.mem_cons_self) (not_firm_bad span)
    rcases here : (separators r).run X with ⟨places, X'⟩
    rcases there : (separators r').run Y with ⟨places', Y'⟩
    rw [here, there] at colons after paced
    rw [here] at goesOn unbroken closed
    obtain rfl : places' = relocate c.carry places := colons
    refine .step here there paced ?_
    have decided := firstStop_tracks ⟨after, rfl, rfl⟩
      (statementStops_track readers.loops goesOn closed)
    refine decided.bindWhen (fun _ _ _ => trivial) fun step X Y run stood => ?_
    cases step with
    | stop stop =>
      refine .pure stood.toPaired ?_
      cases stop <;> rfl
    | goOn =>
      have inside : X.kind.endsLine = false := by
        rw [ParseState.kind_of_ahead stood.same]
        refine after.kind_cases.resolve_right fun ends => ?_
        rcases ends with ends | breaks
        · obtain ⟨stop, t, stops, -⟩ := statementStops_of_ended ends
          rw [run] at stops
          cases stops
        · exact unbroken breaks
      refine (listedStatement_tracks readers.loops readers'.agree (bodies.mono fewer)
        (k := ⟨n, n'⟩) stood.toPaired inside).bindWhen
        (fun first s firm => firm.1 first List.mem_cons_self) fun first X Y _ near => ?_
      refine (ih near.before (Bound.le_of_succ below)).bindWhen (fun rest s firm => ?_)
        fun rest X Y _ near => near.up.pure ?_
      · exact ⟨fun s member => firm.1 s (List.mem_cons_of_mem _ member), firm.2⟩
      · exact Prod.ext rfl (Prod.ext (relocate_append c.carry places rest.2.1).symm rfl)

theorem run_listSpan_kind {α : Type} (span : α → Span) (items : List α) (s : ParseState) :
    ((listSpan span items).run s).2.kind = s.kind := by
  unfold listSpan
  split <;> rfl

theorem listSpan_tracks {α : Type} [Relocate α] {span : α → Span} {g : Span → TokenKind → Prop}
    (near : Paired c m k X Y) (items : List α)
    (spans : ∀ a, span (relocate c.carry a) = relocate c.carry (span a)) :
    Tracked c g (Paired c m k) (listSpan span items) (listSpan span (relocate c.carry items))
      X Y := by
  unfold listSpan
  rw [head?_relocate, getLast?_relocate]
  rcases items.head? with _ | first
  · exact near.placeholder.bind fun place X Y near => near.pure rfl
  rcases items.getLast? with _ | last
  · exact near.placeholder.bind fun place X Y near => near.pure rfl
  · refine near.pure ?_
    show (span (relocate c.carry first)).merge (span (relocate c.carry last)) = _
    rw [spans, spans, Seam.merge_carry]

theorem statements_tracks (readers : Readers c (k + 1) r r') (bodies : b.Agree c k b')
    (before : Before c (k + 1) X Y) :
    Tracked c BodyFirm (Loose c (k + 1)) (statements r b) (statements r' b') X Y := by
  refine Paired.get ((statementsWithin_tracks readers bodies before.fresh before.fresh_le).bindWhen
    (fun found s firm => ?_) ?_)
  · obtain ⟨items, colons, stop⟩ := found
    refine ⟨firm.1, firm.2.imp_right fun goesOn => ?_⟩
    rwa [← run_listSpan_kind Statement.span items s]
  · rintro ⟨items, colons, stop⟩ X' Y' - after
    have moved : relocate c.carry (items, colons, stop) =
        (relocate c.carry items, relocate c.carry colons, stop) :=
      Prod.ext rfl (relocate_body c.carry colons stop)
    rw [moved]
    refine (listSpan_tracks (after.mono before.fresh_le) items (Statement.span_relocate _)).bind
      fun span X Y near => near.pure ?_
    rw [relocate_body]
    rfl

theorem atLineIfEnd_eq (twin : Twin c X Y) : atLineIfEnd Y = atLineIfEnd X := by
  unfold atLineIfEnd
  rcases twin.kind_cases with inside | ends | breaks
  · rw [twin.kind_eq inside, (twin.kindAfter inside).beq rfl]
  · rcases twin.endsToo ends with ends' | breaks <;> simp [*]
  · simp [twin.kind_eq_of_break breaks, breaks]

theorem lineWithin_tracks {n n' : Nat} (loops : c.loops) (agree : r.Agree c (k + 1) r')
    (bodies : b.Agree c k b') (near : Loose c ⟨n, n'⟩ X Y) (below : Bound.mk n n' ≤ k + 1) :
    Tracked c (fun found _ => ∀ s ∈ found.1, s.Firm) (Loose c ⟨n, n'⟩) (lineWithin r b n)
      (lineWithin r' b' n') X Y := by
  induction n generalizing n' X Y with
  | zero => exact absurd near.bound (Nat.not_lt_zero _)
  | succ n ih =>
    cases n' with
    | zero => exact absurd near.bound' (Nat.not_lt_zero _)
    | succ n' =>
    have fewer := Bound.le_of_succ_le_succ below
    refine Paired.eatPlace (k := ⟨n, n'⟩) near rfl (fun _ => ?_) fun _ X Y near => ?_
    · refine Paired.get ?_
      rw [atLineIfEnd_eq near.toTwin]
      split
      · exact near.pure rfl
      next goesOn =>
        have inside : X.kind.endsLine = false := by
          refine near.kind_cases.resolve_right fun ends => goesOn ?_
          rcases ends with ends | ends <;> simp [atLineIfEnd, ends]
        have first := statement_tracks (k := ⟨n, n'⟩) loops (agree.mono below) (bodies.mono fewer)
          near (near.current_eq inside)
        refine (near.moving (k := ⟨n, n'⟩) (h := fun s _ => s.Firm) inside first
          fun _ firm => firm).bindWhen (fun first s firm => firm first List.mem_cons_self)
          fun first X Y _ near => ?_
        refine (ih near (Bound.le_of_succ below)).bindWhen
          (fun rest s firm s' member => firm s' (List.mem_cons_of_mem _ member)) ?_
        exact fun rest X Y _ near => near.up.pure rfl
    · refine (ih near (Bound.le_of_succ below)).bindWhen (fun found s firm => firm) ?_
      exact fun found X Y _ near => near.up.pure rfl

theorem lineStatements_tracks (loops : c.loops) (agree : r.Agree c (k + 1) r')
    (bodies : b.Agree c k b') (near : Loose c (k + 1) X Y) :
    Tracked c (fun list _ => list.Firm) (Loose c (k + 1)) (lineStatements r b)
      (lineStatements r' b') X Y := by
  refine Paired.get ((lineWithin_tracks loops agree bodies near.fresh near.fresh_le).bindWhen
    (fun found s firm => firm) ?_)
  rintro ⟨items, colons⟩ X' Y' - after
  exact (listSpan_tracks (after.mono near.fresh_le) items (Statement.span_relocate _)).bind
    fun span X Y near => near.pure rfl

theorem run_checkOrder (container : Container) (order : DeclarationOrder) (s : ParseState) :
    (checkOrder container order).run s =
      ((order.after container s.kind (Lookahead.atFileAttribute s.ahead)).2,
        ((order.after container s.kind (Lookahead.atFileAttribute s.ahead)).1.elim s
          fun problem => s.report problem s.current.span)) := by
  unfold checkOrder
  rw [Paired.run_get]
  rcases order.after container s.kind (Lookahead.atFileAttribute s.ahead) with ⟨_ | problem, next⟩
  all_goals rfl

/-- The place of a declaration is checked where it begins; a diagnostic that keeps others back is
there. -/
theorem checkOrder_tracks (near : Near c o k X Y) (inside : X.kind.endsLine = false)
    (begun : X.suppressed = false) (container : Container) (order : DeclarationOrder) :
    Tracked c (fun _ _ => True) (fun X' Y' => Near c o k X' Y' ∧ X'.ahead = X.ahead ∧
        (X'.suppressed = true → X'.diagnostics ≠ []))
      (checkOrder container order) (checkOrder container order) X Y := by
  have current := near.current_eq inside
  have marked := near.ahead.atFileAttribute
  intro _
  refine ⟨?_, ?_, ?_⟩
  all_goals rw [run_checkOrder, run_checkOrder, near.kind_eq inside, marked]
  · rfl
  · rcases (order.after container X.kind (Lookahead.atFileAttribute X.ahead)).1 with _ | problem
    · exact ⟨near, rfl, fun suppressed => by cases begun.symm.trans suppressed⟩
    · refine ⟨near.reports_report fun _ => ⟨rfl, congrArg Token.span current⟩,
        ParseState.ahead_report .., fun _ => ?_⟩
      show (X.report problem X.current.span).diagnostics ≠ []
      rw [ParseState.report_of_not_suppressed begun]
      exact List.append_ne_nil_of_right_ne_nil _ (List.cons_ne_nil _ _)
  · rcases (order.after container X.kind (Lookahead.atFileAttribute X.ahead)).1 with _ | problem
    · exact .refl X Y
    · exact .standing (ParseState.ahead_report ..) (ParseState.ahead_report ..)

/-- The declarations of a list stand by themselves, and the list ends at a terminator. -/
def DeclarationsFirm (container : Container) (found : List Declaration × Option Terminator) :
    Prop :=
  (∀ d ∈ found.1, d.FirmIn container) ∧ found.2.isSome = true

theorem run_declarationsWithin_stop {n : Nat} {container : Container} {order : DeclarationOrder}
    {stop : Option Terminator} {t : ParseState}
    (stops : (firstStop [stopAtTerminator, stopLeaving container]).run ((separators r).run s).2 =
      (.stop stop, t)) :
    (declarationsWithin r b container (n + 1) order).run s = (([], stop), t) := by
  rw [declarationsWithin, Paired.run_bind, Paired.run_bind, stops]
  rfl

theorem declarationsWithin_of_ended {n : Nat} {container : Container} {order : DeclarationOrder}
    (ends : ((separators r).run s).2.kind = .endOfStream) :
    ((declarationsWithin r b container n order).run s).1.2 = none := by
  cases n with
  | zero => rfl
  | succ n =>
    have stops := declarationStops_of_ended ends container
    rw [run_declarationsWithin_stop (Prod.ext stops rfl)]

theorem separators_of_ended (ends : s.kind = .endOfStream) : (separators r).run s = ([], s) :=
  run_separatorsWithin_other (by simp [ends]) (by simp [ends]) (by simp [ends]) _

/-- A declaration that ends with the text is not moved on from. -/
theorem moving_of_ended {container : Container} (readers : Readers c (k + 1) r r')
    (bodies : b.Agree c k b') (near : Near c o (k + 1) X Y) (inside : X.kind.endsLine = false)
    (reported : X.suppressed = true → X.diagnostics ≠ []) (settles : c.settles)
    (ends : ((declaration r b container).run X).2.kind = .endOfStream) :
    ((moving (declaration r b container)).run X).2.kind = .endOfStream := by
  have wf : X.Wf :=
    { stream := near.stream
      behind := near.limit
      reported := reported
      pending := fun p left => by rw [near.settled settles] at left; cases left
      rest := fun p left => by rw [near.settled settles] at left; cases left }
  have after := (declaration_attempt readers.sound bodies.sound container wf
    (Nat.le_of_lt_succ near.bound)).wf.stream
  have none : ((declaration r b container).run X).2.remaining = 0 := by
    unfold ParseState.ahead at after
    unfold ParseState.remaining
    generalize ((declaration r b container).run X).2.following = rest at after
    cases after with
    | last => rfl
    | cons goesOn => exact absurd ends goesOn
  rw [Paired.run_moving, if_neg]
  · exact ends
  · rw [none]
    intro stuck
    rw [near.remaining_eq_zero_iff.1 stuck.symm] at inside
    cases inside

theorem declarationStops_track (goesOn : c.IsCut → s.kind ≠ .endOfStream) (container : Container)
    (step : Parse ListStep) (member : step ∈ [stopAtTerminator, stopLeaving container])
    (X Y : ParseState) (stood : Stood c k s X Y) :
    Tracked c (fun _ _ => True) (Stood c k s) step step X Y := by
  simp only [List.mem_cons, List.not_mem_nil, or_false] at member
  rcases member with rfl | rfl
  · exact stopAtTerminator_tracks stood goesOn
  · exact stopLeaving_tracks stood container

theorem declarationsWithin_tracks {n n' : Nat} (readers : Readers c (k + 1) r r')
    (bodies : b.Agree c k b') (before : Before c ⟨n, n'⟩ X Y) (below : Bound.mk n n' ≤ k + 1)
    (container : Container) (order : DeclarationOrder) :
    Tracked c (fun found _ => DeclarationsFirm container found) (Loose c ⟨n, n'⟩)
      (declarationsWithin r b container n order) (declarationsWithin r' b' container n' order)
      X Y := by
  induction n generalizing n' X Y order with
  | zero => exact absurd before.bound (Nat.not_lt_zero _)
  | succ n ih =>
    cases n' with
    | zero => exact absurd before.bound' (Nat.not_lt_zero _)
    | succ n' =>
    have fewer := Bound.le_of_succ_le_succ below
    have readers' := readers.mono below
    by_cases goesOn : c.IsCut → ((separators r).run X).2.kind ≠ .endOfStream
    case neg =>
      -- the first text ends within the list
      obtain ⟨cut, ends⟩ := Classical.not_imp.1 goesOn
      intro fair
      have firm := (fair (readers.cut cut)).2
      rw [declarationsWithin_of_ended (Classical.not_not.1 ends)] at firm
      cases firm
    obtain ⟨⟨colons, after, paced⟩, unbroken, -⟩ := separators_tracks readers' before goesOn
    rcases here : (separators r).run X with ⟨places, X'⟩
    rcases there : (separators r').run Y with ⟨places', Y'⟩
    rw [here, there] at after paced
    rw [here] at goesOn unbroken
    refine .step here there paced ?_
    have decided := firstStop_tracks ⟨after, rfl, rfl⟩ (declarationStops_track goesOn container)
    refine decided.bindWhen (fun _ _ _ => trivial) fun step X Y run stood => ?_
    cases step with
    | stop stop =>
      refine .pure stood.toPaired ?_
      cases stop <;> rfl
    | goOn =>
      have inside : X.kind.endsLine = false := by
        rw [ParseState.kind_of_ahead stood.same]
        refine after.kind_cases.resolve_right fun ends => ?_
        rcases ends with ends | breaks
        · have stops := declarationStops_of_ended ends container
          rw [run] at stops
          cases stops
        · exact unbroken breaks
      refine stood.toPaired.beginConstruct fun near => ?_
      refine (checkOrder_tracks near inside rfl container order).bind ?_
      rintro order X' Y' ⟨near, same, reported⟩
      have inside : X'.kind.endsLine = false := ParseState.kind_of_ahead same ▸ inside
      have first := declaration_tracks (k := ⟨n, n'⟩) readers'.agree (bodies.mono fewer) near
        (near.current_eq inside) container
      refine (near.moving (k := ⟨n, n'⟩)
        (h := fun d after => d.FirmIn container ∧ after ≠ .endOfStream) inside first
        fun settles firm => ?_).bindWhen (fun first s firm => ?_) fun first X Y _ near => ?_
      · refine firm.1.imp_right fun below => ⟨below.1, below.2, .inr fun ends => firm.2 ?_⟩
        exact moving_of_ended readers' (bodies.mono fewer) near inside reported settles ends
      · refine ⟨firm.1 first List.mem_cons_self, fun ends => ?_⟩
        have closed : ((declarationsWithin r b container n order).run s).1.2.isSome = true := firm.2
        rw [declarationsWithin_of_ended (by rw [separators_of_ended ends]; exact ends)] at closed
        cases closed
      · refine (ih near.before (Bound.le_of_succ below) order).bindWhen (fun rest s firm => ?_)
          fun rest X Y _ near => near.up.pure rfl
        exact ⟨fun d member => firm.1 d (List.mem_cons_of_mem _ member), firm.2⟩

theorem declarations_tracks (readers : Readers c (k + 1) r r') (bodies : b.Agree c k b')
    (before : Before c (k + 1) X Y) (container : Container) :
    Tracked c (fun body _ => body.1.FirmIn container ∧ body.2.isSome = true) (Loose c (k + 1))
      (declarations r b container) (declarations r' b' container) X Y := by
  refine Paired.get ((declarationsWithin_tracks readers bodies before.fresh before.fresh_le container
    .initial).bindWhen (fun found s firm => firm) ?_)
  rintro ⟨items, stop⟩ X' Y' - after
  rw [relocate_body]
  refine (listSpan_tracks (after.mono before.fresh_le) items (Declaration.span_relocate _)).bind
    fun span X Y near => near.pure ?_
  rw [relocate_body]
  rfl

-- Where a list has stopped

theorem run_stopUnclosed_ne {t : ParseState} {x : Terminator} :
    stopUnclosed.run s ≠ (.stop (some x), t) := by
  intro stops
  have unclosed := (run_stopUnclosed s).1
  rw [stops] at unclosed
  cases unclosed

theorem stopAtPendingNext_stands {t : ParseState} {x : Terminator}
    (stops : stopAtPendingNext.run s = (.stop (some x), t)) : t.StandsAt x := by
  unfold stopAtPendingNext at stops
  rw [Paired.run_get] at stops
  split at stops
  next => cases stops
  next left _ =>
    split at stops
    · cases stops
      exact .inr ⟨rfl, by rw [left]; rfl⟩
    split at stops
    · exact absurd stops run_stopUnclosed_ne
    · cases stops
  next => cases stops

theorem stopAtTerminator_stands {t : ParseState} {x : Terminator}
    (stops : stopAtTerminator.run s = (.stop (some x), t)) : t.StandsAt x := by
  unfold stopAtTerminator at stops
  rw [Paired.run_get] at stops
  split at stops
  · exact absurd stops run_stopUnclosed_ne
  split at stops
  next starts _ =>
    split at stops
    · cases stops
      exact .inl starts
    split at stops
    · exact absurd stops run_stopUnclosed_ne
    · cases stops
  next => cases stops

theorem stopAtMember_stands {t : ParseState} {x : Terminator}
    (stops : stopAtMember.run s = (.stop (some x), t)) : t.StandsAt x := by
  unfold stopAtMember at stops
  rw [Paired.run_get] at stops
  split at stops
  · exact absurd stops run_stopUnclosed_ne
  · cases stops

theorem stopLeaving_stands {container : Container} {t : ParseState} {x : Terminator}
    (stops : (stopLeaving container).run s = (.stop (some x), t)) : t.StandsAt x := by
  unfold stopLeaving at stops
  rw [Paired.run_get] at stops
  split at stops
  · exact absurd stops run_stopUnclosed_ne
  · cases stops

theorem firstStop_stands {steps : List (Parse ListStep)} {t : ParseState} {x : Terminator}
    (each : ∀ step ∈ steps, ∀ s t, step.run s = (.stop (some x), t) → t.StandsAt x)
    (stops : (firstStop steps).run s = (.stop (some x), t)) : t.StandsAt x := by
  induction steps generalizing s with
  | nil => cases stops
  | cons step rest ih =>
    rw [firstStop, Paired.run_bind] at stops
    rcases first : step.run s with ⟨_ | stop, u⟩
    · rw [first] at stops
      exact ih (fun step member => each step (List.mem_cons_of_mem _ member)) stops
    · rw [first] at stops
      cases stops
      exact each step List.mem_cons_self s _ first

theorem statementsWithin_stands (n : Nat) (s : ParseState) (x : Terminator)
    (stops : ((statementsWithin r b n).run s).1.2.2 = some x) :
    ((statementsWithin r b n).run s).2.StandsAt x := by
  induction n generalizing s with
  | zero => cases stops
  | succ n ih =>
    rcases run : (firstStop [stopAtPendingNext, stopAtTerminator, stopAtMember]).run
        ((separators r).run s).2 with ⟨_ | stop, t⟩
    · rw [run_statementsWithin_goOn run] at stops ⊢
      exact ih _ stops
    · rw [run_statementsWithin_stop run] at stops ⊢
      obtain rfl : stop = some x := stops
      refine firstStop_stands (fun step member s t stops => ?_) run
      simp only [List.mem_cons, List.not_mem_nil, or_false] at member
      rcases member with rfl | rfl | rfl
      · exact stopAtPendingNext_stands stops
      · exact stopAtTerminator_stands stops
      · exact stopAtMember_stands stops

theorem run_listSpan {α : Type} (span : α → Span) (items : List α) {x : Terminator}
    (stands : s.StandsAt x) : ((listSpan span items).run s).2.StandsAt x := by
  unfold listSpan
  split
  · exact stands
  · exact stands

theorem statements_stands (r : Rules) (b : Bodies) : Stands (statements r b) := by
  intro s x stops
  exact run_listSpan _ _ (statementsWithin_stands (s.remaining + 1) s x stops)

theorem declarationsWithin_stands {container : Container} (n : Nat) (order : DeclarationOrder)
    (s : ParseState) (x : Terminator)
    (stops : ((declarationsWithin r b container n order).run s).1.2 = some x) :
    ((declarationsWithin r b container n order).run s).2.StandsAt x := by
  induction n generalizing s order with
  | zero => cases stops
  | succ n ih =>
    rcases run : (firstStop [stopAtTerminator, stopLeaving container]).run
        ((separators r).run s).2 with ⟨_ | stop, t⟩
    · have goesOn : (declarationsWithin r b container (n + 1) order).run s =
          (beginConstruct >>= fun _ => checkOrder container order >>= fun order =>
            moving (declaration r b container) >>= fun first =>
            declarationsWithin r b container n order >>= fun found =>
            pure (first :: found.1, found.2)).run t := by
        rw [declarationsWithin, Paired.run_bind, Paired.run_bind, run]
      rw [goesOn] at stops ⊢
      exact ih _ _ stops
    · rw [run_declarationsWithin_stop run] at stops ⊢
      obtain rfl : stop = some x := stops
      refine firstStop_stands (fun step member s t stops => ?_) run
      simp only [List.mem_cons, List.not_mem_nil, or_false] at member
      rcases member with rfl | rfl
      · exact stopAtTerminator_stands stops
      · exact stopLeaving_stands stops

theorem declarations_stands (r : Rules) (b : Bodies) (container : Container) :
    Stands (declarations r b container) := by
  intro s x stops
  exact run_listSpan _ _ (declarationsWithin_stands (s.remaining + 1) .initial s x stops)

end Parse

/-- Bodies nested up to any depths are read alike where both depths suffice. -/
theorem Bodies.agree_ofDepth {c : Seam} {r r' : Rules} {k : Bound} (readers : Readers c k r r')
    (isScript : Bool) {n m : Nat} (enough : k ≤ ⟨n, m⟩) :
    (ofDepth isScript r n).Agree c k (ofDepth isScript r' m) := by
  have sound := (ofDepth_sound readers.sound isScript n).mono enough.1
  induction n generalizing k m with
  | zero =>
    have none {X Y : ParseState} {p : Prop} (near : Loose c k X Y) : p :=
      absurd (Nat.lt_of_lt_of_le near.bound enough.1) (Nat.not_lt_zero _)
    exact ⟨by cases m <;> rfl, fun _ _ => none, fun _ _ => none, fun _ _ _ => none,
      fun _ _ stops => (nomatch stops), fun _ _ _ stops => (nomatch stops), sound⟩
  | succ n ih =>
    have stands := Parse.statements_stands r (ofDepth isScript r n)
    have standsToo := Parse.declarations_stands r (ofDepth isScript r n)
    cases m with
    | zero =>
      have none {X Y : ParseState} {p : Prop} (near : Loose c k X Y) : p :=
        absurd (Nat.lt_of_lt_of_le near.bound' enough.2) (Nat.not_lt_zero _)
      exact ⟨rfl, fun _ _ => none, fun _ _ => none, fun _ _ _ => none, stands, standsToo, sound⟩
    | succ m =>
      have step {X Y : ParseState} {p : Prop} (near : Loose c k X Y)
          (next : ∀ j : Bound, k = j + 1 →
            (ofDepth isScript r n).Agree c j (ofDepth isScript r' m) → p) : p := by
        obtain ⟨here, there⟩ := k
        cases here with
        | zero => exact absurd near.bound (Nat.not_lt_zero _)
        | succ here =>
          cases there with
          | zero => exact absurd near.bound' (Nat.not_lt_zero _)
          | succ there =>
            have fewer := Bound.le_of_succ_le_succ (k := ⟨n, m⟩) enough
            exact next ⟨here, there⟩ rfl (ih (readers.mono (Bound.le_succ ⟨here, there⟩)) fewer
              ((ofDepth_sound readers.sound isScript n).mono fewer.1))
      refine ⟨rfl, fun X Y near => ?_, fun X Y near => ?_, fun container X Y near => ?_, stands,
        standsToo, sound⟩
      · exact step near fun j same bodies => by
          subst same
          exact Parse.statements_tracks readers bodies near.before
      · exact step near fun j same bodies => by
          subst same
          exact Parse.lineStatements_tracks readers.loops readers.agree bodies near
      · exact step near fun j same bodies => by
          subst same
          exact Parse.declarations_tracks readers bodies near.before container

end VisualBasic
