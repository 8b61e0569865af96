import VisualBasic.Parse.Body
import VisualBasic.Proofs.Comma.Declaration
import VisualBasic.Proofs.Comma.Directive

/-!
Lists of statements and declarations write their items, and so do bodies of any depth.  What a list
stops at writes nothing.
-/

set_option autoImplicit false

namespace VisualBasic

namespace Parse

variable {α : Type} {p : Parse α} {nodes : α → List Node} {lists : α → List Punctuation} {r : Rules}
  {b : Bodies}

theorem moving_writes (writes : Writes p nodes lists) : Writes (moving p) nodes lists := by
  refine fun s sane => .get ((writes s sane).bind fun a t so => .get ?_)
  split
  · exact so.onto so.sane.advance
  · exact so

-- Where a list ends

theorem stopUnclosed_proceeds : Proceeds stopUnclosed := by
  refine .bind .get fun s => ?_
  split
  · exact .bind (.bind .beginConstruct fun _ => .report _ _) fun _ => .pure
  · exact .pure

theorem stopAtTerminator_proceeds : Proceeds stopAtTerminator := by
  refine .bind .get fun s => .ite stopUnclosed_proceeds ?_
  split
  · exact .ite .pure (.ite stopUnclosed_proceeds .pure)
  · exact .pure

theorem dropPendingNext_proceeds (pending : PendingNext) : Proceeds (dropPendingNext pending) := by
  have drop : Proceeds (modify fun s => { s with pendingNext := none }) :=
    fun s sane => sane.setPending none nofun
  exact drop.bind fun _ => .bind .beginConstruct fun _ => .report _ _

theorem stopAtPendingNext_proceeds : Proceeds stopAtPendingNext := by
  refine .bind .get fun s => ?_
  split
  · exact .pure
  · refine .ite .pure (.ite stopUnclosed_proceeds ?_)
    exact .bind (dropPendingNext_proceeds _) fun _ => .pure
  · exact .bind (dropPendingNext_proceeds _) fun _ => .pure

theorem stopAtMember_proceeds : Proceeds stopAtMember :=
  .bind .get fun _ => .ite stopUnclosed_proceeds .pure

theorem stopLeaving_proceeds (container : Container) : Proceeds (stopLeaving container) :=
  .bind .get fun _ => .ite stopUnclosed_proceeds .pure

theorem firstStop_proceeds {steps : List (Parse ListStep)} (each : ∀ step ∈ steps, Proceeds step) :
    Proceeds (firstStop steps) := by
  induction steps with
  | nil => exact .pure
  | cons step rest ih =>
    refine .bind (each step List.mem_cons_self) fun found => ?_
    cases found with
    | goOn => exact ih fun p member => each p (List.mem_cons_of_mem _ member)
    | stop => exact .pure

theorem listSpan_proceeds (span : α → Span) (items : List α) : Proceeds (listSpan span items) := by
  unfold listSpan
  split
  · exact .pure
  · exact .bind .placeholder fun _ => .pure

theorem checkOrder_proceeds (container : Container) (order : DeclarationOrder) :
    Proceeds (checkOrder container order) := by
  refine .bind .get fun s => ?_
  split
  extract_lets rest
  split
  · exact .bind (.report _ _) fun _ => .pure
  · exact .bind .pure fun _ => .pure

-- Single statements

theorem badStatement_writes : WritesStatement badStatement := by
  refine fun s sane => .here (((Writ.refl sane).pass (.reportUnexpected _)).bind fun _ t so => ?_)
  exact (so.pass (.resync _)).bind fun _ u so => so.finishItem rfl rfl rfl

theorem misplacedHeading_writes : WritesStatement misplacedHeading := by
  intro s sane
  have begun := (Writ.refl sane).onto sane.begin
  refine .beginConstruct (.peek ((begun.pass (.report _ _)).bind fun _ t so => ?_))
  exact (so.pass .skipStatement).bind fun _ u so => so.finishItem rfl rfl rfl

variable (rules : r.Punctuates) (bodies : b.Punctuates)
include rules

theorem operandStatement_writes : WritesStatement (operandStatement r) := by
  refine fun s sane => .get ?_
  split
  · exact assignmentOrCall_writes rules s sane
  · exact badStatement_writes s sane

include bodies

theorem keywordStatement_writes (keyword : Keyword) :
    WritesStatement (keywordStatement r b keyword) := by
  unfold keywordStatement
  split
  · exact localDeclaration_writes rules
  · exact localDeclaration_writes rules
  · exact localDeclaration_writes rules
  · exact callStatement_writes rules
  · exact keywordAssignment_writes rules
  · exact keywordAssignment_writes rules
  · exact goToStatement_writes
  · exact obsoleteJump_writes
  · exact exitStatement_writes
  · exact continueStatement_writes
  · exact stopStatement_writes
  · exact endProgram_writes
  · exact optionalOperand_writes rules (.inl rfl)
  · exact optionalOperand_writes rules (.inr rfl)
  · exact raiseError_writes rules
  · exact raiseEvent_writes rules
  · exact handlerStatement_writes rules true
  · exact handlerStatement_writes rules false
  · exact onErrorStatement_writes
  · exact resumeStatement_writes
  · exact reDimStatement_writes rules
  · exact eraseStatement_writes rules
  · exact ifStatement_writes rules bodies
  · exact doBlock_writes rules bodies
  · exact forStatement_writes rules bodies
  · exact whileBlock_writes rules bodies
  · exact objectBlock_writes rules bodies _
  · exact objectBlock_writes rules bodies _
  · exact usingBlock_writes rules bodies
  · exact tryBlock_writes rules bodies
  · exact selectBlock_writes rules bodies
  · exact operandStatement_writes rules

theorem plainStatement_writes : WritesStatement (plainStatement r b) := by
  refine fun s sane => .get ?_
  split
  · split
    · exact .read (.pure (nameLabel_writ (.refl sane)))
    · split
      · exact midAssignment_writes rules s sane
      · exact assignmentOrCall_writes rules s sane
  · exact lineNumber_writes s sane
  · exact keywordStatement_writes rules bodies _ s sane
  · exact operandStatement_writes rules s sane

theorem statement_writes : WritesStatement (statement r b) := by
  intro s sane
  have begun := (Writ.refl sane).onto sane.begin
  refine .beginConstruct (.get ?_)
  split
  next x _ => exact begun.part (strayTerminator_writes rules x)
  next =>
    split
    · exact (begun.part (declaration_writes rules bodies .script)).bind fun found t so => so
    · exact begun.part (plainStatement_writes rules bodies)

theorem listedStatement_writes : WritesStatement (listedStatement r b) := by
  refine fun s sane => .get ?_
  split
  · exact misplacedHeading_writes s sane
  · exact moving_writes (statement_writes rules bodies) s sane

-- Lists

theorem statementsWithin_writes (n : Nat) :
    Writes (statementsWithin r b n) (fun found => found.1.map Node.ofStatement) fun _ => [] := by
  induction n with
  | zero => exact fun s sane => .refl sane
  | succ n ih =>
    have stops : Proceeds (firstStop [stopAtPendingNext, stopAtTerminator, stopAtMember]) :=
      firstStop_proceeds (by
        simpa using ⟨stopAtPendingNext_proceeds, stopAtTerminator_proceeds, stopAtMember_proceeds⟩)
    intro s sane
    refine ((Writ.refl sane).pass (separators_proceeds rules)).bind fun colons t so => ?_
    refine (so.pass stops).bind fun step u so => ?_
    cases step with
    | stop => exact so
    | goOn =>
      refine (so.part (listedStatement_writes rules bodies)).bind fun first v so => ?_
      exact (so.part ih).bind fun rest w so => so

theorem statements_writes :
    Writes (statements r b) (fun found => Node.ofStatements found.1) fun _ => [] := by
  refine fun s sane => .get ((statementsWithin_writes rules bodies _ s sane).bind
    fun found t so => ?_)
  exact (so.pass (listSpan_proceeds _ _)).bind fun span u so => so

theorem lineWithin_writes (n : Nat) :
    Writes (lineWithin r b n) (fun found => found.1.map Node.ofStatement) fun _ => [] := by
  induction n with
  | zero => exact fun s sane => .refl sane
  | succ n ih =>
    refine fun s sane => ((Writ.refl sane).pass (.eatPlace _)).bind fun colon t so => ?_
    split
    · exact (so.part ih).bind fun rest u so => so
    · refine .get ?_
      split
      · exact so
      · refine (so.part (moving_writes (statement_writes rules bodies))).bind fun first u so => ?_
        exact (so.part ih).bind fun rest v so => so

theorem lineStatements_writes : Writes (lineStatements r b) Node.ofStatements fun _ => [] := by
  refine fun s sane => .get ((lineWithin_writes rules bodies _ s sane).bind fun found t so => ?_)
  exact (so.pass (listSpan_proceeds _ _)).bind fun span u so => so

theorem declarationsWithin_writes (container : Container) (n : Nat) (order : DeclarationOrder) :
    Writes (declarationsWithin r b container n order) (fun found => found.1.map Node.declaration)
      fun _ => [] := by
  induction n generalizing order with
  | zero => exact fun s sane => .refl sane
  | succ n ih =>
    have stops : Proceeds (firstStop [stopAtTerminator, stopLeaving container]) :=
      firstStop_proceeds (by
        simpa using ⟨stopAtTerminator_proceeds, stopLeaving_proceeds container⟩)
    intro s sane
    refine ((Writ.refl sane).pass (separators_proceeds rules)).bind fun _ t so => ?_
    refine (so.pass stops).bind fun step u so => ?_
    cases step with
    | stop => exact so
    | goOn =>
      refine (so.pass .beginConstruct).bind fun _ v so => ?_
      refine (so.pass (checkOrder_proceeds _ _)).bind fun after w so => ?_
      refine (so.part (moving_writes (declaration_writes rules bodies container))).bind
        fun first x so => ?_
      exact (so.part (ih after)).bind fun rest y so => so

theorem declarations_writes (container : Container) :
    Writes (declarations r b container) (fun found => Node.ofDeclarations found.1) fun _ => [] := by
  refine fun s sane => .get ((declarationsWithin_writes rules bodies container _ _ s sane).bind
    fun found t so => ?_)
  exact (so.pass (listSpan_proceeds _ _)).bind fun span u so => so

end Parse

open Parse

/-- Bodies of any depth write what they give: what is nested deeper is left out. -/
theorem Bodies.ofDepth_punctuates {r : Rules} (rules : r.Punctuates) (isScript : Bool) (depth : Nat) :
    (Bodies.ofDepth isScript r depth).Punctuates := by
  induction depth with
  | zero =>
    have nothing {α : Type} {build : Location → α} {nodes : α → List Node}
        (none : ∀ place, nodes (build place) = []) :
        Writes (do return build (← placeholder)) nodes fun _ => [] := by
      intro s sane
      refine ((Writ.refl sane).pass .placeholder).bind fun place t so => .pure ?_
      rwa [none]
    exact ⟨nothing fun _ => rfl, nothing fun _ => rfl, fun _ => nothing fun _ => rfl⟩
  | succ depth ih =>
    exact ⟨statements_writes rules ih, lineStatements_writes rules ih, declarations_writes rules ih⟩

end VisualBasic
