import VisualBasic.Parse.Body
import VisualBasic.Proofs.Parse.Rule

/-!
Where statements and declarations end.  Every rule for one of them ends by looking for the end of a
statement and reports what stands in its way, whatever state it is run in.
-/

set_option autoImplicit false

namespace VisualBasic

namespace ParseState

/-- A statement can end here: before a separator, at the end of the stream, or before a
terminator. -/
def Ended (s : ParseState) : Prop :=
  s.current.isSeparator = true ∨ s.kind = .endOfStream ∨ s.terminator?.isSome = true

/-- A statement ends here, or what stands in its way has been reported. -/
def Ends (s : ParseState) : Prop := s.suppressed = true ∨ s.Ended

variable {s : ParseState}

theorem Ends.ended (ends : s.Ends) (wf : s.Wf) (clean : s.diagnostics = []) : s.Ended :=
  ends.resolve_left fun suppressed => wf.reported suppressed clean

theorem ended_of_atStatementEnd (ends : s.atStatementEnd = true) : s.Ended := by
  unfold atStatementEnd at ends
  split at ends
  next kind => exact .inl (by simp [Token.isSeparator, show s.current.kind = _ from kind])
  next kind => exact .inl (by simp [Token.isSeparator, show s.current.kind = _ from kind])
  next kind => exact .inr (.inl kind)
  next kind => exact .inr (.inr (by simp [terminator?, Lookahead.terminator?, kind]))
  next kind =>
    simp only [Bool.and_eq_true, beq_iff_eq] at ends
    exact .inr (.inr (by
      simp [terminator?, Lookahead.terminator?, kind, ends.2, BlockKind.ofEndKind?]))
  next => cases ends

theorem suppressed_report (s : ParseState) (problem : Problem) (span : Span) :
    (s.report problem span).suppressed = true := by
  unfold report
  split
  next suppressed => exact suppressed
  next => rfl

theorem suppressed_advanceWhile (test : ParseState → Bool) (n : Nat) (s : ParseState) :
    (s.advanceWhile test n).suppressed = s.suppressed := by
  induction n generalizing s with
  | zero => rfl
  | succ n ih =>
    unfold advanceWhile
    split
    · rw [ih, suppressed_advance]
    · rfl

theorem suppressed_resync (stops : List TokenKind) (s : ParseState) :
    (s.resync stops).suppressed = s.suppressed := by
  unfold resync
  split
  · rfl
  · rw [suppressed_advanceWhile, suppressed_advance]

end ParseState

/-- Nothing is asked of what follows the node: it has no end or it runs on. -/
def Node.IsLoose (n : Node) : Prop := n.unclosed ≠ [] ∨ n.RunsOn

/-- The statement is a block without an end. -/
def Statement.IsOpen (st : Statement) : Prop := (Node.ofStatement st).unclosed ≠ []

/-- The declaration is a block without an end. -/
def Declaration.IsOpen (d : Declaration) : Prop := (Node.declaration d).unclosed ≠ []

namespace Parse

/-- Wherever the rule is run, a statement ends behind it, or its result is an exception. -/
def Concludes {α : Type} (p : Parse α) (exempt : α → Prop) : Prop :=
  ∀ s, Ensures p s fun a t => exempt a ∨ t.Ends

namespace Concludes

variable {α β : Type} {p q : Parse α} {f : α → Parse β} {exempt : β → Prop}

theorem bind (rest : ∀ a, Concludes (f a) exempt) : Concludes (p >>= f) exempt :=
  fun _ => Ensures.any.bind fun a t _ => rest a t

theorem pure {b : β} (holds : exempt b) : Concludes (Pure.pure b) exempt :=
  fun _ => .inl holds

/-- What is made of a result does not move the parser. -/
theorem give {P : α → Prop} {g : α → β} (concludes : Concludes p P) (kept : ∀ a, P a → exempt (g a)) :
    Concludes (p >>= fun a => Pure.pure (g a)) exempt :=
  fun s => (concludes s).bind fun a _ ends => ends.imp_left (kept a)

/-- Nor does its span. -/
theorem span {P : α → Prop} {start : Location} {g : α → Span → β} (concludes : Concludes p P)
    (kept : ∀ a span, P a → exempt (g a span)) :
    Concludes (p >>= fun a => spanFrom start >>= fun span => Pure.pure (g a span)) exempt :=
  fun s => (concludes s).bind fun a _ ends => ends.imp_left (kept a _)

theorem branch {c : Prop} [Decidable c] {p q : Parse β} (first : c → Concludes p exempt)
    (second : ¬ c → Concludes q exempt) : Concludes (if c then p else q) exempt := by
  split
  next holds => exact first holds
  next fails => exact second fails

theorem choice {c : Prop} [Decidable c] (rest : ∀ a, Concludes (f a) exempt) :
    Concludes (if c then p >>= f else q >>= f) exempt :=
  .branch (fun _ => .bind rest) fun _ => .bind rest

theorem within {block : OpenBlock} {p : Parse β} (concludes : Concludes p exempt) :
    Concludes (Parse.within block p) exempt :=
  fun s => concludes { s with blocks := block :: s.blocks }

end Concludes

variable {r : Rules} {b : Bodies} {start : Location} {head : DeclarationHead}

theorem reportUnexpected_suppresses (problem : Problem) (s : ParseState) :
    Ensures (reportUnexpected problem) s fun _ t => t.suppressed = true :=
  s.suppressed_report _ _

theorem endStatement_concludes (start : Location) : Concludes (endStatement start) fun _ => False := by
  intro s
  refine .spanFrom (.atStatementEnd ?_)
  split
  next ends => exact .inr (.inr (s.ended_of_atStatementEnd ends))
  next =>
    refine (reportUnexpected_suppresses _ s).bind fun _ t suppressed => ?_
    exact .inr (.inl ((ParseState.suppressed_resync [] t).trans suppressed))

/-- A rule that ends with the span of a statement. -/
theorem concludes_of_endStatement {α : Type} {exempt : α → Prop} {build : Span → α} :
    Concludes (endStatement start >>= fun span => pure (build span)) exempt :=
  (endStatement_concludes start).give fun _ => False.elim

/-- A rule that gives up has reported why. -/
theorem concludes_of_report {α : Type} {exempt : α → Prop} {problem : Problem} {stops : List TokenKind}
    {build : Span → α} :
    Concludes (reportUnexpected problem >>= fun _ => resync stops >>= fun _ =>
      spanFrom start >>= fun span => pure (build span)) exempt :=
  fun s => (reportUnexpected_suppresses problem s).bind fun _ t suppressed =>
    .inr (.inl ((ParseState.suppressed_resync stops t).trans suppressed))

-- Simple statements

section

variable {exempt : Statement → Prop}

theorem goToStatement_concludes : Concludes goToStatement exempt :=
  .bind fun _ => .bind fun _ => concludes_of_endStatement

theorem exitStatement_concludes : Concludes exitStatement exempt :=
  .bind fun _ => .bind fun _ => concludes_of_endStatement

theorem continueStatement_concludes : Concludes continueStatement exempt :=
  .bind fun _ => .bind fun _ => concludes_of_endStatement

theorem stopStatement_concludes : Concludes stopStatement exempt :=
  .bind fun _ => concludes_of_endStatement

theorem endProgram_concludes : Concludes endProgram exempt := by
  refine .bind fun token s => .atStatementEnd ?_
  split
  next ends => exact .inr (.inr (s.ended_of_atStatementEnd ends))
  next =>
    refine (reportUnexpected_suppresses _ s).bind fun _ t suppressed => ?_
    exact .inr (.inl ((ParseState.suppressed_resync [] t).trans suppressed))

theorem optionalOperand_concludes (build : Option Expression → Span → Statement) :
    Concludes (optionalOperand r build) exempt :=
  .bind fun _ => .bind fun _ => .bind fun _ => concludes_of_endStatement

theorem raiseError_concludes : Concludes (raiseError r) exempt :=
  .bind fun _ => .bind fun _ => concludes_of_endStatement

theorem obsoleteJump_concludes : Concludes obsoleteJump exempt := by
  refine .bind fun token s => ?_
  have reported : Ensures (report .obsoleteGosub token.span) s fun _ t => t.suppressed = true :=
    s.suppressed_report _ _
  refine reported.bind fun _ t suppressed => .inr (.inl ?_)
  exact (ParseState.suppressed_advanceWhile _ _ _).trans ((t.suppressed_advance).trans suppressed)

theorem onErrorStatement_concludes : Concludes onErrorStatement exempt := by
  refine .bind fun token s => ?_
  have expected : Ensures (expect (.word .kwError) .expectedError) s fun found t =>
      found = none → t.suppressed = true := by
    refine Ensures.any.bind fun found t _ => ?_
    cases found with
    | none => exact fun _ => t.suppressed_report _ _
    | some _ => exact fun none => by cases none
  refine expected.bind fun found t suppressed => ?_
  cases found with
  | none => exact .inr (.inl ((ParseState.suppressed_resync [] t).trans (suppressed rfl)))
  | some _ => exact Concludes.bind (fun _ => concludes_of_endStatement) t

theorem resumeStatement_concludes : Concludes resumeStatement exempt :=
  .bind fun _ => .bind fun _ => concludes_of_endStatement

theorem assignmentOrCall_concludes : Concludes (assignmentOrCall r) exempt := by
  refine .bind fun target => .bind fun token => .branch (fun _ => ?_) fun _ => ?_
  · exact .bind fun _ => .bind fun _ => concludes_of_endStatement
  · split
    · exact .bind fun _ => .bind fun _ => concludes_of_endStatement
    · refine .bind fun ended => ?_
      extract_lets rest
      have last (found : Expression × Option Arguments) : Concludes (rest found) exempt :=
        concludes_of_endStatement
      exact .branch (fun _ => .bind last) fun _ => .bind last

theorem callStatement_concludes : Concludes (callStatement r) exempt :=
  .bind fun _ => .bind fun _ => concludes_of_endStatement

theorem keywordAssignment_concludes : Concludes (keywordAssignment r) exempt := by
  refine .bind fun _ => .bind fun target => .bind fun place => ?_
  extract_lets rest
  have last (equals : Location) : Concludes (rest equals) exempt :=
    .bind fun _ => concludes_of_endStatement
  cases place with
  | none => exact .bind last
  | some place => exact last place

theorem midAssignment_concludes : Concludes (midAssignment r) exempt :=
  .bind fun _ => .bind fun _ => .bind fun _ => .bind fun _ => .bind fun _ => .bind fun _ =>
    .bind fun _ => .bind fun _ => .bind fun _ => concludes_of_endStatement

theorem localDeclaration_concludes : Concludes (localDeclaration r) exempt :=
  .bind fun _ => .bind fun _ => .bind fun _ => .bind fun _ => concludes_of_endStatement

theorem raiseEvent_concludes : Concludes (raiseEvent r) exempt :=
  .bind fun _ => .bind fun _ => .bind fun _ => .bind fun _ => concludes_of_endStatement

theorem handlerStatement_concludes (adds : Bool) : Concludes (handlerStatement r adds) exempt :=
  .bind fun _ => .bind fun _ => .bind fun _ => .bind fun _ => concludes_of_endStatement

theorem reDimStatement_concludes : Concludes (reDimStatement r) exempt :=
  .bind fun _ => .bind fun _ => .bind fun _ => concludes_of_endStatement

theorem eraseStatement_concludes : Concludes (eraseStatement r) exempt :=
  .bind fun _ => .bind fun _ => concludes_of_endStatement

theorem badStatement_concludes : Concludes badStatement exempt :=
  .bind fun _ => concludes_of_report

theorem operandStatement_concludes : Concludes (operandStatement r) exempt :=
  .bind fun _ => .branch (fun _ => assignmentOrCall_concludes) fun _ => badStatement_concludes

end

-- The ends and parts of blocks

theorem endBlock_concludes (kind : BlockKind) : Concludes (endBlock kind) fun _ => False := by
  refine .bind fun first => ?_
  extract_lets rest
  have last : Concludes (rest ()) fun _ => False := concludes_of_endStatement
  exact .branch (fun _ => last) fun _ => .bind fun _ => last

/-- A block ends with a statement if it has an end. -/
theorem takeEnd_concludes (kind : BlockKind) (stop : Option Terminator) :
    Concludes (takeEnd kind stop) fun ending => ending = none := by
  refine .branch (fun _ => ?_) fun _ => .pure rfl
  exact .bind fun _ => (endBlock_concludes kind).give fun _ => False.elim

theorem loopLine_concludes : Concludes (loopLine r) fun _ => False :=
  .bind fun _ => .bind fun _ => concludes_of_endStatement

theorem nextLine_concludes : Concludes (nextLine r) fun _ => False := by
  refine .bind fun _ => .bind fun ended => ?_
  extract_lets rest
  have last (named : CommaList Expression) : Concludes (rest named) fun _ => False :=
    concludes_of_endStatement
  exact .branch (fun _ => .bind fun _ => .bind last) fun _ => .bind last

theorem wordLine_concludes : Concludes wordLine fun _ => False :=
  .bind fun _ => endStatement_concludes _

theorem elseIfLine_concludes : Concludes (elseIfLine r) fun _ => False := by
  refine .bind fun first => ?_
  extract_lets rest
  have last : Concludes (rest ()) fun _ => False :=
    .bind fun _ => .bind fun _ => .bind fun _ => concludes_of_endStatement
  exact .branch (fun _ => .bind fun _ => last) fun _ => last

theorem caseLine_concludes : Concludes (caseLine r) fun _ => False :=
  .bind fun _ => .bind fun _ => concludes_of_endStatement

theorem caseElseLine_concludes : Concludes caseElseLine fun _ => False :=
  .bind fun _ => .bind fun _ => endStatement_concludes _

theorem catchLine_concludes : Concludes (catchLine r) fun _ => False := by
  refine .bind fun _ => .bind fun _ => .bind fun name => ?_
  extract_lets rest
  have last (type : Option TypeName) : Concludes (rest type) fun _ => False :=
    .bind fun _ => concludes_of_endStatement
  exact .branch (fun _ => .bind last) fun _ => .bind last

theorem strayTerminator_concludes {exempt : Statement → Prop} (x : Terminator) :
    Concludes (strayTerminator r x) exempt := by
  refine .bind fun _ => .bind fun _ => ?_
  cases x with
  | endOf kind => exact (endBlock_concludes kind).give fun _ => False.elim
  | loop => exact loopLine_concludes.give fun _ => False.elim
  | next => exact nextLine_concludes.give fun _ => False.elim
  | elseIf => exact elseIfLine_concludes.give fun _ => False.elim
  | elsePart => exact wordLine_concludes.give fun _ => False.elim
  | case => exact caseLine_concludes.give fun _ => False.elim
  | caseElse => exact caseElseLine_concludes.give fun _ => False.elim
  | catchPart => exact catchLine_concludes.give fun _ => False.elim
  | finallyPart => exact wordLine_concludes.give fun _ => False.elim

-- Blocks

section

variable {α β : Type}

theorem lastPart_concludes (kind : BlockKind) (stop : Option Terminator) :
    Concludes (takeEnd kind stop >>= fun ending => pure (([] : List α), ending))
      fun found => found.2 = none :=
  (takeEnd_concludes kind stop).give fun _ none => none

theorem beginPart_concludes {f : Unit → Parse β} {exempt : β → Prop} {problem : Problem} {late : Bool}
    (concludes : Concludes (f ()) exempt) :
    Concludes (beginConstruct >>= fun _ =>
      if late then peek >>= fun token => report problem token.span >>= f else f ()) exempt :=
  .bind fun _ => .branch (fun _ => .bind fun _ => .bind fun _ => concludes) fun _ => concludes

theorem nextPart_concludes {rest : Option Terminator → Parse (List α × Option EndBlock)}
    (build : Statements → α)
    (concludes : ∀ stop, Concludes (rest stop) fun found => found.2 = none) :
    Concludes (b.statements >>= fun found => rest found.2 >>= fun others =>
      pure (build found.1 :: others.1, others.2)) fun found => found.2 = none :=
  .bind fun found => (concludes found.2).give fun _ none => none

end

theorem ifParts_concludes (n : Nat) (seenElse : Bool) (stop : Option Terminator) :
    Concludes (ifParts r b n seenElse stop) fun found => found.2 = none := by
  induction n generalizing seenElse stop with
  | zero => exact lastPart_concludes .ifBlock stop
  | succ n ih =>
    rcases stop with _ | x
    · exact lastPart_concludes .ifBlock none
    · cases x with
      | elseIf =>
        refine beginPart_concludes (.bind fun header => ?_)
        exact nextPart_concludes (fun body => .elseIf header body (header.span.merge body.span)) (ih _)
      | elsePart =>
        refine beginPart_concludes (.bind fun header => ?_)
        exact nextPart_concludes (fun body => .elsePart header body (header.merge body.span)) (ih _)
      | _ => exact lastPart_concludes .ifBlock _

theorem tryParts_concludes (n : Nat) (seenFinally : Bool) (stop : Option Terminator) :
    Concludes (tryParts r b n seenFinally stop) fun found => found.2 = none := by
  induction n generalizing seenFinally stop with
  | zero => exact lastPart_concludes .tryBlock stop
  | succ n ih =>
    rcases stop with _ | x
    · exact lastPart_concludes .tryBlock none
    · cases x with
      | catchPart =>
        refine beginPart_concludes (.bind fun header => ?_)
        exact nextPart_concludes (fun body => .catchPart header body (header.span.merge body.span))
          (ih _)
      | finallyPart =>
        refine beginPart_concludes (.bind fun header => ?_)
        exact nextPart_concludes (fun body => .finallyPart header body (header.merge body.span)) (ih _)
      | _ => exact lastPart_concludes .tryBlock _

theorem caseBlocks_concludes (n : Nat) (seenElse : Bool) (stop : Option Terminator) :
    Concludes (caseBlocks r b n seenElse stop) fun found => found.2 = none := by
  induction n generalizing seenElse stop with
  | zero => exact lastPart_concludes .selectBlock stop
  | succ n ih =>
    rcases stop with _ | x
    · exact lastPart_concludes .selectBlock none
    · cases x with
      | case =>
        refine beginPart_concludes (.bind fun header => ?_)
        exact nextPart_concludes (fun body => ⟨.case header, body, header.span.merge body.span⟩) (ih _)
      | caseElse =>
        refine beginPart_concludes (.bind fun header => ?_)
        exact nextPart_concludes (fun body => ⟨.caseElse header, body, header.merge body.span⟩) (ih _)
      | _ => exact lastPart_concludes .selectBlock _

theorem ifBlock_concludes (condition : Expression) (thenKeyword : Option Location) :
    Concludes (ifBlock r b start condition thenKeyword) Statement.IsOpen := by
  refine .bind fun _ => .bind fun header s => ?_
  refine Ensures.bind (P := fun found t => found.2.2 = none ∨ t.Ends) ?_ fun found t ends => ?_
  · refine Concludes.within (.bind fun found => .bind fun u => ?_) s
    exact (ifParts_concludes u.remaining false found.2).give fun _ none => none
  · obtain ⟨body, parts, ending⟩ := found
    rcases ends with none | ends
    · obtain rfl : ending = .none := none
      exact .inl (List.cons_ne_nil _ _)
    · exact .inr ends

theorem tryBlock_concludes : Concludes (tryBlock r b) Statement.IsOpen := by
  refine .bind fun token => .bind fun header s => ?_
  refine Ensures.bind (P := fun found t => found.2.2 = none ∨ t.Ends) ?_ fun found t ends => ?_
  · refine Concludes.within (.bind fun found => .bind fun u => ?_) s
    exact (tryParts_concludes u.remaining false found.2).give fun _ none => none
  · obtain ⟨body, parts, ending⟩ := found
    rcases ends with none | ends
    · obtain rfl : ending = .none := none
      exact .inl (List.cons_ne_nil _ _)
    · exact .inr ends

theorem selectBlock_concludes : Concludes (selectBlock r b) Statement.IsOpen := by
  refine .bind fun token => .bind fun caseKeyword => .bind fun subject => .bind fun header s => ?_
  refine Ensures.bind (P := fun found t => found.2.2 = none ∨ t.Ends) ?_ fun found t ends => ?_
  · refine Concludes.within (.bind fun found => ?_) s
    obtain ⟨leading, stop⟩ := found
    dsimp -zeta only
    extract_lets rest
    have last : Concludes (rest ()) fun found => found.2.2 = none :=
      .bind fun u => (caseBlocks_concludes u.remaining false stop).give fun _ none => none
    exact .branch (fun _ => last) fun _ => .bind fun _ => .bind fun _ => last
  · obtain ⟨leading, blocks, ending⟩ := found
    rcases ends with none | ends
    · obtain rfl : ending = .none := none
      exact .inl (List.cons_ne_nil _ _)
    · exact .inr ends

/-- A block of one part. -/
theorem concludes_of_takeEnd {α : Type} {kind : BlockKind} {stop : Option Terminator}
    {exempt : α → Prop} {build : Option EndBlock → Span → α}
    (opened : ∀ span, exempt (build none span)) :
    Concludes (takeEnd kind stop >>= fun ending => spanFrom start >>= fun span =>
      pure (build ending span)) exempt :=
  (takeEnd_concludes kind stop).span fun _ span none => none ▸ opened span

theorem takeLoop_concludes (hasCondition : Bool) (stop : Option Terminator) :
    Concludes (takeLoop r hasCondition stop) fun ending => ending = none := by
  refine .branch (fun _ => .bind fun _ s => ?_) fun _ => .pure rfl
  refine (loopLine_concludes s).bind fun ending t ends => ?_
  have ends : t.Ends := ends.resolve_left id
  have reported (problem : Problem) (span : Span) :
      Ensures (report problem span) t fun _ u => u.Ends := .inl (t.suppressed_report _ _)
  split
  · exact (reported _ _).bind fun _ _ ends => .inr ends
  · exact .inr ends

theorem doBlock_concludes : Concludes (doBlock r b) Statement.IsOpen := by
  refine .bind fun token => .bind fun condition => .bind fun header => .bind fun found => ?_
  obtain ⟨body, stop⟩ := found
  exact (takeLoop_concludes condition.isSome stop).span fun _ _ none => none ▸ List.cons_ne_nil _ _

theorem whileBlock_concludes : Concludes (whileBlock r b) Statement.IsOpen := by
  refine .bind fun token => .bind fun condition => .bind fun header => .bind fun found => ?_
  obtain ⟨body, stop⟩ := found
  refine concludes_of_takeEnd fun _ => ?_
  exact List.cons_ne_nil _ _

theorem objectBlock_concludes (kind : ObjectBlockKind) : Concludes (objectBlock r b kind) Statement.IsOpen := by
  refine .bind fun token => .bind fun object => .bind fun header => .bind fun found => ?_
  obtain ⟨body, stop⟩ := found
  refine concludes_of_takeEnd fun _ => ?_
  exact List.cons_ne_nil _ _

theorem usingBlock_concludes : Concludes (usingBlock r b) Statement.IsOpen := by
  refine .bind fun token => .bind fun resource => .bind fun header => .bind fun found => ?_
  obtain ⟨body, stop⟩ := found
  refine concludes_of_takeEnd fun _ => ?_
  exact List.cons_ne_nil _ _

-- Declarations

section

variable {exempt : Declaration → Prop}

theorem badDeclaration_concludes (problem : Problem) :
    Concludes (badDeclaration start problem) exempt :=
  concludes_of_report

theorem optionDeclaration_concludes : Concludes optionDeclaration exempt := by
  refine .bind fun _ => .bind fun token => ?_
  split
  · exact concludes_of_report
  · refine .bind fun _ => ?_
    extract_lets rest
    have last (setting : Option OptionSetting) : Concludes (rest setting) exempt :=
      concludes_of_endStatement
    exact .branch (fun _ => .bind last) fun _ => .bind last

theorem importsDeclaration_concludes : Concludes (importsDeclaration r) exempt :=
  .bind fun _ => .bind fun _ => concludes_of_endStatement

theorem typeList_concludes (kind : TypeListKind) (container : Container) :
    Concludes (typeList r kind container) exempt := by
  refine .bind fun keyword => ?_
  extract_lets keyword rest
  have types : Concludes (rest ()) exempt := by
    refine .bind fun types => ?_
    extract_lets goOn
    have last : Concludes (goOn ()) exempt := concludes_of_endStatement
    split
    · exact .bind fun _ => last
    · exact last
  exact .branch (fun _ => types) fun _ => .bind fun _ => types

theorem fieldDeclaration_concludes : Concludes (fieldDeclaration r start head) exempt :=
  .bind fun _ => concludes_of_endStatement

theorem enumValue_concludes (attributes : List AttributeBlock) :
    Concludes (enumValue r start attributes) exempt := by
  refine .bind fun token => .branch (fun _ => ?_) fun _ s => ?_
  · exact .bind fun _ => .bind fun _ => concludes_of_endStatement
  · have reported : Ensures (report .invalidInsideEnum token.span) s fun _ t =>
        t.suppressed = true := s.suppressed_report _ _
    exact reported.bind fun _ t suppressed =>
      .inr (.inl ((ParseState.suppressed_advanceWhile _ _ _).trans suppressed))

theorem eventDeclaration_concludes : Concludes (eventDeclaration r start head) exempt := by
  refine .bind fun _ => .bind fun _ => .bind fun parameters => ?_
  extract_lets rest
  have last (type : Option TypeName) : Concludes (rest type) exempt :=
    .bind fun _ => concludes_of_endStatement
  exact .branch (fun _ => .bind last) fun _ => .bind last

theorem delegateDeclaration_concludes : Concludes (delegateDeclaration r start head) exempt := by
  refine .bind fun _ => .bind fun kind => ?_
  split
  · exact badDeclaration_concludes _
  · refine .bind fun _ => .bind fun _ => .bind fun _ => .bind fun _ => ?_
    extract_lets rest
    have last (result : Option ReturnType) : Concludes (rest result) exempt := concludes_of_endStatement
    exact .branch (fun _ => .bind last) fun _ => .bind last

theorem externalDeclaration_concludes : Concludes (externalDeclaration r start head) exempt := by
  refine .bind fun _ => .bind fun charset => .bind fun kind => ?_
  split
  · exact badDeclaration_concludes _
  · refine .bind fun _ => .bind fun name => .bind fun keyword => ?_
    extract_lets afterLibrary
    have parts (library : Option String) : Concludes (afterLibrary library) exempt := by
      refine .bind fun aliasKeyword => ?_
      extract_lets afterAlias
      have signature (aliasName : Option String) : Concludes (afterAlias aliasName) exempt := by
        refine .bind fun parameters => ?_
        extract_lets rest
        have last (result : Option ReturnType) : Concludes (rest result) exempt :=
          concludes_of_endStatement
        exact .branch (fun _ => .bind last) fun _ => .bind last
      cases aliasKeyword with
      | none => exact signature none
      | some _ => exact .bind signature
    cases keyword with
    | none => exact parts none
    | some _ => exact .bind parts

end

theorem namespaceDeclaration_concludes : Concludes (namespaceDeclaration b start) Declaration.IsOpen := by
  refine .bind fun _ => .bind fun name => .bind fun header => .bind fun found => ?_
  obtain ⟨members, stop⟩ := found
  refine concludes_of_takeEnd fun _ => ?_
  exact List.cons_ne_nil _ _

theorem typeDeclaration_concludes (kind : TypeKind) :
    Concludes (typeDeclaration r b start head kind) Declaration.IsOpen := by
  refine .bind fun _ => .bind fun name => ?_
  extract_lets rest
  have last (parameters : Option TypeParameterList) :
      Concludes (rest parameters) Declaration.IsOpen := by
    refine .bind fun header => .bind fun found => ?_
    obtain ⟨members, stop⟩ := found
    refine concludes_of_takeEnd fun _ => ?_
    exact List.cons_ne_nil _ _
  exact .branch (fun _ => .bind last) fun _ => .bind last

theorem enumDeclaration_concludes : Concludes (enumDeclaration r b start head) Declaration.IsOpen := by
  refine .bind fun _ => .bind fun name => .bind fun underlying => .bind fun header =>
    .bind fun found => ?_
  obtain ⟨members, stop⟩ := found
  refine concludes_of_takeEnd fun _ => ?_
  exact List.cons_ne_nil _ _

theorem operatorDeclaration_concludes :
    Concludes (operatorDeclaration r b start head) Declaration.IsOpen := by
  refine .bind fun _ => .bind fun named => ?_
  obtain ⟨operator, place⟩ := named
  refine .bind fun parameters => .bind fun result => .bind fun header => .bind fun found => ?_
  obtain ⟨body, stop⟩ := found
  refine concludes_of_takeEnd fun _ => ?_
  exact List.cons_ne_nil _ _

theorem accessorDeclaration_concludes (kind : AccessorKind) :
    Concludes (accessorDeclaration r b start head kind) Declaration.IsOpen := by
  refine .bind fun _ => .bind fun _ => .bind fun parameters => .bind fun header => .bind fun found => ?_
  obtain ⟨body, stop⟩ := found
  refine concludes_of_takeEnd fun _ => ?_
  exact List.cons_ne_nil _ _

theorem customEventDeclaration_concludes :
    Concludes (customEventDeclaration r b start head) Declaration.IsOpen := by
  refine .bind fun _ => .bind fun _ => .bind fun name => .bind fun keyword => ?_
  extract_lets rest
  have last (type : Option TypeName) : Concludes (rest type) Declaration.IsOpen := by
    refine .bind fun implemented => .bind fun header => .bind fun found => ?_
    obtain ⟨accessors, stop⟩ := found
    refine concludes_of_takeEnd fun _ => ?_
    exact List.cons_ne_nil _ _
  cases keyword with
  | none => exact .bind last
  | some _ => exact .bind last

theorem methodDeclaration_concludes (kind : MethodKind) (container : Container) :
    Concludes (methodDeclaration r b start head kind container) Declaration.IsOpen := by
  refine .bind fun _ => ?_
  extract_lets named
  have parts (name : SimpleName) : Concludes (named name) Declaration.IsOpen := by
    refine .choice fun typeParameters => .bind fun parameters => .choice fun result => ?_
    refine .bind fun handled => .bind fun implemented s => ?_
    refine (endStatement_concludes start s).bind fun header t ends => ?_
    split
    · exact .inr (ends.resolve_left id)
    · refine Concludes.bind (fun found u => ?_) t
      obtain ⟨body, stop⟩ := found
      refine (takeEnd_concludes _ stop u).bind fun ending v ends => ?_
      rcases ends with rfl | ends
      · exact .inl (List.cons_ne_nil _ _)
      · exact .inr ends
  exact .branch (fun _ => .bind fun _ => .bind parts) fun _ => .bind parts

theorem singleAccessorProperty_concludes :
    Concludes (singleAccessorProperty r b start head) Declaration.IsOpen := by
  refine .bind fun keyword => ?_
  extract_lets isGet
  refine .bind fun name => .bind fun parameters => ?_
  extract_lets typed
  have last (result : Option ReturnType) : Concludes (typed result) Declaration.IsOpen := by
    refine .bind fun header => .bind fun found => ?_
    obtain ⟨body, stop⟩ := found
    refine concludes_of_takeEnd fun _ => ?_
    exact List.cons_ne_nil _ _
  exact .branch (fun _ => .bind last) fun _ => .bind last

theorem propertyDeclaration_concludes (container : Container) :
    Concludes (propertyDeclaration r b start head container) Declaration.IsOpen := by
  refine .bind fun _ => .bind fun kind => ?_
  split
  · exact singleAccessorProperty_concludes
  · exact singleAccessorProperty_concludes
  · exact singleAccessorProperty_concludes
  · refine .bind fun name => .bind fun parameters => .bind fun result => .bind fun implemented s => ?_
    refine (endStatement_concludes start s).bind fun header t ends => ?_
    split
    · exact .inr (ends.resolve_left id)
    · refine Concludes.bind (fun found u => ?_) t
      obtain ⟨accessors, stop⟩ := found
      refine (takeEnd_concludes _ stop u).bind fun ending v ends => ?_
      rcases ends with rfl | ends
      · exact .inl (List.cons_ne_nil _ _)
      · exact .inr ends

theorem accessorIn_concludes (ofProperty : Bool) :
    Concludes (accessorIn r b start head ofProperty) Declaration.IsOpen := by
  refine .bind fun kind => ?_
  extract_lets found
  split
  · exact accessorDeclaration_concludes _
  · exact badDeclaration_concludes _

theorem memberDeclaration_concludes (container : Container) (member : Member) :
    Concludes (memberDeclaration r b start head container member) Declaration.IsOpen := by
  refine .bind fun token => ?_
  extract_lets methodKind rest
  have goOn : Concludes (rest ()) Declaration.IsOpen := by
    refine .bind fun _ => ?_
    cases member with
    | namespaceBlock => exact namespaceDeclaration_concludes
    | type kind => exact typeDeclaration_concludes kind
    | enum => exact enumDeclaration_concludes
    | field => exact fieldDeclaration_concludes
    | method => exact methodDeclaration_concludes methodKind container
    | constructor => exact methodDeclaration_concludes .constructor container
    | operator => exact operatorDeclaration_concludes
    | property => exact propertyDeclaration_concludes container
    | event => exact eventDeclaration_concludes
    | customEvent => exact customEventDeclaration_concludes
    | delegate => exact delegateDeclaration_concludes
    | external => exact externalDeclaration_concludes
  split
  · exact .bind fun _ => goOn
  · exact goOn

theorem declarationAfter_concludes (attributes : List AttributeBlock) (container : Container) :
    Concludes (declarationAfter r b start attributes container) Declaration.IsOpen := by
  refine .branch (fun _ => enumValue_concludes attributes) fun _ => .bind fun modifiers => ?_
  extract_lets head
  refine .branch (fun _ => accessorIn_concludes true) fun _ => ?_
  refine .branch (fun _ => accessorIn_concludes false) fun _ => .bind fun _ => .bind fun s => ?_
  split
  · exact badDeclaration_concludes _
  · exact memberDeclaration_concludes container _

theorem reportHeading_ends (container : Container) (span : Span) {s : ParseState} (ends : s.Ends) :
    Ensures (reportHeading container span) s fun _ t => t.Ends := by
  unfold reportHeading
  split
  · exact .inl (s.suppressed_report _ _)
  · exact ends

theorem attributedDeclaration_concludes (container : Container) :
    Concludes (attributedDeclaration r b container) Declaration.IsOpen := by
  refine .bind fun start => .bind fun attributes s => .atStatementEnd ?_
  split
  next first begins all =>
    have ends : s.Ends := .inr (s.ended_of_atStatementEnd (Bool.and_eq_true_iff.1 all).2)
    exact (reportHeading_ends container first.span ends).bind fun _ _ ends => .inr ends
  next => exact declarationAfter_concludes attributes container s

theorem declaration_concludes (container : Container) :
    Concludes (declaration r b container) Declaration.IsOpen := by
  refine .bind fun token => .bind fun s => ?_
  split
  next kind _ => exact .bind fun _ => (endBlock_concludes kind).give fun _ => False.elim
  next => exact badDeclaration_concludes _
  next =>
    split
    next => exact .bind fun _ => optionDeclaration_concludes
    next => exact .bind fun _ => importsDeclaration_concludes
    next => exact typeList_concludes _ _
    next => exact typeList_concludes _ _
    next => exact attributedDeclaration_concludes container

end Parse

end VisualBasic
