import VisualBasic.Parse.Source
import VisualBasic.Proofs.Parse.Statement
import VisualBasic.Proofs.Report.Signature

/-!
At most one diagnostic for each construct.  An expression or a type name is one construct, and so is a
statement that holds no others; what could not be read, or ends no block, always has its diagnostic.
-/

set_option autoImplicit false

namespace VisualBasic

namespace Statement

/-- The statement is the end or a part of a block that is not there. -/
def isStray : Statement → Bool
  | .endBlock _ | .loop _ | .next _ | .elseIf _ | .elsePart _ | .case _ | .caseElse _ | .catchPart _
  | .finallyPart _ => true
  | _ => false

/-- The statement cannot stand without a diagnostic. -/
def isFault (st : Statement) : Bool := st.isBad || st.isStray

end Statement

/-- A rule for a statement that stays within the construct, and says so if the statement is at fault. -/
abbrev Blames (p : Parse Statement) : Prop :=
  Tells p fun st es => (∀ e ∈ es, e.isQuiet = true) ∧ (st.isFault = true → es ≠ [])

namespace Blames

variable {α : Type} {p : Parse α} {f : α → Parse Statement}

theorem quiet {p : Parse Statement} (blames : Blames p) : Quiet p :=
  blames.mono fun _ _ said => said.1

/-- A statement that is not at fault. -/
theorem pure {st : Statement} (sound : st.isFault = false) : Blames (pure st) :=
  Tells.pure ⟨by simp, fun fault => by rw [sound] at fault; cases fault⟩

theorem get {f : ParseState → Parse Statement} (blind : ∀ s x, f (s.beside x) = f s)
    (next : ∀ s, Blames (f s)) : Blames (MonadState.get >>= f) :=
  Tells.get blind next

theorem bind (first : Quiet p) (next : ∀ a, Blames (f a)) : Blames (p >>= f) :=
  Tells.bind first next fun _ _ _ _ said said' =>
    ⟨List.forall_mem_append.2 ⟨said, said'.1⟩, fun fault none =>
      said'.2 fault (List.append_eq_nil_iff.1 none).2⟩

/-- A rule that begins with a report. -/
theorem after (first : Tells p fun _ es => ∃ e, es = [e] ∧ e.isQuiet = true)
    (next : ∀ a, Quiet (f a)) : Blames (p >>= f) := by
  refine Tells.bind first next fun _ _ _ fs ⟨e, said, quiet⟩ said' => ?_
  subst said
  exact ⟨List.forall_mem_cons.2 ⟨quiet, said'⟩, fun _ => List.cons_ne_nil e fs⟩

end Blames

namespace Quiet

open Parse

variable {r : Rules}

-- Labels and jumps

theorem namedBlock (ofKind? : TokenKind → Option BlockKind) {problem : Problem}
    (quiet : problem.isOrder = false) : Quiet (namedBlock ofKind? problem) := by
  refine .bind .peekKind fun kind => ?_
  split
  · exact .bind .skip fun _ => .pure
  · exact .bind (.reportUnexpected quiet) fun _ => .pure

-- Errors

theorem handlerTarget : Quiet handlerTarget := by
  refine .get (fun _ _ => rfl) fun s => ?_
  split
  · exact .bind .skip fun _ => .pure
  · split
    · exact .bind .skip fun _ => .bind .skip fun _ => .pure
    · exact .bind .label fun _ => .pure

theorem onErrorAction : Quiet onErrorAction := by
  refine .bind .peekKind fun kind => ?_
  split
  · exact .bind .skip fun _ => .handlerTarget
  · refine .bind .skip fun _ => .bind (.expect _ rfl) fun next => ?_
    split
    · exact .pure
    · exact .pure
  · exact .bind (.reportUnexpected rfl) fun _ => .pure

theorem resumeTarget : Quiet resumeTarget := by
  refine .bind (.eat _) fun next => ?_
  split
  · exact .pure
  · refine .bind .atStatementEnd fun ends => ?_
    split
    · exact .pure
    · exact .bind .label fun _ => .pure

-- Assignments and calls

theorem callArguments (phrases : r.Quiet) (target : Expression) : Quiet (callArguments r target) := by
  refine .bind (.check _) fun comma => ?_
  split
  · exact .bind (.bareArgumentsFrom phrases _) fun _ => .pure
  · exact .bind (.bareArguments phrases) fun _ => .pure

-- Other statements of one line

theorem values (phrases : r.Quiet) : Quiet (values r) := .commaList _ phrases.value

-- The ends and parts of blocks

theorem endBlock (kind : BlockKind) : Quiet (endBlock kind) := by
  refine .bind .read fun first => ?_
  extract_lets rest
  have ended : Quiet (rest ()) := .bind (.endStatement _) fun _ => .pure
  split
  · exact ended
  · exact .bind .skip fun _ => ended

theorem wordLine : Quiet wordLine := .bind .read fun _ => .endStatement _

theorem expectThen (thenKeyword : Option Location) : Quiet (expectThen thenKeyword) := by
  refine .bind .atStatementEnd fun ends => ?_
  split
  · exact .bind (.reportUnexpected rfl) fun _ => .resync _
  · exact .pure

theorem elseIfLine (phrases : r.Quiet) : Quiet (elseIfLine r) := by
  refine .bind .read fun first => ?_
  extract_lets rest
  have line : Quiet (rest ()) := .bind phrases.value fun _ => .bind (.eatPlace _) fun _ =>
    .bind (.expectThen _) fun _ => .bind (.endStatement _) fun _ => .pure
  split
  · exact .bind .skip fun _ => line
  · exact line

theorem loopCondition (phrases : r.Quiet) : Quiet (loopCondition r) := by
  refine .bind .peek fun token => ?_
  extract_lets isWhile
  split
  · exact .bind .skip fun _ => .bind phrases.value fun _ => .bind (.spanFrom _) fun _ => .pure
  · refine .bind .atStatementEnd fun ends => ?_
    split
    · exact .pure
    · exact .bind (.reportUnexpected rfl) fun _ => .bind (.resync _) fun _ => .pure

theorem loopLine (phrases : r.Quiet) : Quiet (loopLine r) :=
  .bind .read fun _ => .bind (.loopCondition phrases) fun _ => .bind (.endStatement _) fun _ => .pure

theorem nextLine (phrases : r.Quiet) : Quiet (nextLine r) := by
  refine .bind .read fun token => .bind .atStatementEnd fun ends => ?_
  extract_lets rest
  have ended (named : CommaList Expression) : Quiet (rest named) :=
    .bind (.endStatement _) fun _ => .pure
  split
  · exact .bind .here fun _ => .bind .pure fun _ => ended _
  · exact .bind (.values phrases) fun _ => ended _

theorem catchLine (phrases : r.Quiet) : Quiet (catchLine r) := by
  refine .bind .read fun token => .bind (.check _) fun named => .bind (.optionally .identifier)
    fun name => ?_
  extract_lets rest
  have filtered (type : Option TypeName) : Quiet (rest type) :=
    .bind (.whenEaten phrases.value) fun _ => .bind (.endStatement _) fun _ => .pure
  split
  · exact .bind (.whenEaten (.elementType phrases)) fun _ => filtered _
  · exact .bind .pure fun _ => filtered _

theorem caseClause (phrases : r.Quiet) : Quiet (caseClause r) := by
  refine .bind .here fun start => .bind (.eatPlace _) fun isKeyword => .bind .peekKind fun kind => ?_
  split
  · exact .bind .skip fun _ => .bind phrases.value fun _ => .bind (.spanFrom _) fun _ => .pure
  · exact .bind (.reportUnexpected rfl) fun _ => .bind .placeholder fun _ =>
      .bind (.spanFrom _) fun _ => .pure
  · refine .bind phrases.value fun lower => .bind (.eatPlace _) fun toKeyword => ?_
    split
    · exact .bind phrases.value fun _ => .bind (.spanFrom _) fun _ => .pure
    · exact .pure

theorem caseLine (phrases : r.Quiet) : Quiet (caseLine r) :=
  .bind .read fun _ => .bind (.commaList _ (.caseClause phrases)) fun _ =>
    .bind (.endStatement _) fun _ => .pure

theorem caseElseLine : Quiet caseElseLine :=
  .bind .read fun _ => .bind .skip fun _ => .endStatement _

end Quiet

-- Statements at fault

namespace Blames

open Parse

variable {r : Rules}

theorem lineNumber : Blames lineNumber := by
  refine .bind .peek fun token => .get (fun _ _ => rfl) fun s => ?_
  extract_lets rest
  have labelled : Blames (rest ()) := .bind .label fun _ => .pure rfl
  split
  · exact labelled
  · exact .bind (.report rfl) fun _ => labelled

theorem goToStatement : Blames goToStatement :=
  .bind .read fun _ => .bind .label fun _ => .bind (.endStatement _) fun _ => .pure rfl

theorem exitStatement : Blames exitStatement :=
  .bind .read fun _ => .bind (.namedBlock _ rfl) fun _ => .bind (.endStatement _) fun _ => .pure rfl

theorem continueStatement : Blames continueStatement :=
  .bind .read fun _ => .bind (.namedBlock _ rfl) fun _ => .bind (.endStatement _) fun _ => .pure rfl

theorem stopStatement : Blames stopStatement :=
  .bind .read fun _ => .bind (.endStatement _) fun _ => .pure rfl

theorem endProgram : Blames endProgram := by
  refine .bind .read fun token => .bind .atStatementEnd fun ends => ?_
  split
  · exact .pure rfl
  · exact .bind (.reportUnexpected rfl) fun _ => .bind (.resync _) fun _ => .pure rfl

theorem optionalOperand (phrases : r.Quiet) {build : Option Expression → Span → Statement}
    (sound : ∀ operand span, (build operand span).isFault = false) :
    Blames (optionalOperand r build) :=
  .bind .read fun _ => .bind .atStatementEnd fun _ => .bind (.optionally phrases.value) fun _ =>
    .bind (.endStatement _) fun _ => .pure (sound _ _)

theorem raiseError (phrases : r.Quiet) : Blames (raiseError r) :=
  .bind .read fun _ => .bind phrases.value fun _ => .bind (.endStatement _) fun _ => .pure rfl

theorem onErrorStatement : Blames onErrorStatement := by
  refine .bind .read fun token => .bind (.expect _ rfl) fun word => ?_
  split
  · exact .bind (.resync _) fun _ => .bind (.spanFrom _) fun _ => .pure rfl
  · exact .bind .onErrorAction fun _ => .bind (.endStatement _) fun _ => .pure rfl

theorem resumeStatement : Blames resumeStatement :=
  .bind .read fun _ => .bind .resumeTarget fun _ => .bind (.endStatement _) fun _ => .pure rfl

theorem assignmentOrCall (phrases : r.Quiet) : Blames (assignmentOrCall r) := by
  refine .bind (.operand phrases) fun target => .bind .peek fun token => ?_
  split
  · exact .bind .skip fun _ => .bind phrases.value fun _ => .bind (.endStatement _) fun _ => .pure rfl
  · split
    · exact .bind .skip fun _ => .bind phrases.value fun _ => .bind (.endStatement _) fun _ => .pure rfl
    · refine .bind .atStatementEnd fun ends => ?_
      extract_lets rest
      have called (found : Expression × Option Arguments) : Blames (rest found) :=
        .bind (.endStatement _) fun _ => .pure rfl
      split
      · exact .bind Quiet.pure fun _ => called _
      · exact .bind (.callArguments phrases _) fun _ => called _

theorem callStatement (phrases : r.Quiet) : Blames (callStatement r) :=
  .bind .read fun _ => .bind (.operand phrases) fun _ => .bind (.endStatement _) fun _ => .pure rfl

theorem keywordAssignment (phrases : r.Quiet) : Blames (keywordAssignment r) := by
  refine .bind .read fun token => .bind (.operand phrases) fun target =>
    .bind (.expectPlace _ rfl) fun equals => ?_
  extract_lets rest
  have assigned (place : Location) : Blames (rest place) :=
    .bind phrases.value fun _ => .bind (.endStatement _) fun _ => .pure rfl
  split
  · exact .bind Quiet.pure fun _ => assigned _
  · exact .bind .placeholder fun _ => assigned _

theorem midAssignment (phrases : r.Quiet) : Blames (midAssignment r) :=
  .bind .read fun _ => .bind .skip fun _ => .bind phrases.value fun _ => .bind (.expect _ rfl) fun _ =>
    .bind phrases.value fun _ => .bind (.whenEaten phrases.value) fun _ =>
      .bind .closeParenthesis fun _ => .bind (.expect _ rfl) fun _ => .bind phrases.value fun _ =>
        .bind (.endStatement _) fun _ => .pure rfl

theorem localDeclaration (phrases : r.Quiet) : Blames (localDeclaration r) :=
  .bind .here fun _ => .bind .modifiers fun _ => .bind (.checkModifiers _ _) fun _ =>
    .bind (.variableDeclarators phrases _) fun _ => .bind (.endStatement _) fun _ => .pure rfl

theorem raiseEvent (phrases : r.Quiet) : Blames (raiseEvent r) :=
  .bind .read fun _ => .bind .identifier fun _ => .bind (.check _) fun _ =>
    .bind (.optionally (.argumentList phrases)) fun _ => .bind (.endStatement _) fun _ => .pure rfl

theorem handlerStatement (phrases : r.Quiet) (adds : Bool) : Blames (handlerStatement r adds) :=
  .bind .read fun _ => .bind phrases.value fun _ => .bind (.expectPlace _ rfl) fun _ =>
    .bind phrases.value fun _ => .bind (.endStatement _) fun _ => .pure rfl

theorem reDimStatement (phrases : r.Quiet) : Blames (reDimStatement r) :=
  .bind .read fun _ => .bind (.eatContextual _) fun _ => .bind (.values phrases) fun _ =>
    .bind (.endStatement _) fun _ => .pure rfl

theorem eraseStatement (phrases : r.Quiet) : Blames (eraseStatement r) :=
  .bind .read fun _ => .bind (.values phrases) fun _ => .bind (.endStatement _) fun _ => .pure rfl

theorem obsoleteJump : Blames obsoleteJump :=
  .bind .peek fun _ => .after (.report_single rfl) fun _ => .bind .skip fun _ =>
    .bind .skipStatement fun _ => .bind (.spanFrom _) fun _ => .pure

theorem badStatement : Blames badStatement :=
  .bind .here fun _ => .after (.reportUnexpected_single rfl) fun _ => .bind (.resync _) fun _ =>
    .bind (.spanFrom _) fun _ => .pure

theorem operandStatement (phrases : r.Quiet) : Blames (operandStatement r) := by
  refine .get (fun _ _ => rfl) fun s => ?_
  split
  · exact .assignmentOrCall phrases
  · exact .badStatement

theorem strayTerminator (phrases : r.Quiet) (x : Terminator) : Blames (strayTerminator r x) := by
  refine .bind .peek fun token => .after (.report_single rfl) fun _ => ?_
  cases x with
  | endOf kind => exact .bind (.endBlock kind) fun _ => .pure
  | loop => exact .bind (.loopLine phrases) fun _ => .pure
  | next => exact .bind (.nextLine phrases) fun _ => .pure
  | elseIf => exact .bind (.elseIfLine phrases) fun _ => .pure
  | elsePart | finallyPart => exact .bind .wordLine fun _ => .pure
  | case => exact .bind (.caseLine phrases) fun _ => .pure
  | caseElse => exact .bind .caseElseLine fun _ => .pure
  | catchPart => exact .bind (.catchLine phrases) fun _ => .pure

end Blames

namespace Parse

variable {r : Rules} {b : Bodies} {s : ParseState}

/-- The statement that the rule gives here gets one diagnostic at most, and one for sure if it is at
fault. -/
def Once (p : Parse Statement) (s : ParseState) : Prop :=
  Ensures p s fun st t => st.isSimple = true ∨ st.isStray = true →
    ∃ ds, t.diagnostics = s.diagnostics ++ ds ∧ ds.length ≤ 1 ∧ (st.isFault = true → ds.length = 1)

theorem once_of_blames {p : Parse Statement} (blames : Blames p) (fresh : s.suppressed = false) :
    Once p s := by
  intro _
  obtain ⟨es, ⟨quiet, fault⟩, heard⟩ := blames.heard s
  obtain ⟨ds, added, few, one⟩ := Log.hear_of_not_suppressed (l := s.log) fresh
    fun e member => Event.ne_begin (quiet e member)
  exact ⟨ds, (congrArg Log.diagnostics heard).trans added, few, fun bad => one (fault bad)⟩

/-- Of a block nothing is said. -/
theorem once_of_block {p : Parse Statement}
    (block : Ensures p s fun st _ => st.isSimple = false ∧ st.isStray = false) : Once p s := by
  rintro (simple | stray)
  · rw [block.1] at simple
    cases simple
  · rw [block.2] at stray
    cases stray

theorem forStatement_once (r : Rules) (b : Bodies) (s : ParseState) : Once (forStatement r b) s := by
  refine once_of_block (Ensures.any.bind fun _ t _ => Ensures.any.bind fun each u _ => ?_)
  cases each <;> exact ⟨rfl, rfl⟩

theorem ifStatement_once (r : Rules) (b : Bodies) (s : ParseState) : Once (ifStatement r b) s := by
  refine once_of_block (Ensures.any.bind fun _ t _ => Ensures.any.bind fun _ u _ =>
    Ensures.any.bind fun thenKeyword v _ => .peekKind ?_)
  split <;> exact ⟨rfl, rfl⟩

theorem keywordStatement_once (phrases : r.Quiet) (b : Bodies) (fresh : s.suppressed = false)
    (keyword : Keyword) : Once (keywordStatement r b keyword) s := by
  have once {p : Parse Statement} (blames : Blames p) : Once p s := once_of_blames blames fresh
  unfold keywordStatement
  split
  · exact once (.localDeclaration phrases)
  · exact once (.localDeclaration phrases)
  · exact once (.localDeclaration phrases)
  · exact once (.callStatement phrases)
  · exact once (.keywordAssignment phrases)
  · exact once (.keywordAssignment phrases)
  · exact once .goToStatement
  · exact once .obsoleteJump
  · exact once .exitStatement
  · exact once .continueStatement
  · exact once .stopStatement
  · exact once .endProgram
  · exact once (.optionalOperand phrases fun _ _ => rfl)
  · exact once (.optionalOperand phrases fun _ _ => rfl)
  · exact once (.raiseError phrases)
  · exact once (.raiseEvent phrases)
  · exact once (.handlerStatement phrases true)
  · exact once (.handlerStatement phrases false)
  · exact once .onErrorStatement
  · exact once .resumeStatement
  · exact once (.reDimStatement phrases)
  · exact once (.eraseStatement phrases)
  · exact ifStatement_once r b s
  · exact once_of_block ⟨rfl, rfl⟩
  · exact forStatement_once r b s
  · exact once_of_block ⟨rfl, rfl⟩
  · exact once_of_block ⟨rfl, rfl⟩
  · exact once_of_block ⟨rfl, rfl⟩
  · exact once_of_block ⟨rfl, rfl⟩
  · exact once_of_block ⟨rfl, rfl⟩
  · exact once_of_block ⟨rfl, rfl⟩
  · exact once (.operandStatement phrases)

theorem plainStatement_once (phrases : r.Quiet) (b : Bodies) (fresh : s.suppressed = false) :
    Once (plainStatement r b) s := by
  refine Ensures.get ?_
  split
  · split
    · exact once_of_blames (.bind .read fun _ => .pure rfl) fresh
    · split
      · exact once_of_blames (.midAssignment phrases) fresh
      · exact once_of_blames (.assignmentOrCall phrases) fresh
  · exact once_of_blames .lineNumber fresh
  · exact keywordStatement_once phrases b fresh _
  · exact once_of_blames (.operandStatement phrases) fresh

/-- A statement begins a construct, so whatever was found before, its own problem is recorded. -/
theorem statement_once (phrases : r.Quiet) (b : Bodies) (s : ParseState) : Once (statement r b) s := by
  unfold Once statement
  refine Ensures.bind (P := fun _ t => t.suppressed = false ∧ t.diagnostics = s.diagnostics)
    ⟨rfl, rfl⟩ fun _ t begun => Ensures.get ?_
  obtain ⟨fresh, same⟩ := begun
  rw [← same]
  split
  · exact once_of_blames (.strayTerminator phrases _) fresh
  · split
    · exact once_of_block ⟨rfl, rfl⟩
    · exact plainStatement_once phrases b fresh

end Parse

/-- A construct gets at most one diagnostic.  Reading an expression or a type name finds one problem at
most, whatever the text.  So does reading a statement, from any state and behind anything that was found
before, unless the statement is a block, a single-line `If` or a declaration; and if what is read is no
statement, or the end or a part of a block that is not there, just one problem is added. -/
theorem one_diagnostic_per_construct (o : ScanOptions) :
    (∀ text, (parseExpression o text).diagnostics.length ≤ 1) ∧
      (∀ text, (parseTypeName o text).diagnostics.length ≤ 1) ∧
      ∀ (depth : Nat) (b : Bodies) (s : ParseState),
        let found := (Parse.statement (Rules.ofDepth o.version depth) b).run s
        found.1.isSimple = true ∨ found.1.isStray = true →
          ∃ ds, found.2.diagnostics = s.diagnostics ++ ds ∧ ds.length ≤ 1 ∧
            (found.1.isBad = true ∨ found.1.isStray = true → ds.length = 1) := by
  have phrase {α : Type} {rule : Rules → Bodies → Parse α}
      (quiet : ∀ r b, r.Quiet → Quiet (rule r b)) (tokens : List Token) :
      (parseTokens rule o.version false tokens).diagnostics.length ≤ 1 := by
    obtain ⟨es, said, heard⟩ :=
      (quiet _ (Bodies.ofDepth false _ _) (Rules.quiet_ofDepth o.version _)).heard
        (.start (tokens.filterMap Token.comment?) (tokens.filter fun t => !t.isComment))
    obtain ⟨ds, added, few, -⟩ := Log.hear_of_not_suppressed (l := ⟨[], false⟩) rfl
      fun e member => Event.ne_begin (said e member)
    have found : (parseTokens rule o.version false tokens).diagnostics = ds :=
      (congrArg Log.diagnostics heard).trans added
    rwa [found]
  refine ⟨fun text => phrase (fun r _ phrases => .expression phrases _) _,
    fun text => phrase (fun r _ phrases => .typeName phrases) _, fun depth b s plain => ?_⟩
  obtain ⟨ds, added, few, fault⟩ :=
    Parse.statement_once (Rules.quiet_ofDepth o.version depth) b s plain
  refine ⟨ds, added, few, fun isFault => fault ?_⟩
  rwa [Statement.isFault, Bool.or_eq_true]

end VisualBasic
