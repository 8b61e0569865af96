import VisualBasic.Proofs.Parse.Print
import VisualBasic.Proofs.Tandem.Body

/-!
The lines of a loop, read token by token: names, assignments, the line that opens a loop and the
`Next` that closes loops.
-/

set_option autoImplicit false

namespace VisualBasic

/-- The expression that a name is by itself. -/
def SimpleName.expression (n : SimpleName) : Expression := .simpleName n none n.span

def Lexeme.EndsLine (l : Lexeme) : Prop := l = .lineTerminator ∨ l = .endOfStream

theorem Lexeme.EndsLine.closes {l : Lexeme} (ends : l.EndsLine) (rest : List Lexeme) :
    ClosesOperand (l :: rest) := by
  obtain rfl | rfl := ends <;> simp [ClosesOperand, Lexeme.kind]

theorem Lexeme.EndsLine.noOperator {l : Lexeme} (ends : l.EndsLine) (rest : List Lexeme) :
    operatorAt? (l :: rest) = none := by
  obtain rfl | rfl := ends <;> rfl

namespace ParseState

/-- A parser before some lexemes, within some blocks, that has found no problem. -/
structure Stands (s : ParseState) (ls : List Lexeme) (blocks : List OpenBlock)
    (pending : Option PendingNext) : Prop where
  ahead : s.ahead.map Token.lexeme = ls
  stream : Stream s.ahead
  clean : s.diagnostics = []
  blocks : s.blocks = blocks
  pending : s.pendingNext = pending
  depth : s.lineIfDepth = 0
  closed : s.directives = .none

namespace Stands

variable {s : ParseState} {l m : Lexeme} {ls : List Lexeme} {blocks : List OpenBlock}
  {pending : Option PendingNext}

theorem faces (stands : s.Stands ls blocks pending) : s.Faces ls := ⟨stands.ahead, stands.clean⟩

theorem kind (stands : s.Stands (l :: ls) blocks pending) : s.kind = l.kind := stands.faces.kind

theorem lexeme (stands : s.Stands (l :: ls) blocks pending) : s.current.lexeme = l :=
  stands.faces.lexeme

theorem remaining (stands : s.Stands ls blocks pending) : s.remaining + 1 = ls.length :=
  stands.faces.remaining

theorem begin (stands : s.Stands ls blocks pending) :
    { s with suppressed := false }.Stands ls blocks pending :=
  { stands with }

theorem kindAfter (stands : s.Stands (l :: m :: ls) blocks pending) : s.kindAfter = m.kind :=
  stands.faces.kindAfter

theorem advance (stands : s.Stands (l :: m :: ls) blocks pending) :
    s.advance.Stands (m :: ls) blocks pending ∧ s.here < s.advance.here := by
  obtain ⟨t, rest, follows, -⟩ := stands.faces.exists_following
  have faces := stands.faces.advance (by simp)
  have stream := stands.stream
  rw [ParseState.ahead, follows] at stream
  cases stream with
  | cons goesOn wide order named stream =>
    rw [advance_of_cons follows] at faces ⊢
    refine ⟨⟨faces.ahead, stream, faces.clean, stands.blocks, stands.pending, stands.depth,
      stands.closed⟩, ?_⟩
    show s.current.span.start.index < t.span.start.index
    omega

theorem advance_of_ne_nil (stands : s.Stands (l :: ls) blocks pending) (more : ls ≠ []) :
    s.advance.Stands ls blocks pending ∧ s.here < s.advance.here := by
  obtain ⟨m, ls, rfl⟩ := List.exists_cons_of_ne_nil more
  exact stands.advance

theorem atStatementEnd (stands : s.Stands (l :: ls) blocks pending) (ends : l.EndsLine) :
    s.atStatementEnd = true := by
  unfold ParseState.atStatementEnd
  rw [stands.kind]
  obtain rfl | rfl := ends <;> rfl

theorem not_atStatementEnd (stands : s.Stands (l :: ls) blocks pending)
    (named : l.kind = .identifier) : s.atStatementEnd = false := by
  unfold ParseState.atStatementEnd
  rw [stands.kind, named]

end Stands

theorem stands_start {tokens : List Token} (comments : List Comment) (stream : Stream tokens) :
    (start comments tokens).Stands (tokens.map Token.lexeme) [] none := by
  have ahead := ahead_start comments stream
  exact ⟨by rw [ahead], by rwa [ahead], rfl, rfl, rfl, rfl, rfl⟩

end ParseState

namespace Parse

variable {version : Version} {r : Rules} {s : ParseState} {l : Lexeme} {rest : List Lexeme}
  {blocks : List OpenBlock} {left : Option PendingNext}

theorem endStatement_ends (start : Location) (ends : s.atStatementEnd = true) :
    Ensures (endStatement start) s fun span t => span.start = start ∧ t = s := by
  refine .spanFrom (.atStatementEnd ?_)
  rw [ends]
  exact ⟨rfl, rfl⟩

-- Names

theorem operand_name {n : SimpleName} (faces : s.Faces (n.lexeme version :: rest))
    (closes : ClosesOperand rest) :
    Ensures (operand r) s fun found t =>
      (found.Alike n.expression ∧ found.isBad = false) ∧ t = s.advance := by
  refine (primary_name_advance n.span faces closes).bind fun found t named => ?_
  obtain ⟨⟨alike, good⟩, rfl⟩ := named
  rw [good]
  refine .get ((postfixes_stop _ found (faces.advance closes.ne_nil) closes).mono ?_)
  intro found' t stops
  obtain ⟨rfl, rfl⟩ := stops
  exact ⟨⟨alike, good⟩, rfl⟩

/-- A name is an expression where no operator follows that binds tighter. -/
theorem expression_name {pending : Precedence} {n : SimpleName}
    (faces : s.Faces (n.lexeme version :: rest)) (closes : ClosesOperand rest)
    (looser : ∀ op ∈ operatorAt? rest, op.precedence ≤ pending) :
    Ensures (expression r pending) s fun found t => found.Alike n.expression ∧ t = s.advance := by
  have plain : UnaryOperator.ofKind? s.current.kind = none := by
    rw [show s.current.kind = .identifier from faces.kind]
    rfl
  have unary : Ensures (unary r) s fun found t => found.Alike n.expression ∧ t = s.advance := by
    refine .peek ?_
    rw [plain]
    exact (operand_name faces closes).mono fun found t named => ⟨named.1.1, named.2⟩
  refine unary.bind fun found t named => ?_
  obtain ⟨alike, rfl⟩ := named
  refine .get ((binaries_stay _ found (faces.advance closes.ne_nil) looser).mono ?_)
  intro found' t stays
  obtain ⟨rfl, rfl⟩ := stays
  exact ⟨alike, rfl⟩

/-- A name is a value where no operator follows. -/
theorem value_name {k : Nat} {n : SimpleName}
    (stands : s.Stands (n.lexeme version :: rest) blocks left) (closes : ClosesOperand rest)
    (alone : operatorAt? rest = none) :
    Ensures (Rules.ofDepth version (k + 1)).value s fun found t =>
      found.Alike n.expression ∧ t.Stands rest blocks left ∧ s.here < t.here := by
  have reads : Ensures (expression (.ofDepth version k) .lowest) s fun found t =>
      found.Alike n.expression ∧ t = s.advance :=
    expression_name stands.faces closes (by simp [alone])
  refine Ensures.mono reads fun found t named => ?_
  obtain ⟨alike, rfl⟩ := named
  exact ⟨alike, stands.advance_of_ne_nil closes.ne_nil⟩

-- Lists of names

end Parse

/-- Names with commas between them. -/
def nameLexemes (version : Version) : List SimpleName → List Lexeme
  | [] => []
  | n :: names => n.lexeme version ::
      names.flatMap fun other => [.punctuator .comma, other.lexeme version]

/-- The word that ends a loop with the loop variables behind it. -/
def nextLexemes (version : Version) (names : List SimpleName) : List Lexeme :=
  .keyword .kwNext "Next" :: nameLexemes version names

namespace Parse

variable {version : Version} {r : Rules} {s : ParseState} {l : Lexeme} {rest : List Lexeme}
  {blocks : List OpenBlock} {left : Option PendingNext} {k : Nat}

/-- One of several values, which says that more may follow. -/
def valueItem (r : Rules) (_ : Unit) : Parse (Expression × Option Unit) := do
  return (← r.value, some ())

theorem valueItem_name {n : SimpleName} (stands : s.Stands (n.lexeme version :: rest) blocks left)
    (closes : ClosesOperand rest) (alone : operatorAt? rest = none) :
    Ensures (valueItem (.ofDepth version (k + 1)) ()) s fun found t =>
      (∃ value, found = (value, some ()) ∧ value.Alike n.expression) ∧
        t.Stands rest blocks left ∧ s.here < t.here := by
  refine (value_name stands closes alone).bind fun value t named => ?_
  exact ⟨⟨value, rfl, named.1⟩, named.2⟩

theorem separatedFrom_names {names : List SimpleName} {n : SimpleName} (ends : l.EndsLine)
    {fuel : Nat} (enough : names.length ≤ fuel)
    (stands : s.Stands (nameLexemes version (n :: names) ++ l :: rest) blocks left) :
    Ensures (separatedFrom (valueItem (.ofDepth version (k + 1))) fuel ()) s fun found t =>
      List.Forall₂ Expression.Alike found.items ((n :: names).map SimpleName.expression) ∧
        t.Stands (l :: rest) blocks left ∧ s.here < t.here := by
  induction names generalizing s n fuel with
  | nil =>
    have item := valueItem_name (k := k) stands (ends.closes rest) (ends.noOperator rest)
    cases fuel with
    | zero =>
      rw [separatedFrom]
      refine item.bind fun found t read => ?_
      obtain ⟨⟨value, rfl, alike⟩, after⟩ := read
      exact ⟨.cons alike .nil, after⟩
    | succ fuel =>
      rw [separatedFrom]
      refine item.bind fun found t read => ?_
      obtain ⟨⟨value, rfl, alike⟩, after⟩ := read
      have absent : t.kind ≠ .mark .comma := by
        rw [after.1.kind]
        obtain rfl | rfl := ends <;> simp [Lexeme.kind]
      refine (eatPlace_absent absent).bind fun place u eaten => ?_
      obtain ⟨rfl, rfl⟩ := eaten
      exact ⟨.cons alike .nil, after⟩
  | cons other names ih =>
    obtain ⟨fuel, rfl⟩ : ∃ m, fuel = m + 1 := ⟨fuel - 1, by simp at enough; omega⟩
    have item := valueItem_name (k := k) stands (by simp [ClosesOperand, Lexeme.kind]) rfl
    rw [separatedFrom]
    refine item.bind fun found t read => ?_
    obtain ⟨⟨value, rfl, alike⟩, after, later⟩ := read
    have present : t.kind = .mark .comma := after.kind
    obtain ⟨behind, moved⟩ := after.advance
    refine (eatPlace_present present).bind fun place u eaten => ?_
    obtain ⟨⟨comma, rfl⟩, rfl⟩ := eaten
    have more := ih (n := other) (by simpa using enough) behind
    refine more.bind fun found u read => ?_
    obtain ⟨alikes, after, later'⟩ := read
    exact ⟨.cons alike alikes, after, Nat.lt_trans (Nat.lt_trans later moved) later'⟩

theorem values_names {names : List SimpleName} {n : SimpleName} (ends : l.EndsLine)
    (stands : s.Stands (nameLexemes version (n :: names) ++ l :: rest) blocks left) :
    Ensures (values (.ofDepth version (k + 1))) s fun found t =>
      List.Forall₂ Expression.Alike found.items ((n :: names).map SimpleName.expression) ∧
        t.Stands (l :: rest) blocks left ∧ s.here < t.here := by
  have enough : names.length ≤ s.remaining := by
    have length := stands.remaining
    simp only [nameLexemes, List.length_append, List.length_cons, List.length_flatMap] at length
    simp at length
    omega
  have separated := separatedFrom_names (k := k) ends enough stands
  exact (Ensures.get separated).bind fun found t read => read

/-- A line that closes loops: it names the loop variables in order, or none. -/
theorem nextLine_reads {names : List SimpleName} (ends : l.EndsLine)
    (stands : s.Stands (nextLexemes version names ++ l :: rest) blocks left) :
    Ensures (nextLine (.ofDepth version (k + 1))) s fun found t =>
      (List.Forall₂ Expression.Alike found.loopVariables.items (names.map SimpleName.expression) ∧
        found.span.start = s.current.span.start) ∧
        t.Stands (l :: rest) blocks left ∧ s.here < t.here := by
  have more : nameLexemes version names ++ l :: rest ≠ [] := by simp
  obtain ⟨stands', moved⟩ := stands.advance_of_ne_nil more
  refine ensures_read (.atStatementEnd (.branch (p := do pure (CommaList.empty (← here)))
    (P := fun found t => List.Forall₂ Expression.Alike found.items
      (names.map SimpleName.expression) ∧ t.Stands (l :: rest) blocks left ∧ s.here < t.here)
    (fun ended => ?_) (fun unended => ?_) fun found t read => ?_))
  · cases names with
    | nil => exact ⟨.nil, stands', moved⟩
    | cons n names => rw [stands'.not_atStatementEnd rfl] at ended; contradiction
  · cases names with
    | nil => exact absurd (stands'.atStatementEnd ends) unended
    | cons n names =>
      refine Ensures.mono (values_names ends stands') fun found t read => ?_
      exact ⟨read.1, read.2.1, Nat.lt_trans moved read.2.2⟩
  · obtain ⟨alike, after, later⟩ := read
    refine (endStatement_ends _ (after.atStatementEnd ends)).bind fun span u ended => ?_
    obtain ⟨start, rfl⟩ := ended
    exact ⟨⟨alike, start⟩, after, later⟩

-- Statements

end Parse

/-- The statement gives one name the value of another. -/
def Statement.Assigns (target source : SimpleName) : Statement → Prop
  | .assignment a =>
    a.keyword = none ∧ a.target.Alike target.expression ∧ a.source.Alike source.expression
  | _ => False

/-- The line that opens a loop: the loop variable with its first value and its last. -/
structure LoopHead where
  control : SimpleName
  lower : SimpleName
  upper : SimpleName

def LoopHead.lexemes (version : Version) (h : LoopHead) : List Lexeme :=
  [.keyword .kwFor "For", h.control.lexeme version, .punctuator .equals, h.lower.lexeme version,
    .keyword .kwTo "To", h.upper.lexeme version]

structure ForBlock.OpensWith (d : ForBlock Statement) (h : LoopHead) : Prop where
  control : ∃ value, d.control = .expression value ∧ value.Alike h.control.expression
  lower : d.lower.Alike h.lower.expression
  upper : d.upper.Alike h.upper.expression
  step : d.step = none

namespace Parse

variable {version : Version} {r : Rules} {b : Bodies} {s : ParseState} {l : Lexeme}
  {rest : List Lexeme} {blocks : List OpenBlock} {left : Option PendingNext} {k : Nat}

/-- Outside scripts a line that is no terminator is a plain statement. -/
theorem statement_plain {Q : Statement → ParseState → Prop} (compiled : b.isScript = false)
    (starts : s.terminator? = none)
    (plain : Ensures (plainStatement r b) { s with suppressed := false } Q) :
    Ensures (statement r b) s Q := by
  have none : { s with suppressed := false }.terminator? = none := starts
  refine .beginConstruct (.get ?_)
  rw [none, compiled]
  exact plain

theorem statement_assigns {target source : SimpleName} (compiled : b.isScript = false)
    (ends : l.EndsLine)
    (stands : s.Stands (target.lexeme version :: .punctuator .equals ::
      source.lexeme version :: l :: rest) blocks left) :
    Ensures (statement (.ofDepth version (k + 1)) b) s fun found t =>
      found.Assigns target source ∧ t.Stands (l :: rest) blocks left := by
  have kind : s.kind = .identifier := stands.kind
  have starts : s.terminator? = none := by
    rw [ParseState.terminator?, kind]
    rfl
  refine statement_plain compiled starts ?_
  replace stands := stands.begin
  have kind : { s with suppressed := false }.kind = .identifier := kind
  generalize { s with suppressed := false } = s at stands kind ⊢
  have noLabel : (s.kindAfter == .mark .colon) = false := by
    rw [stands.kindAfter]
    rfl
  have noGroup : s.atMidAssignment = false := by
    obtain ⟨t, more, follows, lexeme⟩ := stands.faces.exists_following
    have equals : t.kind ≠ .mark .leftParenthesis := by
      simp [Token.kind, lexeme, Lexeme.kind]
    simp [ParseState.atMidAssignment, follows, Lookahead.kindBehindGroup?, equals]
  refine .get ?_
  rw [kind]
  simp only [noLabel, Bool.false_and, Bool.false_eq_true, if_false, noGroup]
  have named := operand_name (r := .ofDepth version (k + 1)) stands.faces
    (by simp [ClosesOperand, Lexeme.kind])
  refine Ensures.bind named fun found t read => ?_
  obtain ⟨⟨alike, -⟩, rfl⟩ := read
  obtain ⟨behind, -⟩ := stands.advance
  have equals : s.advance.current.kind = .mark .equals := behind.kind
  refine .peek ?_
  rw [if_pos equals]
  obtain ⟨behind, -⟩ := behind.advance
  refine ensures_skip ((value_name behind (ends.closes rest) (ends.noOperator rest)).bind ?_)
  intro value u read
  obtain ⟨alike', after, -⟩ := read
  refine (endStatement_ends _ (after.atStatementEnd ends)).bind fun span v ended => ?_
  obtain ⟨-, rfl⟩ := ended
  exact ⟨⟨rfl, alike, alike'⟩, after⟩

theorem forControl_name {n : SimpleName} (closes : ClosesOperand (l :: rest))
    (looser : ∀ op ∈ operatorAt? (l :: rest), op.precedence ≤ .relational)
    (undeclared : l.kind ≠ .word .kwAs)
    (stands : s.Stands (n.lexeme version :: l :: rest) blocks left) :
    Ensures (forControl r) s fun found t =>
      (∃ value, found = .expression value ∧ value.Alike n.expression) ∧ t = s.advance := by
  have plain : declaresVariable s = false := by
    unfold declaresVariable
    rw [stands.kindAfter]
    simp only [ClosesOperand, List.mem_cons, not_or] at closes
    simp [closes.2.2.1]
  refine .get ?_
  rw [plain]
  refine Ensures.bind (expression_name (r := r) stands.faces closes looser) fun value t read => ?_
  exact ⟨⟨value, rfl, read.1⟩, read.2⟩

/-- A loop is its first line and what its body and end are. -/
theorem forStatement_opens {h : LoopHead}
    {P : Statements × Option NextStatement × Option Expression → ParseState → Prop}
    (ends : l.EndsLine)
    (stands : s.Stands (h.lexemes version ++ l :: rest) blocks left)
    (body : ∀ header t, t.Stands (l :: rest) blocks left →
      Ensures (forBody (.ofDepth version (k + 1)) b header) t P) :
    Ensures (forStatement (.ofDepth version (k + 1)) b) s fun found t =>
      ∃ d, found = .forBlock d ∧ d.OpensWith h ∧ P (d.body, d.ending, d.endingVariable) t := by
  obtain ⟨first, -⟩ := stands.advance
  have single : s.advance.kind ≠ .word .kwEach := by
    rw [first.kind]
    simp [SimpleName.lexeme, Lexeme.kind]
  refine ensures_read ((eat_absent single).bind fun token t eaten => ?_)
  obtain ⟨rfl, rfl⟩ := eaten
  have loose : ∀ op ∈ operatorAt? (.punctuator .equals :: (h.lower.lexeme version ::
      .keyword .kwTo "To" :: h.upper.lexeme version :: l :: rest)), op.precedence ≤ .relational := by
    intro op member
    obtain rfl : BinaryOperator.equals = op := Option.some.inj member
    exact Nat.le_refl _
  have controlled := forControl_name (r := .ofDepth version (k + 1))
    (by simp [ClosesOperand, Lexeme.kind]) loose (by simp [Lexeme.kind]) first
  refine Ensures.bind controlled fun control t read => ?_
  obtain ⟨control, rfl⟩ := read
  obtain ⟨equals, -⟩ := first.advance
  refine (expectPlace_present equals.kind).bind fun place t read => ?_
  obtain ⟨-, rfl⟩ := read
  obtain ⟨value, -⟩ := equals.advance
  refine (value_name value (by simp [ClosesOperand, Lexeme.kind]) rfl).bind fun lower t read => ?_
  obtain ⟨lower, word, -⟩ := read
  refine (expectPlace_present word.kind).bind fun place t read => ?_
  obtain ⟨-, rfl⟩ := read
  obtain ⟨value, -⟩ := word.advance
  refine (value_name value (ends.closes rest) (ends.noOperator rest)).bind fun upper t read => ?_
  obtain ⟨upper, after, -⟩ := read
  have noStep : t.kind ≠ .word .kwStep := by
    rw [after.kind]
    obtain rfl | rfl := ends <;> simp [Lexeme.kind]
  have step : Ensures (whenEaten (.word .kwStep) (Rules.ofDepth version (k + 1)).value) t
      fun found u => found = none ∧ u = t := by
    refine (eat_absent noStep).bind fun token u eaten => ?_
    obtain ⟨rfl, rfl⟩ := eaten
    exact ⟨rfl, rfl⟩
  refine step.bind fun step u read => ?_
  obtain ⟨rfl, rfl⟩ := read
  refine (endStatement_ends _ (after.atStatementEnd ends)).bind fun header v ended => ?_
  obtain ⟨-, rfl⟩ := ended
  refine (body header v after).bind fun found w holds => ?_
  exact ⟨_, rfl, ⟨control, lower, upper, rfl⟩, holds⟩

end Parse

end VisualBasic
