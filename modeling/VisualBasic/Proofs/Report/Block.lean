import VisualBasic.Parse.BlockStatement
import VisualBasic.Proofs.Report.Directive
import VisualBasic.Proofs.Report.Statement

/-!
Blocks keep account of the order of their parts.  A part behind one that has to be the last is reported
where it begins, and read like any other; nothing else in a block is reported as out of order.
-/

set_option autoImplicit false

namespace VisualBasic

/-- The rules for bodies keep account of the order of the parts in them. -/
structure Bodies.Tallies (k : Problem) (b : Bodies) : Prop where
  statements : ∀ m, VisualBasic.Tallies k m b.statements fun found =>
    m + Node.disorders k (Node.ofStatements found.1)
  line : ∀ m, VisualBasic.Tallies k m b.line fun found =>
    m + Node.disorders k (Node.ofStatements found)
  declarations : ∀ container m, VisualBasic.Tallies k m (b.declarations container) fun found =>
    m + Node.disorders k (Node.ofDeclarations found.1)

/-- A rule for a statement that keeps account of the parts in it. -/
abbrev TalliesStatement (k : Problem) (p : Parse Statement) : Prop :=
  ∀ m, Tallies k m p fun st => m + Node.disorder k (Node.ofStatement st)

namespace Calm

open Parse

variable {r : Rules}

theorem takeEnd (kind : BlockKind) (terminator : Option Terminator) : Calm (takeEnd kind terminator) := by
  unfold Parse.takeEnd
  split
  · exact .bind .beginConstruct fun _ => .behind (.endBlock kind) fun _ => .pure
  · exact .pure

theorem takeLoop (phrases : r.Quiet) (hasCondition : Bool) (terminator : Option Terminator) :
    Calm (takeLoop r hasCondition terminator) := by
  unfold Parse.takeLoop
  split
  · refine .bind .beginConstruct fun _ => .behind (.loopLine phrases) fun ending => ?_
    extract_lets rest
    split
    · exact .behind (.report rfl) fun _ => .pure
    · exact .bind .pure fun _ => .pure
  · exact .pure

theorem next (phrases : r.Quiet) : Calm (next r) := by
  refine .get (fun _ _ => rfl) fun s => ?_
  extract_lets rest
  have closes (found : NextStatement × Nat) : Calm (rest found) := by
    refine .bind (.modify fun s t beside => ?_) fun _ => .pure
    exact beside.ofCore (g := fun s => { s with
        pendingNext :=
          if found.1.loopVariables.items.length ≤ found.2 + 1 then none
          else some ⟨found.1, found.2 + 1⟩ })
      (fun _ _ => rfl) rfl rfl rfl
  split
  · exact .bind .pure fun _ => closes _
  · exact .bind .beginConstruct fun _ => .behind (.nextLine phrases) fun _ => .bind .pure fun _ =>
      closes _

end Calm

namespace Quiet

open Parse

variable {r : Rules}

theorem forControl (phrases : r.Quiet) : Quiet (forControl r) := by
  refine .get (fun _ _ => rfl) fun s => ?_
  split
  · exact .bind (.loopDeclarator phrases) fun _ => .pure
  · exact .bind (.expression phrases _) fun _ => .pure

theorem lineEndIf : Quiet lineEndIf := by
  refine .bind (.check _) fun atEnd => .bind .kindAfter fun after => ?_
  split
  · exact .bind .read fun _ => .bind .skip fun _ => .bind (.spanFrom _) fun _ => .pure
  · exact .pure

theorem usingResource (phrases : r.Quiet) : Quiet (usingResource r) := by
  refine .bind (.check _) fun named => .bind .kindAfter fun after => ?_
  split
  · exact .bind (.variableDeclarators phrases _) fun _ => .pure
  · exact .bind phrases.value fun _ => .pure

end Quiet

namespace Tallies

open Parse

variable {α : Type} {k : Problem} {m : Nat} {p : Parse α} {c : α → Nat} {r : Rules} {b : Bodies}

theorem within (order : k.isOrder = true) (block : OpenBlock) (body : Tallies k m p c) :
    Tallies k m (within block p) c := by
  refine .quietly order (.modify fun s t beside => ?_) fun _ => .bind body fun found =>
    .quietly order (.modify fun s t beside => ?_) fun _ => .pure rfl
  · exact beside.ofCore (g := fun s => { s with blocks := block :: s.blocks })
      (fun _ _ => rfl) rfl rfl rfl
  · exact beside.ofCore (g := fun s => { s with blocks := s.blocks.tail })
      (fun _ _ => rfl) rfl rfl rfl

theorem withinLineIf (order : k.isOrder = true) (body : Tallies k m p c) :
    Tallies k m (withinLineIf p) c := by
  refine .quietly order (.modify fun s t beside => ?_) fun _ => .bind body fun found =>
    .quietly order (.modify fun s t beside => ?_) fun _ => .pure rfl
  · exact beside.ofCore (g := fun s => { s with lineIfDepth := s.lineIfDepth + 1 })
      (fun _ _ => rfl) rfl rfl rfl
  · exact beside.ofCore (g := fun s => { s with lineIfDepth := s.lineIfDepth - 1 })
      (fun _ _ => rfl) rfl rfl rfl

variable (order : k.isOrder = true) (bodies : b.Tallies k)
include order bodies

-- Conditions

section

variable {γ π : Type} {last : π → Bool} {misplaced : π → Problem} {node : π → Node} {seen : Bool}

/-- A further part of a block, and the parts behind it. -/
theorem part {seen' : Bool} (problem : Problem) (header : Parse γ)
    (following : Option Terminator → Parse (List π × Option EndBlock)) (build : γ → Statements → π)
    (head : Quiet header)
    (further : ∀ terminator m, Tallies k m (following terminator) fun found =>
      m + disorderOfParts k last misplaced node seen' found.1)
    (known : ∀ h body, (seen || last (build h body)) = seen')
    (named : ∀ h body, misplaced (build h body) = problem)
    (direct : ∀ h body, Node.disorder k (node (build h body)) =
      Node.disorders k (Node.ofStatements body)) :
    Tallies k m (do
        beginConstruct
        if seen then report problem (← peek).span
        let header ← header
        let (body, terminator) ← b.statements
        let (parts, ending) ← following terminator
        return (build header body :: parts, ending))
      fun found => m + disorderOfParts k last misplaced node seen found.1 := by
  refine .opens (.quietly order head fun h => .bind (bodies.statements _) fun found => ?_)
  refine .bind (further _ _) fun found => .pure ?_
  simp only [disorderOfParts_cons, known, named, direct]
  omega

omit bodies in
/-- There are no further parts. -/
theorem noPart {kind : BlockKind} {terminator : Option Terminator} :
    Tallies k m (do return (([] : List π), ← takeEnd kind terminator)) fun found =>
      m + disorderOfParts k last misplaced node seen found.1 :=
  .after order (.takeEnd kind terminator) fun _ => .pure (by rw [disorderOfParts_nil, Nat.add_zero])

end

theorem statementBody (kind : BlockKind) (header : Span) (m : Nat) :
    Tallies k m (statementBody b kind header) fun found =>
      m + Node.disorders k (Node.ofStatements found.1) :=
  within order _ (bodies.statements m)

theorem lineIf (start : Location) (condition : Expression) (thenKeyword : Location) :
    TalliesStatement k (lineIf b start condition thenKeyword) := by
  intro m
  refine .bind (c := fun found => m + (Node.disorders k (Node.ofStatements found.1) +
    Node.disorders k (found.2.2.map Node.ofStatements).toList.flatten))
    (withinLineIf order (.bind (bodies.line m) fun found => .quietly order (.eatPlace _) fun other =>
      ?_)) fun found => ?_
  · split
    · exact .bind (bodies.line _) fun _ => .pure (by simp; omega)
    · exact .pure rfl
  · refine .quietly order .lineEndIf fun ending => .quietly order (.spanFrom _) fun span => .pure ?_
    show _ = m + Node.disorder k (.statement (.lineIf _))
    rw [Node.disorder_of_isDirect rfl]
    simp [Node.lists, Node.misplaced, Node.parts]

omit order bodies in
/-- Statements before the first case are reported once, whatever they are. -/
theorem leadingStatements {leading : Statements} {rest : Unit → Parse α}
    (next : Tallies k
      (m + (if leading.statements.isEmpty then [] else [Problem.expectedCase]).count k) (rest ()) c) :
    Tallies k m (if leading.statements.isEmpty then rest () else
      beginConstruct >>= fun _ => report .expectedCase leading.span >>= rest) c := by
  revert next
  cases leading.statements.isEmpty with
  | true => exact id
  | false => exact .reports

variable (phrases : r.Quiet)
include phrases

theorem ifParts (n : Nat) (seen : Bool) (terminator : Option Terminator) (m : Nat) :
    Tallies k m (ifParts r b n seen terminator) fun found =>
      m + disorderOfParts k IfPart.isElse IfPart.misplaced Node.ifPart seen found.1 := by
  fun_induction Parse.ifParts r b n seen terminator generalizing m with
  | case1 n seen ih =>
    exact part order bodies .elseIfAfterElse (elseIfLine r) (Parse.ifParts r b n seen)
      (fun header body => .elseIf header body (header.span.merge body.span)) (.elseIfLine phrases)
      ih (fun _ _ => Bool.or_false _) (fun _ _ => rfl)
      fun _ _ => Node.disorder_of_list rfl rfl rfl rfl
  | case2 n seen ih =>
    exact part order bodies .elseAfterElse wordLine (Parse.ifParts r b n true)
      (fun header body => .elsePart header body (header.merge body.span)) .wordLine
      ih (fun _ _ => Bool.or_true _) (fun _ _ => rfl)
      fun _ _ => Node.disorder_of_list rfl rfl rfl rfl
  | case3 => exact noPart order

theorem tryParts (n : Nat) (seen : Bool) (terminator : Option Terminator) (m : Nat) :
    Tallies k m (tryParts r b n seen terminator) fun found =>
      m + disorderOfParts k TryPart.isFinally TryPart.misplaced Node.tryPart seen found.1 := by
  fun_induction Parse.tryParts r b n seen terminator generalizing m with
  | case1 n seen ih =>
    exact part order bodies .catchAfterFinally (catchLine r) (Parse.tryParts r b n seen)
      (fun header body => .catchPart header body (header.span.merge body.span)) (.catchLine phrases)
      ih (fun _ _ => Bool.or_false _) (fun _ _ => rfl)
      fun _ _ => Node.disorder_of_list rfl rfl rfl rfl
  | case2 n seen ih =>
    exact part order bodies .finallyAfterFinally wordLine (Parse.tryParts r b n true)
      (fun header body => .finallyPart header body (header.merge body.span)) .wordLine
      ih (fun _ _ => Bool.or_true _) (fun _ _ => rfl)
      fun _ _ => Node.disorder_of_list rfl rfl rfl rfl
  | case3 => exact noPart order

theorem caseBlocks (n : Nat) (seen : Bool) (terminator : Option Terminator) (m : Nat) :
    Tallies k m (caseBlocks r b n seen terminator) fun found =>
      m + disorderOfParts k CaseBlock.isElse CaseBlock.misplaced Node.caseBlock seen found.1 := by
  fun_induction Parse.caseBlocks r b n seen terminator generalizing m with
  | case1 n seen ih =>
    exact part order bodies .caseAfterCaseElse (caseLine r) (Parse.caseBlocks r b n seen)
      (fun header body => ⟨.case header, body, header.span.merge body.span⟩) (.caseLine phrases)
      ih (fun _ _ => Bool.or_false _) (fun _ _ => rfl)
      fun _ _ => Node.disorder_of_list rfl rfl rfl rfl
  | case2 n seen ih =>
    exact part order bodies .caseElseAfterCaseElse caseElseLine (Parse.caseBlocks r b n true)
      (fun header body => ⟨.caseElse header, body, header.merge body.span⟩) .caseElseLine
      ih (fun _ _ => Bool.or_true _) (fun _ _ => rfl)
      fun _ _ => Node.disorder_of_list rfl rfl rfl rfl
  | case3 => exact noPart order

-- Conditions

theorem ifBlock (start : Location) (condition : Expression) (thenKeyword : Option Location) :
    TalliesStatement k (ifBlock r b start condition thenKeyword) := by
  intro m
  refine .quietly order (.expectThen _) fun _ => .quietly order (.endStatement _) fun header => ?_
  refine .bind (c := fun found => m + (Node.disorders k (Node.ofStatements found.1) +
    disorderOfParts k IfPart.isElse IfPart.misplaced Node.ifPart false found.2.1))
    (within order _ (.bind (bodies.statements m) fun found => .get (fun _ _ => rfl) fun s =>
      .bind (ifParts order bodies phrases _ _ _ _) fun more => .pure ?_)) fun found => ?_
  · exact (Nat.add_assoc _ _ _)
  · refine .quietly order (.spanFrom _) fun span => .pure ?_
    rw [Node.disorder_ifBlock]

theorem ifStatement : TalliesStatement k (ifStatement r b) := by
  intro m
  refine .quietly order .read fun start => .quietly order phrases.value fun condition =>
    .quietly order (.eatPlace _) fun thenKeyword => .quietly order .peekKind fun kind => ?_
  split
  · exact lineIf order bodies _ _ _ m
  · exact ifBlock order bodies phrases _ _ _ m

-- Loops

theorem doBlock : TalliesStatement k (doBlock r b) := by
  intro m
  exact .quietly order .read fun start => .quietly order (.loopCondition phrases) fun condition =>
    .quietly order (.endStatement _) fun header => .bind (statementBody order bodies _ _ m) fun found =>
    .after order (.takeLoop phrases _ _) fun ending => .quietly order (.spanFrom _) fun span =>
    .holds rfl rfl rfl rfl

theorem forBody (header : Span) (m : Nat) : Tallies k m (forBody r b header) fun found =>
    m + Node.disorders k (Node.ofStatements found.1) := by
  refine within order _ (.bind (bodies.statements m) fun ⟨body, terminator⟩ => ?_)
  dsimp only
  split
  · refine .after order (.next phrases) fun closing => ?_
    exact .pure rfl
  · exact .pure rfl

theorem forEachBlock (start : Location) : TalliesStatement k (forEachBlock r b start) := by
  intro m
  exact .quietly order (.forControl phrases) fun control =>
    .quietly order (.expectPlace _ rfl) fun inKeyword => .quietly order phrases.value fun collection =>
    .quietly order (.endStatement _) fun header => .bind (forBody order bodies phrases _ m) fun found =>
    .quietly order (.spanFrom _) fun span =>
    .holds rfl rfl rfl rfl

theorem forBlock (start : Location) : TalliesStatement k (forBlock r b start) := by
  intro m
  exact .quietly order (.forControl phrases) fun control =>
    .quietly order (.expectPlace _ rfl) fun equals => .quietly order phrases.value fun lower =>
    .quietly order (.expectPlace _ rfl) fun toKeyword => .quietly order phrases.value fun upper =>
    .quietly order (.whenEaten phrases.value) fun step =>
    .quietly order (.endStatement _) fun header => .bind (forBody order bodies phrases _ m) fun found =>
    .quietly order (.spanFrom _) fun span =>
    .holds rfl rfl rfl rfl

theorem forStatement : TalliesStatement k (forStatement r b) := by
  intro m
  refine .quietly order .read fun start => .quietly order (.eat _) fun each => ?_
  split
  · exact forEachBlock order bodies phrases _ m
  · exact forBlock order bodies phrases _ m

theorem whileBlock : TalliesStatement k (whileBlock r b) := by
  intro m
  exact .quietly order .read fun start => .quietly order phrases.value fun condition =>
    .quietly order (.endStatement _) fun header => .bind (statementBody order bodies _ _ m) fun found =>
    .after order (.takeEnd _ _) fun ending => .quietly order (.spanFrom _) fun span =>
    .holds rfl rfl rfl rfl

-- Objects

theorem objectBlock (kind : ObjectBlockKind) : TalliesStatement k (objectBlock r b kind) := by
  intro m
  exact .quietly order .read fun start => .quietly order phrases.value fun object =>
    .quietly order (.endStatement _) fun header => .bind (statementBody order bodies _ _ m) fun found =>
    .after order (.takeEnd _ _) fun ending => .quietly order (.spanFrom _) fun span =>
    .holds rfl rfl rfl rfl

theorem usingBlock : TalliesStatement k (usingBlock r b) := by
  intro m
  exact .quietly order .read fun start => .quietly order (.usingResource phrases) fun resource =>
    .quietly order (.endStatement _) fun header => .bind (statementBody order bodies _ _ m) fun found =>
    .after order (.takeEnd _ _) fun ending => .quietly order (.spanFrom _) fun span =>
    .holds rfl rfl rfl rfl

-- Exceptions and selections

theorem tryBlock : TalliesStatement k (tryBlock r b) := by
  intro m
  refine .quietly order .read fun start => .quietly order (.endStatement _) fun header => ?_
  refine .bind (c := fun found => m + (Node.disorders k (Node.ofStatements found.1) +
    disorderOfParts k TryPart.isFinally TryPart.misplaced Node.tryPart false found.2.1))
    (within order _ (.bind (bodies.statements m) fun found => .get (fun _ _ => rfl) fun s =>
      .bind (tryParts order bodies phrases _ _ _ _) fun more => .pure ?_)) fun found => ?_
  · exact (Nat.add_assoc _ _ _)
  · refine .quietly order (.spanFrom _) fun span => .pure ?_
    rw [Node.disorder_tryBlock]

theorem selectBlock : TalliesStatement k (selectBlock r b) := by
  intro m
  refine .quietly order .read fun start => .quietly order (.eatPlace _) fun caseKeyword =>
    .quietly order phrases.value fun subject => .quietly order (.endStatement _) fun header => ?_
  refine .bind (c := fun found => m + (
      (if found.1.statements.isEmpty then [] else [Problem.expectedCase]).count k +
      Node.disorders k (Node.ofStatements found.1) +
    disorderOfParts k CaseBlock.isElse CaseBlock.misplaced Node.caseBlock false found.2.1))
    (within order _ (.bind (bodies.statements m) fun found => ?_)) fun found => ?_
  · refine leadingStatements (.get (fun _ _ => rfl) fun s =>
      .bind (caseBlocks order bodies phrases _ _ _ _) fun more => .pure ?_)
    simp only
    omega
  · refine .quietly order (.spanFrom _) fun span => .pure ?_
    rw [Node.disorder_selectBlock]

end Tallies

end VisualBasic
