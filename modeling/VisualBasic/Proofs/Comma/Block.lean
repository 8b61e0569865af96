import VisualBasic.Parse.BlockStatement
import VisualBasic.Proofs.Comma.Statement
import VisualBasic.Proofs.Parse.Bodies

/-!
Statements that hold other statements.  The `Next` that closes a loop may have been read before the
loop, so nothing is said of where its variables stand.
-/

set_option autoImplicit false

namespace VisualBasic

/-- The rules for bodies write the statements and declarations that they give. -/
structure Bodies.Punctuates (b : Bodies) : Prop where
  statements : Writes b.statements (fun found => Node.ofStatements found.1) fun _ => []
  line : Writes b.line Node.ofStatements fun _ => []
  declarations : ∀ container, Writes (b.declarations container)
    (fun found => Node.ofDeclarations found.1) fun _ => []

/-- The `Next` that closes a loop is consistent, and it names the variable of the loop. -/
structure Closes (clean : Prop) (ending : Option NextStatement) (named : Option Expression) : Prop where
  punctuated : ∀ next, ending = some next → next.IsPunctuated clean
  names : ∀ v, named = some v → ∃ next, ending = some next ∧ v ∈ next.loopVariables.items

/-- The statements of a block and the parts behind them. -/
def Node.ofParted {π : Type} (node : π → Node) (found : Statements × List π × Option EndBlock) :
    List Node :=
  ofStatements found.1 ++ found.2.1.map node

namespace Writ

variable {o t : ParseState} {n : Node} {ns : List Node}

/-- A `Next` that has been read is consistent. -/
theorem next {next : NextStatement}
    (so : Writ o t (next.loopVariables.items.map .expression) (Punctuation.ofNext (some next))) :
    next.IsPunctuated (t.diagnostics = []) :=
  ⟨so.lists _ List.mem_cons_self, fun _ member => so.nodes _ (List.mem_map_of_mem member)⟩

/-- What has been read becomes the parts of a loop. -/
theorem loop {ending : Option NextStatement} {named : Option Expression} (so : Writ o t ns [])
    (closes : Closes (t.diagnostics = []) ending named) (isItem : n.isPhrase = false)
    (children : n.children = ns ++ Node.ofOption .expression named)
    (own : (n.punctuation, n.closing?)
      = (Punctuation.ofNext ending, ending.map fun next => (next, named))) :
    Writ o t [n] [] := by
  obtain ⟨punctuation, closing⟩ := Prod.mk.inj own
  have lists : n.HoldsLists (t.diagnostics = []) := by
    intro p member
    rw [punctuation] at member
    cases ending with
    | none => cases member
    | some next => exact List.mem_singleton.1 member ▸ (closes.punctuated next rfl).list
  have others (v : Expression) (member : v ∈ n.closingVariables) :
      (Node.expression v).Everywhere (Node.HoldsLists (t.diagnostics = [])) := by
    rw [Node.closingVariables, closing] at member
    cases ending with
    | none => cases member
    | some next => exact ((closes.punctuated next rfl).each v member).mono fun _ holds => holds.1
  have below (c : Node) (member : c ∈ n.children) :
      c.Everywhere (Node.IsPunctuated (t.diagnostics = [])) := by
    rw [children] at member
    rcases List.mem_append.1 member with part | last
    · exact so.nodes c part
    · obtain ⟨v, same, rfl⟩ : ∃ v, named = some v ∧ .expression v = c := by
        simpa [Node.ofOption] using last
      obtain ⟨next, closed, member⟩ := closes.names v same
      exact (closes.punctuated next closed).each v member
  exact ⟨so.onward, List.forall_mem_singleton.2 fun phrase => by simp [isItem] at phrase,
    List.forall_mem_singleton.2 (Node.everywhere_iff.2 ⟨⟨lists, others⟩, below⟩),
    List.forall_mem_nil _⟩

end Writ

namespace Parse

variable {α : Type} {r : Rules} {b : Bodies} {o s t : ParseState} {p : Parse α}
  {nodes : α → List Node} {lists : α → List Punctuation}

-- Opening and leaving a block

theorem within_writes (block : OpenBlock) (nodes : α → List Node) (lists : α → List Punctuation)
    (writes : Writes p nodes lists) : Writes (within block p) nodes lists := by
  intro s sane
  have opened := sane.aside (block :: s.blocks) s.lineIfDepth s.directives s.tables
  refine within_ensures (((Writ.refl sane).onto opened).part writes) fun a t so => ?_
  exact so.onto (so.sane.aside t.blocks.tail t.lineIfDepth t.directives t.tables)

theorem withinLineIf_writes (nodes : α → List Node) (lists : α → List Punctuation)
    (writes : Writes p nodes lists) : Writes (withinLineIf p) nodes lists := by
  intro s sane
  have opened := sane.aside s.blocks (s.lineIfDepth + 1) s.directives s.tables
  have so : Ensures p { s with lineIfDepth := s.lineIfDepth + 1 } fun a t =>
      Writ s t (nodes a) (lists a) := ((Writ.refl sane).onto opened).part writes
  exact so.onto (so.sane.aside _ _ _ _)

theorem statementBody_writes (bodies : b.Punctuates) (kind : BlockKind) (header : Span) :
    Writes (statementBody b kind header) (fun found => Node.ofStatements found.1) fun _ => [] :=
  within_writes _ _ _ bodies.statements

theorem declarationBody_writes (bodies : b.Punctuates) (kind : BlockKind) (header : Span)
    (container : Container) :
    Writes (declarationBody b kind header container) (fun found => Node.ofDeclarations found.1)
      fun _ => [] :=
  within_writes _ _ _ (bodies.declarations container)

theorem takeEnd_proceeds (kind : BlockKind) (terminator : Option Terminator) :
    Proceeds (takeEnd kind terminator) := by
  unfold takeEnd
  split
  · exact .bind .beginConstruct fun _ => .bind (endBlock_proceeds kind) fun _ => .pure
  · exact .pure

-- Parts of blocks

/-- A further part of a block, and the parts behind it. -/
theorem part_writes {γ π : Type} {header : Parse γ} {line : γ → List Node}
    {listed : γ → List Punctuation} {node : π → Node} (bodies : b.Punctuates) (seen : Bool)
    (problem : Problem) (following : Option Terminator → Parse (List π × Option EndBlock))
    (build : γ → Statements → π) (head : Writes header line listed)
    (further : ∀ terminator, Writes (following terminator) (fun found => found.1.map node) fun _ => [])
    (isItem : ∀ h body, (node (build h body)).isPhrase = false)
    (children : ∀ h body, (node (build h body)).children = line h ++ Node.ofStatements body)
    (own : ∀ h body, ((node (build h body)).punctuation, (node (build h body)).closing?)
      = (listed h, none)) :
    Writes (do
        beginConstruct
        if seen then report problem (← peek).span
        let header ← header
        let (body, terminator) ← b.statements
        let (parts, ending) ← following terminator
        return (build header body :: parts, ending))
      (fun found => found.1.map node) fun _ => [] := by
  intro s sane
  refine .beginConstruct ?_
  extract_lets rest
  have goOn (t : ParseState) (so : Writ s t [] []) :
      Ensures (rest ()) t fun found u => Writ s u (found.1.map node) [] := by
    refine (so.part head).bind fun header u so => ?_
    refine (so.part bodies.statements).bind fun found v so => ?_
    have part : Writ s v [node (build header found.1)] [] :=
      so.item (isItem _ _) (children _ _) (by rw [own, List.append_nil]; rfl)
    exact (part.part (further _)).bind fun _ _ so => so
  have begun := (Writ.refl sane).onto sane.begin
  split
  · exact .peek ((begun.pass (.report _ _)).bind fun _ t so => goOn t so)
  · exact goOn _ begun

/-- There are no further parts. -/
theorem noPart_writes {π : Type} (node : π → Node) (kind : BlockKind)
    (terminator : Option Terminator) :
    Writes (do return (([] : List π), ← takeEnd kind terminator)) (fun found => found.1.map node)
      fun _ => [] :=
  fun _ sane => ((Writ.refl sane).pass (takeEnd_proceeds kind terminator)).bind fun _ _ so => so

theorem ifParts_writes (rules : r.Punctuates) (bodies : b.Punctuates) (n : Nat) (seen : Bool)
    (terminator : Option Terminator) :
    Writes (ifParts r b n seen terminator) (fun found => found.1.map Node.ifPart) fun _ => [] := by
  induction n generalizing seen terminator with
  | zero => exact noPart_writes _ _ _
  | succ n ih =>
    rcases terminator with - | stop
    · exact noPart_writes _ _ _
    · cases stop with
      | elseIf =>
        exact part_writes bodies seen .elseIfAfterElse (ifParts r b n seen)
          (fun header body => .elseIf header body (header.span.merge body.span))
          (elseIfLine_writes rules) (ih seen) (fun _ _ => rfl) (fun _ _ => rfl) fun _ _ => rfl
      | elsePart =>
        exact part_writes bodies seen .elseAfterElse (ifParts r b n true)
          (fun header body => .elsePart header body (header.merge body.span))
          wordLine_proceeds.writes (ih true) (fun _ _ => rfl) (fun _ _ => rfl) fun _ _ => rfl
      | _ => exact noPart_writes _ _ _

theorem tryParts_writes (rules : r.Punctuates) (bodies : b.Punctuates) (n : Nat) (seen : Bool)
    (terminator : Option Terminator) :
    Writes (tryParts r b n seen terminator) (fun found => found.1.map Node.tryPart) fun _ => [] := by
  induction n generalizing seen terminator with
  | zero => exact noPart_writes _ _ _
  | succ n ih =>
    rcases terminator with - | stop
    · exact noPart_writes _ _ _
    · cases stop with
      | catchPart =>
        exact part_writes bodies seen .catchAfterFinally (tryParts r b n seen)
          (fun header body => .catchPart header body (header.span.merge body.span))
          (catchLine_writes rules) (ih seen) (fun _ _ => rfl) (fun _ _ => rfl) fun _ _ => rfl
      | finallyPart =>
        exact part_writes bodies seen .finallyAfterFinally (tryParts r b n true)
          (fun header body => .finallyPart header body (header.merge body.span))
          wordLine_proceeds.writes (ih true) (fun _ _ => rfl) (fun _ _ => rfl) fun _ _ => rfl
      | _ => exact noPart_writes _ _ _

theorem caseBlocks_writes (rules : r.Punctuates) (bodies : b.Punctuates) (n : Nat) (seen : Bool)
    (terminator : Option Terminator) :
    Writes (caseBlocks r b n seen terminator) (fun found => found.1.map Node.caseBlock)
      fun _ => [] := by
  induction n generalizing seen terminator with
  | zero => exact noPart_writes _ _ _
  | succ n ih =>
    rcases terminator with - | stop
    · exact noPart_writes _ _ _
    · cases stop with
      | case =>
        exact part_writes bodies seen .caseAfterCaseElse (caseBlocks r b n seen)
          (fun header body => ⟨.case header, body, header.span.merge body.span⟩)
          (caseLine_writes rules) (ih seen) (fun _ _ => rfl) (fun _ _ => rfl) fun _ _ => rfl
      | caseElse =>
        exact part_writes bodies seen .caseElseAfterCaseElse (caseBlocks r b n true)
          (fun header body => ⟨.caseElse header, body, header.merge body.span⟩)
          caseElseLine_proceeds.writes (ih true) (fun _ _ => rfl) (fun _ _ => rfl) fun _ _ => rfl
      | _ => exact noPart_writes _ _ _

-- Conditions

theorem ifBlock_writ (rules : r.Punctuates) (bodies : b.Punctuates) {condition : Expression}
    (so : Writ o s [.expression condition] []) (start : Location) (thenKeyword : Option Location) :
    Ensures (ifBlock r b start condition thenKeyword) s fun st t =>
      Writ o t [Node.ofStatement st] [] := by
  refine (so.pass (expectThen_proceeds _)).bind fun _ t so => ?_
  refine (so.pass (.endStatement _)).bind fun header u so => ?_
  refine (so.part (within_writes _ (Node.ofParted .ifPart) (fun _ => []) fun s sane => ?_)).bind
    fun found v so => so.finishItem rfl rfl rfl
  refine (bodies.statements s sane).bind fun found t so => .get ?_
  exact (so.part (ifParts_writes rules bodies _ _ _)).bind fun _ _ so => so

theorem lineEndIf_proceeds : Proceeds lineEndIf := by
  refine .bind (.check _) fun atEnd => .bind .kindAfter fun after => ?_
  split
  · exact .bind .read fun _ => .bind .skip fun _ => .bind (.spanFrom _) fun _ => .pure
  · exact .pure

theorem lineIf_writ (bodies : b.Punctuates) {condition : Expression}
    (so : Writ o s [.expression condition] []) (start thenKeyword : Location) :
    Ensures (lineIf b start condition thenKeyword) s fun st t =>
      Writ o t [Node.ofStatement st] [] := by
  refine (so.part (withinLineIf_writes
    (fun found : Statements × Option Location × Option Statements =>
      Node.ofStatements found.1 ++ (found.2.2.map Node.ofStatements).getD []) (fun _ => [])
    fun s sane => ?_)).bind fun found t so => ?_
  · refine (bodies.line s sane).bind fun found t so => ?_
    refine (so.pass (.eatPlace _)).bind fun place u so => ?_
    cases place with
    | some place => exact (so.part bodies.line).bind fun _ _ so => so
    | none => exact .pure (by simpa using so)
  · refine (so.pass lineEndIf_proceeds).bind fun ending u so => ?_
    exact so.finishItem rfl rfl rfl

theorem ifStatement_writes (rules : r.Punctuates) (bodies : b.Punctuates) :
    WritesStatement (ifStatement r b) := by
  intro s sane
  have so := (Writ.refl sane).onto sane.advance
  refine .read ((so.part (value_writes rules)).bind fun condition t so => ?_)
  refine (so.pass (.eatPlace _)).bind fun thenKeyword u so => .peekKind ?_
  split
  · exact lineIf_writ bodies so _ _
  · exact ifBlock_writ rules bodies so _ _

-- Loops

theorem takeLoop_writes (rules : r.Punctuates) (hasCondition : Bool)
    (terminator : Option Terminator) :
    Writes (takeLoop r hasCondition terminator)
      (fun ending => Node.ofLoopCondition (ending.bind LoopStatement.condition)) fun _ => [] := by
  intro s sane
  unfold takeLoop
  split
  · have begun := (Writ.refl sane).onto sane.begin
    refine .beginConstruct ((begun.part (loopLine_writes rules)).bind fun ending t so => ?_)
    extract_lets rest
    split
    · exact (so.pass (.report _ _)).bind fun _ _ so => so
    · exact so
  · exact Writ.refl sane

theorem doBlock_writes (rules : r.Punctuates) (bodies : b.Punctuates) :
    WritesStatement (doBlock r b) := by
  intro s sane
  have so := (Writ.refl sane).onto sane.advance
  refine .read ((so.part (loopCondition_writes rules)).bind fun condition t so => ?_)
  refine (so.pass (.endStatement _)).bind fun header u so => ?_
  refine (so.part (statementBody_writes bodies _ _)).bind fun found v so => ?_
  refine (so.part (takeLoop_writes rules _ _)).bind fun ending w so => ?_
  exact so.finishItem rfl rfl rfl

/-- The `Next` may be one that was left over. -/
theorem next_closes (rules : r.Punctuates) (sane : s.Sane) :
    Ensures (next r) s fun found t =>
      s.Onward t ∧ Closes (t.diagnostics = []) (some found.1) found.2 := by
  refine .get ?_
  extract_lets rest
  have goOn (found : NextStatement × Nat) (t : ParseState) (further : s.Onward t)
      (punctuated : found.1.IsPunctuated (t.diagnostics = [])) :
      Ensures (rest found) t fun found t =>
        s.Onward t ∧ Closes (t.diagnostics = []) (some found.1) found.2 := by
    have left := further.sane.setPending
      (if found.1.loopVariables.items.length ≤ found.2 + 1 then none
        else some ⟨found.1, found.2 + 1⟩) fun q some => by
      split at some
      · cases some
      · cases some
        exact punctuated
    refine ⟨further.trans left, fun next same => ?_, fun v named => ⟨_, rfl, ?_⟩⟩
    · cases same
      exact punctuated
    · exact List.mem_of_getElem? named
  split
  next pending left => exact goOn (pending.statement, pending.index) s (.refl sane) (sane.pending pending left)
  next =>
    have begun := (Writ.refl sane).onto sane.begin
    refine .beginConstruct ((begun.part (nextLine_writes rules)).bind fun found t so => ?_)
    exact goOn (found, 0) t so.onward so.next

theorem forBody_writ {ns : List Node} (rules : r.Punctuates) (bodies : b.Punctuates)
    (so : Writ o s ns []) (header : Span) :
    Ensures (forBody r b header) s fun found t =>
      Writ o t (ns ++ Node.ofStatements found.1) [] ∧
        Closes (t.diagnostics = []) found.2.1 found.2.2 := by
  have opened := so.sane.aside (⟨.forBlock, header, true⟩ :: s.blocks) s.lineIfDepth s.directives
    s.tables
  refine within_ensures (((so.onto opened).part bodies.statements).bind
    (Q := fun found t => Writ o t (ns ++ Node.ofStatements found.1) [] ∧
      Closes (t.diagnostics = []) found.2.1 found.2.2) fun found t so => ?_) fun found t facts => ?_
  · dsimp only
    split
    · refine (next_closes rules so.sane).bind fun closing u facts => .pure ⟨?_, facts.2⟩
      simpa using so.onto facts.1
    · exact .pure ⟨so, nofun, nofun⟩
  · exact ⟨facts.1.onto (facts.1.sane.aside t.blocks.tail t.lineIfDepth t.directives t.tables),
      facts.2⟩

theorem forControl_writes (rules : r.Punctuates) :
    Writes (forControl r) (fun c => [Node.ofForControl c]) fun _ => [] := by
  intro s sane
  refine .get ?_
  split
  · exact (loopDeclarator_writes rules s sane).bind fun _ _ so => so
  · exact (expression_writes rules _ s sane).bind fun _ _ so => so

theorem forEachBlock_writ (rules : r.Punctuates) (bodies : b.Punctuates) (so : Writ o s [] [])
    (start : Location) :
    Ensures (forEachBlock r b start) s fun st t => Writ o t [Node.ofStatement st] [] := by
  refine (so.part (forControl_writes rules)).bind fun control t so => ?_
  refine (so.pass (.expectPlace _ _)).bind fun inKeyword u so => ?_
  refine (so.part (value_writes rules)).bind fun collection v so => ?_
  refine (so.pass (.endStatement _)).bind fun header w so => ?_
  refine (forBody_writ rules bodies so header).bind fun found x facts => .spanFrom ?_
  exact facts.1.loop facts.2 rfl rfl rfl

theorem forBlock_writ (rules : r.Punctuates) (bodies : b.Punctuates) (so : Writ o s [] [])
    (start : Location) :
    Ensures (forBlock r b start) s fun st t => Writ o t [Node.ofStatement st] [] := by
  refine (so.part (forControl_writes rules)).bind fun control t so => ?_
  refine (so.pass (.expectPlace _ _)).bind fun equals u so => ?_
  refine (so.part (value_writes rules)).bind fun lower v so => ?_
  refine (so.pass (.expectPlace _ _)).bind fun toKeyword w so => ?_
  refine (so.part (value_writes rules)).bind fun upper x so => ?_
  refine (so.whenEaten (value_writes rules)).bind fun step y so => ?_
  refine (so.pass (.endStatement _)).bind fun header z so => ?_
  refine (forBody_writ rules bodies so header).bind fun found z facts => .spanFrom ?_
  exact facts.1.loop facts.2 rfl rfl rfl

theorem forStatement_writes (rules : r.Punctuates) (bodies : b.Punctuates) :
    WritesStatement (forStatement r b) := by
  intro s sane
  have so := (Writ.refl sane).onto sane.advance
  refine .read ((so.pass (.eat _)).bind fun each t so => ?_)
  cases each with
  | some _ => exact forEachBlock_writ rules bodies so _
  | none => exact forBlock_writ rules bodies so _

theorem whileBlock_writes (rules : r.Punctuates) (bodies : b.Punctuates) :
    WritesStatement (whileBlock r b) := by
  intro s sane
  have so := (Writ.refl sane).onto sane.advance
  refine .read ((so.part (value_writes rules)).bind fun condition t so => ?_)
  refine (so.pass (.endStatement _)).bind fun header u so => ?_
  refine (so.part (statementBody_writes bodies _ _)).bind fun found v so => ?_
  refine (so.pass (takeEnd_proceeds _ _)).bind fun ending w so => ?_
  exact so.finishItem rfl rfl rfl

-- Objects

theorem objectBlock_writes (rules : r.Punctuates) (bodies : b.Punctuates) (kind : ObjectBlockKind) :
    WritesStatement (objectBlock r b kind) := by
  intro s sane
  have so := (Writ.refl sane).onto sane.advance
  refine .read ((so.part (value_writes rules)).bind fun object t so => ?_)
  refine (so.pass (.endStatement _)).bind fun header u so => ?_
  refine (so.part (statementBody_writes bodies _ _)).bind fun found v so => ?_
  refine (so.pass (takeEnd_proceeds _ _)).bind fun ending w so => ?_
  exact so.finishItem rfl rfl rfl

theorem usingResource_writes (rules : r.Punctuates) :
    Writes (usingResource r) Node.ofResource Punctuation.ofResource := by
  intro s sane
  refine .check (.kindAfter ?_)
  split
  · exact (variableDeclarators_writes rules false s sane).bind fun _ _ so => so
  · exact (value_writes rules s sane).bind fun _ _ so => so

theorem usingBlock_writes (rules : r.Punctuates) (bodies : b.Punctuates) :
    WritesStatement (usingBlock r b) := by
  intro s sane
  have so := (Writ.refl sane).onto sane.advance
  refine .read ((so.part (usingResource_writes rules)).bind fun resource t so => ?_)
  refine (so.pass (.endStatement _)).bind fun header u so => ?_
  refine (so.part (statementBody_writes bodies _ _)).bind fun found v so => ?_
  rw [List.append_nil] at so
  refine (so.pass (takeEnd_proceeds _ _)).bind fun ending w so => ?_
  exact so.finishItem rfl rfl rfl

-- Exceptions and selections

theorem tryBlock_writes (rules : r.Punctuates) (bodies : b.Punctuates) :
    WritesStatement (tryBlock r b) := by
  intro s sane
  have so := (Writ.refl sane).onto sane.advance
  refine .read ((so.pass (.endStatement _)).bind fun header t so => ?_)
  refine (so.part (within_writes _ (Node.ofParted .tryPart) (fun _ => []) fun s sane => ?_)).bind
    fun found u so => so.finishItem rfl rfl rfl
  refine (bodies.statements s sane).bind fun found t so => .get ?_
  exact (so.part (tryParts_writes rules bodies _ _ _)).bind fun _ _ so => so

theorem selectBlock_writes (rules : r.Punctuates) (bodies : b.Punctuates) :
    WritesStatement (selectBlock r b) := by
  intro s sane
  have so := (Writ.refl sane).onto sane.advance
  refine .read ((so.pass (.eatPlace _)).bind fun caseKeyword t so => ?_)
  refine (so.part (value_writes rules)).bind fun subject u so => ?_
  refine (so.pass (.endStatement _)).bind fun header v so => ?_
  refine (so.part (within_writes _ (Node.ofParted .caseBlock) (fun _ => []) fun s sane => ?_)).bind
    fun found w so => so.finishItem rfl rfl rfl
  refine (bodies.statements s sane).bind fun found t so => ?_
  obtain ⟨leading, terminator⟩ := found
  dsimp -zeta only
  extract_lets rest
  have goOn (u : ParseState) (so : Writ s u (Node.ofStatements leading) []) :
      Ensures (rest ()) u fun found v => Writ s v (Node.ofParted .caseBlock found) [] :=
    .get ((so.part (caseBlocks_writes rules bodies _ _ _)).bind fun _ _ so => so)
  split
  · exact goOn t so
  · refine (so.pass .beginConstruct).bind fun _ u so => ?_
    exact (so.pass (.report _ _)).bind fun _ v so => goOn v so

end Parse

end VisualBasic
