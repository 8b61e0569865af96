import VisualBasic.Proofs.Parse.Statement
import VisualBasic.Proofs.Stray.Node

/-!
Terminators in the bodies of statements.  A body is read with its block open, so what may stand in it
may stand in the block.
-/

set_option autoImplicit false

namespace VisualBasic

/-- The kinds of the open blocks, innermost first. -/
def ParseState.openKinds (s : ParseState) : List BlockKind := s.blocks.map OpenBlock.kind

theorem Stretch.openKinds {lo : Nat} {o t : ParseState} {ns : List Node}
    {owed : List (BlockKind × Nat)} (so : Stretch lo o t ns owed) : t.openKinds = o.openKinds := by
  rw [ParseState.openKinds, ParseState.openKinds, so.blocks]

theorem ParseState.openKinds_advance (s : ParseState) : s.advance.openKinds = s.openKinds := by
  rw [openKinds, openKinds, s.advance_frame.2.1]

/-- The bodies hold what may stand within the open blocks. -/
structure Bodies.Sit (b : Bodies) (depth : Nat) : Prop where
  statements : ∀ s, s.Wf → s.remaining < depth → Ensures b.statements s fun body _ =>
    ∀ n ∈ Node.ofStatements body.1, n.Sits s.openKinds
  line : ∀ s, s.Wf → s.remaining < depth → Ensures b.line s fun body _ =>
    ∀ n ∈ Node.ofStatements body, n.Keeps (n.opened ++ s.openKinds)
  declarations : ∀ container s, s.Wf → s.remaining < depth → s.blocks ≠ [] →
    Ensures (b.declarations container) s fun body _ =>
      ∀ n ∈ Node.ofDeclarations body.1, n.Sits s.openKinds

namespace Statement

theorem sits_of_isSimple {kinds : List BlockKind} {st : Statement} (simple : st.isSimple = true) :
    (Node.ofStatement st).Sits kinds := by
  have expressions := Node.all_ofOption_isPhrase (f := Node.expression) fun _ => rfl
  have phrases : (Node.ofStatement st).children.all Node.isPhrase = true := by
    cases st with
    | onError action => cases action <;> first | rfl | exact Node.all_ofLabel_isPhrase _
    | resume target => cases target <;> first | rfl | exact Node.all_ofLabel_isPhrase _
    | label | goTo => exact Node.all_ofLabel_isPhrase _
    | localDeclaration | reDim | erase => exact Node.all_map_isPhrase (fun _ => rfl) _
    | call | raiseEvent =>
      simp only [Node.ofStatement, Node.children, Node.childrenOfStatement, List.all_cons,
        Node.all_ofArguments_isPhrase]
      rfl
    | midAssignment =>
      simp only [Node.ofStatement, Node.children, Node.childrenOfStatement, List.all_cons,
        List.all_append, expressions]
      rfl
    | returnValue | throwException | raiseError => exact expressions _
    | assignment | compoundAssignment | exitBlock | continueBlock | stop | endProgram | handler
    | bad => rfl
    | _ => simp [isSimple] at simple
  refine Node.sits_of_phrases ?_ ?_ phrases
  all_goals cases st <;> first | rfl | simp [isSimple] at simple

end Statement

namespace Parse

variable {r : Rules} {b : Bodies} {depth : Nat} {s : ParseState}

-- Bodies

theorem within_result {α : Type} {block : OpenBlock} {p : Parse α} {P : α → Prop}
    (inner : Ensures p { s with blocks := block :: s.blocks } fun a _ => P a) :
    Ensures (within block p) s fun a _ => P a := inner

theorem withinLineIf_result {α : Type} {p : Parse α} {P : α → Prop}
    (inner : Ensures p { s with lineIfDepth := s.lineIfDepth + 1 } fun a _ => P a) :
    Ensures (withinLineIf p) s fun a _ => P a := inner

theorem statementBody_sits (sit : b.Sit depth) (kind : BlockKind) (header : Span) (wf : s.Wf)
    (bound : s.remaining < depth) :
    Ensures (statementBody b kind header) s fun body _ =>
      ∀ n ∈ Node.ofStatements body.1, n.Sits (kind :: s.openKinds) :=
  within_result (sit.statements _ (wf_within _ wf) bound)

theorem declarationBody_sits (sit : b.Sit depth) (kind : BlockKind) (header : Span)
    (container : Container) (wf : s.Wf) (bound : s.remaining < depth) :
    Ensures (declarationBody b kind header container) s fun body _ =>
      ∀ n ∈ Node.ofDeclarations body.1, n.Sits (kind :: s.openKinds) :=
  within_result (sit.declarations container _ (wf_within _ wf) bound (List.cons_ne_nil _ _))

theorem endBlock_kind (kind : BlockKind) (s : ParseState) :
    Ensures (endBlock kind) s fun e _ => e.kind = kind := by
  refine Ensures.any.bind fun first t _ => ?_
  extract_lets rest
  split <;> rfl

theorem takeEnd_kind (kind : BlockKind) (stop : Option Terminator) (s : ParseState) :
    Ensures (takeEnd kind stop) s fun ending _ => ∀ e ∈ ending, e.kind = kind := by
  unfold takeEnd
  split
  · refine Ensures.any.bind fun _ t _ => (endBlock_kind kind t).bind fun e u same => ?_
    exact fun e' ends => Option.some.inj ends ▸ same
  · exact fun _ none => by cases none

/-- A rule that begins by reading a token. -/
theorem read_ensures {α : Type} {f : Token → Parse α} {Q : α → ParseState → Prop} (wf : s.Wf)
    (solid : s.kind.isSolid = true)
    (rest : Stretch s.advance.here s.advance s.advance [] [] → s.advance.remaining < s.remaining →
      s.advance.openKinds = s.openKinds → Ensures (f s.current) s.advance Q) :
    Ensures (read >>= f) s Q :=
  rest (.refl ((Stretch.refl wf).pass solid).wf) (remaining_advance wf solid) s.openKinds_advance

theorem skip_ensures {α : Type} {f : Unit → Parse α} {Q : α → ParseState → Prop} (wf : s.Wf)
    (solid : s.kind.isSolid = true)
    (rest : Stretch s.advance.here s.advance s.advance [] [] → s.advance.remaining < s.remaining →
      s.advance.openKinds = s.openKinds → Ensures (f ()) s.advance Q) :
    Ensures (skip >>= f) s Q :=
  read_ensures (f := fun _ => f ()) wf solid rest

-- Blocks of one part

theorem whileBlock_sits (phrases : r.Sound) (sit : b.Sit depth) (wf : s.Wf)
    (solid : s.kind.isSolid = true) (bound : s.remaining ≤ depth) :
    Ensures (whileBlock r b) s fun st _ => (Node.ofStatement st).Sits s.openKinds := by
  refine read_ensures wf solid fun so fewer same => ?_
  refine (so.part (value_yields phrases so.wf)).bind fun condition t so => ?_
  refine (so.endStatement _).bind fun header u facts => ?_
  obtain ⟨-, so⟩ := facts
  have left := so.later.remaining
  refine (statementBody_sits sit .whileBlock header so.wf (by omega)).bind fun found v each => ?_
  refine (takeEnd_kind .whileBlock found.2 v).bind fun ending w ends => ?_
  rw [so.openKinds, same] at each
  exact .of_body [.expression condition] rfl rfl (Node.endsAsOpened_of_map rfl ends) rfl
    rfl each

theorem objectBlock_sits (phrases : r.Sound) (sit : b.Sit depth) (kind : ObjectBlockKind)
    (wf : s.Wf) (solid : s.kind.isSolid = true) (bound : s.remaining ≤ depth) :
    Ensures (objectBlock r b kind) s fun st _ => (Node.ofStatement st).Sits s.openKinds := by
  refine read_ensures wf solid fun so fewer same => ?_
  refine (so.part (value_yields phrases so.wf)).bind fun object t so => ?_
  refine (so.endStatement _).bind fun header u facts => ?_
  obtain ⟨-, so⟩ := facts
  have left := so.later.remaining
  refine (statementBody_sits sit kind.block header so.wf (by omega)).bind fun found v each => ?_
  refine (takeEnd_kind kind.block found.2 v).bind fun ending w ends => ?_
  rw [so.openKinds, same] at each
  exact .of_body [.expression object] rfl rfl (Node.endsAsOpened_of_map rfl ends) rfl
    rfl each

theorem usingBlock_sits (phrases : r.Sound) (sit : b.Sit depth) (wf : s.Wf)
    (solid : s.kind.isSolid = true) (bound : s.remaining ≤ depth) :
    Ensures (usingBlock r b) s fun st _ => (Node.ofStatement st).Sits s.openKinds := by
  refine read_ensures wf solid fun so fewer same => ?_
  refine (so.part (usingResource_yields phrases so.wf)).bind fun resource t so => ?_
  refine (so.endStatement _).bind fun header u facts => ?_
  obtain ⟨-, so⟩ := facts
  have left := so.later.remaining
  refine (statementBody_sits sit .usingBlock header so.wf (by omega)).bind fun found v each => ?_
  refine (takeEnd_kind .usingBlock found.2 v).bind fun ending w ends => ?_
  rw [so.openKinds, same] at each
  exact .of_body _ rfl rfl (Node.endsAsOpened_of_map rfl ends) rfl (Node.all_ofResource_isPhrase resource)
    each

-- Loops

/-- A loop is made of phrases and of what its body holds. -/
theorem sits_of_loop {kinds : List BlockKind} {n : Node} {kind : BlockKind} (parts : List Node)
    {items behind : List Node} (noStray : n.stray? = none) (opens : n.opened = [kind])
    (ends : n.ending? = none) (children : n.children = parts ++ items ++ behind)
    (first : parts.all Node.isPhrase = true) (last : behind.all Node.isPhrase = true)
    (each : ∀ c ∈ items, c.Sits (kind :: kinds)) : n.Sits kinds := by
  refine .of_children noStray (Node.endsAsOpened_of_ending?_eq_none ends) fun c member => ?_
  rw [children] at member
  rw [opens]
  rcases List.mem_append.1 member with early | late
  · rcases List.mem_append.1 early with part | item
    · exact Node.sits_of_isPhrase (List.all_eq_true.1 first c part)
    · exact each c item
  · exact Node.sits_of_isPhrase (List.all_eq_true.1 last c late)

theorem doBlock_sits (phrases : r.Sound) (sit : b.Sit depth) (wf : s.Wf)
    (solid : s.kind.isSolid = true) (bound : s.remaining ≤ depth) :
    Ensures (doBlock r b) s fun st _ => (Node.ofStatement st).Sits s.openKinds := by
  refine read_ensures wf solid fun so fewer same => ?_
  refine (so.part (loopCondition_yields phrases so.wf)).bind fun condition t so => ?_
  refine (so.endStatement _).bind fun header u facts => ?_
  obtain ⟨-, so⟩ := facts
  have left := so.later.remaining
  refine (statementBody_sits sit .doBlock header so.wf (by omega)).bind fun found v each => ?_
  refine Ensures.any.bind fun ending w _ => ?_
  rw [so.openKinds, same] at each
  have conditions := Node.all_ofOption_isPhrase (f := fun c : LoopCondition => .expression c.condition)
    fun _ => rfl
  exact sits_of_loop _ rfl rfl rfl rfl (conditions condition)
    (conditions (ending.bind LoopStatement.condition)) each

theorem forBody_sits (sit : b.Sit depth) (header : Span) (wf : s.Wf) (bound : s.remaining < depth) :
    Ensures (forBody r b header) s fun found _ =>
      ∀ n ∈ Node.ofStatements found.1, n.Sits (.forBlock :: s.openKinds) := by
  refine within_result ((sit.statements _ (wf_within _ wf) bound).bind fun found t each => ?_)
  dsimp only
  split
  · exact each
  · exact each

theorem forEachBlock_sits {o : ParseState} {start : Location} {lo : Nat} (phrases : r.Sound)
    (sit : b.Sit depth) (so : Stretch lo o s [] []) (bound : o.remaining < depth) :
    Ensures (forEachBlock r b start) s fun st _ => (Node.ofStatement st).Sits o.openKinds := by
  refine (so.part (forControl_yields phrases so.wf)).bind fun control t so => ?_
  refine (so.expectPlace rfl rfl).bind fun inKeyword u facts => ?_
  have so := facts.1
  refine (so.part (value_yields phrases so.wf)).bind fun collection v so => ?_
  refine (so.endStatement _).bind fun header w facts => ?_
  obtain ⟨-, so⟩ := facts
  have left := so.later.remaining
  refine (forBody_sits sit header so.wf (by omega)).bind fun found x each => ?_
  rw [so.openKinds] at each
  refine sits_of_loop [Node.ofForControl control, .expression collection] rfl rfl rfl rfl
    ?_ (Node.all_ofOption_isPhrase (fun _ => rfl) found.2.2) each
  rw [List.all_cons, Node.isPhrase_ofForControl]
  rfl

theorem forBlock_sits {o : ParseState} {start : Location} {lo : Nat} (phrases : r.Sound)
    (sit : b.Sit depth) (so : Stretch lo o s [] []) (bound : o.remaining < depth) :
    Ensures (forBlock r b start) s fun st _ => (Node.ofStatement st).Sits o.openKinds := by
  refine (so.part (forControl_yields phrases so.wf)).bind fun control t so => ?_
  refine (so.expectPlace rfl rfl).bind fun equals u facts => ?_
  have so := facts.1
  refine (so.part (value_yields phrases so.wf)).bind fun lower v so => ?_
  refine (so.expectPlace rfl rfl).bind fun toKeyword w facts => ?_
  have so := facts.1
  refine (so.part (value_yields phrases so.wf)).bind fun upper x so => ?_
  refine (so.whenEaten (Node.ofOption .expression) rfl rfl fun _ wf => value_yields phrases wf).bind
    fun step y so => ?_
  refine (so.endStatement _).bind fun header z facts => ?_
  obtain ⟨-, so⟩ := facts
  have left := so.later.remaining
  refine (forBody_sits sit header so.wf (by omega)).bind fun found w each => ?_
  rw [so.openKinds] at each
  refine sits_of_loop (Node.ofForControl control :: .expression lower :: .expression upper
    :: Node.ofOption .expression step) rfl rfl rfl rfl ?_
    (Node.all_ofOption_isPhrase (fun _ => rfl) found.2.2) each
  rw [List.all_cons, List.all_cons, List.all_cons, Node.isPhrase_ofForControl,
    Node.all_ofOption_isPhrase fun _ => rfl]
  rfl

theorem forStatement_sits (phrases : r.Sound) (sit : b.Sit depth) (wf : s.Wf)
    (solid : s.kind.isSolid = true) (bound : s.remaining ≤ depth) :
    Ensures (forStatement r b) s fun st _ => (Node.ofStatement st).Sits s.openKinds := by
  refine read_ensures wf solid fun so fewer same => ?_
  rw [← same]
  refine (so.eat rfl).bind fun each t facts => ?_
  have so := facts.1
  cases each with
  | none => exact forBlock_sits phrases sit so (by omega)
  | some _ => exact forEachBlock_sits phrases sit so (by omega)

-- Blocks of several parts

/-- What the parts of a block hold sits within it, and its end is its own. -/
def PartsSit {α : Type} (node : α → Node) (kind : BlockKind) (kinds : List BlockKind)
    (found : List α × Option EndBlock) : Prop :=
  (∀ part ∈ found.1, (node part).Sits kinds) ∧ ∀ e ∈ found.2, e.kind = kind

section

variable {α : Type} {lo : Nat} {o : ParseState} {block : OpenBlock} {kind : BlockKind} {node : α → Node}

theorem nextPart_sits {t : ParseState} {header : Span} {ns hs : List Node} (sound : b.Sound depth)
    (sit : b.Sit depth) (build : Statements → α)
    (rest : Option Terminator → Parse (List α × Option EndBlock))
    (inside : o.blocks.head? = some block) (so : Stretch lo o s ns [])
    (line : Line s.here s t header hs) (bound : s.remaining ≤ depth)
    (goesOn : ∀ u ms stop, Between block lo o u ms stop → u.remaining < s.remaining →
      Ensures (rest stop) u fun found _ => PartsSit node kind o.openKinds found)
    (noStray : ∀ body, (node (build body)).stray? = none)
    (noEnd : ∀ body, (node (build body)).ending? = none)
    (opens : ∀ body, (node (build body)).opened = [])
    (children : ∀ body, (node (build body)).children = hs ++ Node.ofStatements body)
    (phrases : hs.all Node.isPhrase = true) :
    Ensures (b.statements >>= fun found => rest found.2 >>= fun others =>
        pure (build found.1 :: others.1, others.2)) t fun found _ =>
      PartsSit node kind o.openKinds found := by
  have fewer := line.fewer
  have head : t.blocks.head? = some block := by rw [line.so.blocks, so.blocks, inside]
  refine ((sound.statements t line.so.wf (by omega)).and (sit.statements t line.so.wf (by omega))).bind
    fun found u facts => ?_
  obtain ⟨body, each⟩ := facts
  rw [head] at body
  rw [line.so.openKinds, so.openKinds] at each
  have less := body.so.later.remaining
  have accepted (x : Terminator) (stops : found.2 = some x) : block.kind.accepts x = true := by
    obtain ⟨opened, same, accepts⟩ := body.accepted x stops
    cases same
    exact accepts
  have long := (so.append line.so).append body.so
  refine (goesOn u _ _ ⟨long, body.stands, accepted⟩ (by omega)).bind fun others v facts => ?_
  obtain ⟨parts, ends⟩ := facts
  refine .pure ⟨List.forall_mem_cons.2 ⟨?_, parts⟩, ends⟩
  refine .of_children (noStray _) (Node.endsAsOpened_of_ending?_eq_none (noEnd _)) fun c member => ?_
  rw [children] at member
  rw [opens]
  rcases List.mem_append.1 member with early | item
  · exact Node.sits_of_isPhrase (List.all_eq_true.1 phrases c early)
  · exact each c item

/-- The further parts of a block.  Only the terminators that the block accepts lead to them. -/
theorem parts_sit (parts : Nat → Bool → Option Terminator → Parse (List α × Option EndBlock))
    (isKind : block.kind = kind) (noLoop : kind ≠ .forBlock)
    (ends : ∀ n late stop, n = 0 ∨ stop = none ∨ stop = some (.endOf kind) →
      parts n late stop = takeEnd kind stop >>= fun ending => pure ([], ending))
    (step : ∀ n late x (t : ParseState) ms, x ≠ .endOf kind → kind.accepts x = true →
      t.terminator? = some x → Stretch lo o t ms [] → t.remaining ≤ depth →
      (∀ later u ks stop, Between block lo o u ks stop → u.remaining < t.remaining →
        Ensures (parts n later stop) u fun found _ => PartsSit node kind o.openKinds found) →
      Ensures (parts (n + 1) late (some x)) t fun found _ => PartsSit node kind o.openKinds found)
    (n : Nat) (late : Bool) {ns : List Node} {stop : Option Terminator}
    (between : Between block lo o s ns stop) (bound : s.remaining ≤ depth) :
    Ensures (parts n late stop) s fun found _ => PartsSit node kind o.openKinds found := by
  have last (n : Nat) (late : Bool) (stop : Option Terminator) (t : ParseState)
      (none : n = 0 ∨ stop = none ∨ stop = some (.endOf kind)) :
      Ensures (parts n late stop) t fun found _ => PartsSit node kind o.openKinds found := by
    rw [ends n late stop none]
    exact (takeEnd_kind kind stop t).bind fun ending _ same => .pure ⟨List.forall_mem_nil _, same⟩
  induction n generalizing s late stop ns with
  | zero => exact last 0 late stop s (.inl rfl)
  | succ n ih =>
    obtain ⟨so, stands, accepted⟩ := between
    cases stop with
    | none => exact last (n + 1) late none s (.inr (.inl rfl))
    | some x =>
      by_cases final : x = .endOf kind
      · exact last (n + 1) late (some x) s (.inr (.inr (congrArg some final)))
      · have starts := terminator?_of_standsAt (stands x rfl) (next_of_accepts isKind noLoop accepted rfl)
        refine step n late x s ns final (isKind ▸ accepted x rfl) starts so bound ?_
        intro later u ks stop between fewer
        exact ih later between (by omega)

end

section

variable {lo : Nat} {o : ParseState} {block : OpenBlock} {ns : List Node} {stop : Option Terminator}

theorem ifParts_sit (phrases : r.Sound) (sound : b.Sound depth) (sit : b.Sit depth)
    (isIf : block.kind = .ifBlock) (inside : o.blocks.head? = some block) (n : Nat)
    (seenElse : Bool) (between : Between block lo o s ns stop) (bound : s.remaining ≤ depth) :
    Ensures (ifParts r b n seenElse stop) s fun found _ =>
      PartsSit .ifPart .ifBlock o.openKinds found := by
  refine parts_sit (ifParts r b) isIf (by simp) (fun n late stop last => ?_) ?_ n seenElse between
    bound
  · rcases last with rfl | rfl | rfl <;> first | rfl | (cases n <;> rfl)
  · intro n late x t ms other accepted starts so bound goesOn
    cases x with
    | elseIf =>
      refine beginPart_ensures so late rfl fun u so ahead => ?_
      have left := remaining_of_ahead ahead
      refine (elseIfLine_line phrases so.wf (terminator?_of_ahead ahead ▸ starts)).bind
        fun header v line => ?_
      exact nextPart_sits sound sit (fun body => .elseIf header body (header.span.merge body.span))
        (ifParts r b n late) inside so line (by omega)
        (fun u ms stop between fewer => goesOn late u ms stop between (by omega))
        (fun _ => rfl) (fun _ => rfl) (fun _ => rfl) (fun _ => rfl) rfl
    | elsePart =>
      refine beginPart_ensures so late rfl fun u so ahead => ?_
      have left := remaining_of_ahead ahead
      have solid := isSolid_of_terminator (terminator?_of_ahead ahead ▸ starts)
      refine (wordLine_line so.wf solid).bind fun header v line => ?_
      exact nextPart_sits sound sit (fun body => .elsePart header body (header.merge body.span))
        (ifParts r b n true) inside so line (by omega)
        (fun u ms stop between fewer => goesOn true u ms stop between (by omega))
        (fun _ => rfl) (fun _ => rfl) (fun _ => rfl) (fun _ => rfl) rfl
    | _ => simp_all [BlockKind.accepts]

theorem tryParts_sit (phrases : r.Sound) (sound : b.Sound depth) (sit : b.Sit depth)
    (isTry : block.kind = .tryBlock) (inside : o.blocks.head? = some block) (n : Nat)
    (seenFinally : Bool) (between : Between block lo o s ns stop) (bound : s.remaining ≤ depth) :
    Ensures (tryParts r b n seenFinally stop) s fun found _ =>
      PartsSit .tryPart .tryBlock o.openKinds found := by
  refine parts_sit (tryParts r b) isTry (by simp) (fun n late stop last => ?_) ?_ n seenFinally
    between bound
  · rcases last with rfl | rfl | rfl <;> first | rfl | (cases n <;> rfl)
  · intro n late x t ms other accepted starts so bound goesOn
    cases x with
    | catchPart =>
      refine beginPart_ensures so late rfl fun u so ahead => ?_
      have left := remaining_of_ahead ahead
      have solid := isSolid_of_terminator (terminator?_of_ahead ahead ▸ starts)
      refine (catchLine_line phrases so.wf solid).bind fun header v line => ?_
      exact nextPart_sits sound sit (fun body => .catchPart header body (header.span.merge body.span))
        (tryParts r b n late) inside so line (by omega)
        (fun u ms stop between fewer => goesOn late u ms stop between (by omega))
        (fun _ => rfl) (fun _ => rfl) (fun _ => rfl) (fun _ => rfl) (Node.all_ofCatch_isPhrase header)
    | finallyPart =>
      refine beginPart_ensures so late rfl fun u so ahead => ?_
      have left := remaining_of_ahead ahead
      have solid := isSolid_of_terminator (terminator?_of_ahead ahead ▸ starts)
      refine (wordLine_line so.wf solid).bind fun header v line => ?_
      exact nextPart_sits sound sit (fun body => .finallyPart header body (header.merge body.span))
        (tryParts r b n true) inside so line (by omega)
        (fun u ms stop between fewer => goesOn true u ms stop between (by omega))
        (fun _ => rfl) (fun _ => rfl) (fun _ => rfl) (fun _ => rfl) rfl
    | _ => simp_all [BlockKind.accepts]

theorem caseBlocks_sit (phrases : r.Sound) (sound : b.Sound depth) (sit : b.Sit depth)
    (isSelect : block.kind = .selectBlock) (inside : o.blocks.head? = some block) (n : Nat)
    (seenElse : Bool) (between : Between block lo o s ns stop) (bound : s.remaining ≤ depth) :
    Ensures (caseBlocks r b n seenElse stop) s fun found _ =>
      PartsSit .caseBlock .selectBlock o.openKinds found := by
  refine parts_sit (caseBlocks r b) isSelect (by simp) (fun n late stop last => ?_) ?_ n seenElse
    between bound
  · rcases last with rfl | rfl | rfl <;> first | rfl | (cases n <;> rfl)
  · intro n late x t ms other accepted starts so bound goesOn
    cases x with
    | case =>
      refine beginPart_ensures so late rfl fun u so ahead => ?_
      have left := remaining_of_ahead ahead
      have solid := isSolid_of_terminator (terminator?_of_ahead ahead ▸ starts)
      refine (caseLine_line phrases so.wf solid).bind fun header v line => ?_
      exact nextPart_sits sound sit (fun body => ⟨.case header, body, header.span.merge body.span⟩)
        (caseBlocks r b n late) inside so line (by omega)
        (fun u ms stop between fewer => goesOn late u ms stop between (by omega))
        (fun _ => rfl) (fun _ => rfl) (fun _ => rfl) (fun _ => rfl)
        (Node.all_map_isPhrase (fun _ => rfl) _)
    | caseElse =>
      refine beginPart_ensures so late rfl fun u so ahead => ?_
      have left := remaining_of_ahead ahead
      refine (caseElseLine_line so.wf (terminator?_of_ahead ahead ▸ starts)).bind
        fun header v line => ?_
      exact nextPart_sits sound sit (fun body => ⟨.caseElse header, body, header.merge body.span⟩)
        (caseBlocks r b n true) inside so line (by omega)
        (fun u ms stop between fewer => goesOn true u ms stop between (by omega))
        (fun _ => rfl) (fun _ => rfl) (fun _ => rfl) (fun _ => rfl) rfl
    | _ => simp_all [BlockKind.accepts]

end

/-- A block with a first body and further parts. -/
theorem sits_of_parts {kinds : List BlockKind} {α : Type} {node : α → Node} {n : Node}
    {kind : BlockKind} (head : List Node) {items : List Node} {found : List α × Option EndBlock}
    (noStray : n.stray? = none) (opens : n.opened = [kind])
    (ends : n.ending? = found.2.map fun e => (kind, e))
    (children : n.children = head ++ items ++ found.1.map node)
    (phrases : head.all Node.isPhrase = true) (each : ∀ c ∈ items, c.Sits (kind :: kinds))
    (parts : PartsSit node kind (kind :: kinds) found) : n.Sits kinds := by
  refine .of_body head noStray opens (Node.endsAsOpened_of_map ends parts.2)
    (children.trans (List.append_assoc _ _ _)) phrases fun c member => ?_
  rcases List.mem_append.1 member with item | part
  · exact each c item
  · obtain ⟨a, held, rfl⟩ := List.mem_map.1 part
    exact parts.1 a held

theorem ifBlock_sits {o : ParseState} {lo : Nat} {start : Location} {condition : Expression}
    {ns : List Node} (phrases : r.Sound) (sound : b.Sound depth) (sit : b.Sit depth)
    (thenKeyword : Option Location) (so : Stretch lo o s ns []) (bound : o.remaining < depth) :
    Ensures (ifBlock r b start condition thenKeyword) s fun st _ =>
      (Node.ofStatement st).Sits o.openKinds := by
  refine (expectThen_stretch thenKeyword so).bind fun _ t so => ?_
  refine (so.endStatement _).bind fun header u facts => ?_
  obtain ⟨-, so⟩ := facts
  have left := so.later.remaining
  refine (within_result (P := fun found =>
    (∀ c ∈ Node.ofStatements found.1, c.Sits (.ifBlock :: o.openKinds)) ∧
      PartsSit .ifPart .ifBlock (.ifBlock :: o.openKinds) found.2) ?_).bind fun found v facts => ?_
  · have wf := wf_within ⟨.ifBlock, header, true⟩ so.wf
    have bound : u.remaining < depth := by omega
    rw [← so.openKinds]
    refine ((sound.statements _ wf bound).and (sit.statements _ wf bound)).bind fun body v facts => .get ?_
    obtain ⟨read, each⟩ := facts
    have between := between_of_body rfl read
    have less : v.remaining ≤ u.remaining := between.so.later.remaining
    exact (ifParts_sit phrases sound sit rfl rfl _ false between (by omega)).bind
      fun _ _ parts => ⟨each, parts⟩
  · exact sits_of_parts [.expression condition] rfl rfl rfl rfl rfl facts.1 facts.2

theorem tryBlock_sits (phrases : r.Sound) (sound : b.Sound depth) (sit : b.Sit depth) (wf : s.Wf)
    (solid : s.kind.isSolid = true) (bound : s.remaining ≤ depth) :
    Ensures (tryBlock r b) s fun st _ => (Node.ofStatement st).Sits s.openKinds := by
  refine read_ensures wf solid fun so fewer same => ?_
  refine (so.endStatement _).bind fun header u facts => ?_
  obtain ⟨-, so⟩ := facts
  have left := so.later.remaining
  refine (within_result (P := fun found =>
    (∀ c ∈ Node.ofStatements found.1, c.Sits (.tryBlock :: s.openKinds)) ∧
      PartsSit .tryPart .tryBlock (.tryBlock :: s.openKinds) found.2) ?_).bind fun found v facts => ?_
  · have wf := wf_within ⟨.tryBlock, header, true⟩ so.wf
    have bound : u.remaining < depth := by omega
    rw [← same, ← so.openKinds]
    refine ((sound.statements _ wf bound).and (sit.statements _ wf bound)).bind fun body v facts => .get ?_
    obtain ⟨read, each⟩ := facts
    have between := between_of_body rfl read
    have less : v.remaining ≤ u.remaining := between.so.later.remaining
    exact (tryParts_sit phrases sound sit rfl rfl _ false between (by omega)).bind
      fun _ _ parts => ⟨each, parts⟩
  · exact sits_of_parts [] rfl rfl rfl rfl rfl facts.1 facts.2

theorem selectBlock_sits (phrases : r.Sound) (sound : b.Sound depth) (sit : b.Sit depth) (wf : s.Wf)
    (solid : s.kind.isSolid = true) (bound : s.remaining ≤ depth) :
    Ensures (selectBlock r b) s fun st _ => (Node.ofStatement st).Sits s.openKinds := by
  refine read_ensures wf solid fun so fewer same => ?_
  refine (so.eatPlace rfl).bind fun caseKeyword t facts => ?_
  have so := facts.1
  refine (so.part (value_yields phrases so.wf)).bind fun subject u so => ?_
  refine (so.endStatement _).bind fun header v facts => ?_
  obtain ⟨-, so⟩ := facts
  have left := so.later.remaining
  refine (within_result (P := fun found =>
    (∀ c ∈ Node.ofStatements found.1, c.Sits (.selectBlock :: s.openKinds)) ∧
      PartsSit .caseBlock .selectBlock (.selectBlock :: s.openKinds) found.2) ?_).bind
    fun found w facts => ?_
  · have wf := wf_within ⟨.selectBlock, header, true⟩ so.wf
    have bound : v.remaining < depth := by omega
    rw [← same, ← so.openKinds]
    refine ((sound.statements _ wf bound).and (sit.statements _ wf bound)).bind
      fun body w facts => ?_
    obtain ⟨leading, stop⟩ := body
    obtain ⟨read, each⟩ := facts
    have between := between_of_body rfl read
    dsimp -zeta only
    extract_lets rest
    have goOn (x : ParseState) (between : Between ⟨.selectBlock, header, true⟩ v.here
        { v with blocks := ⟨.selectBlock, header, true⟩ :: v.blocks } x
        (Node.ofStatements leading) stop) :
        Ensures (rest ()) x fun found _ =>
          (∀ c ∈ Node.ofStatements found.1, c.Sits (.selectBlock :: v.openKinds)) ∧
            PartsSit .caseBlock .selectBlock (.selectBlock :: v.openKinds) found.2 := by
      have less : x.remaining ≤ v.remaining := between.so.later.remaining
      refine .get ?_
      exact (caseBlocks_sit phrases sound sit rfl rfl _ false between (by omega)).bind
        fun _ _ parts => ⟨each, parts⟩
    split
    · exact goOn w between
    · refine .beginConstruct ((between.so.beginConstruct.report _ rfl fun _ => read.order).bind
        fun _ x facts => ?_)
      obtain ⟨so, -, ahead⟩ := facts
      refine goOn x ⟨so, fun y stops => ?_, between.accepted⟩
      have other := next_of_accepts rfl (by simp) between.accepted stops
      have starts := terminator?_of_standsAt (between.stands y stops) other
      exact .inl (terminator?_of_ahead ahead ▸ starts)
  · exact sits_of_parts [.expression subject] rfl rfl rfl rfl rfl facts.1 facts.2

-- Single lines

theorem lineEndIf_kind (s : ParseState) :
    Ensures lineEndIf s fun ending _ => ∀ e ∈ ending, e.kind = .ifBlock := by
  refine .check (.kindAfter ?_)
  split
  · exact fun _ ends => Option.some.inj ends ▸ rfl
  · exact fun _ none => by cases none

theorem lineIf_sits {o : ParseState} {lo : Nat} {start : Location} {condition : Expression}
    {ns : List Node} (sound : b.Sound depth) (sit : b.Sit depth) (thenKeyword : Location)
    (so : Stretch lo o s ns []) (bound : o.remaining < depth) :
    Ensures (lineIf b start condition thenKeyword) s fun st _ =>
      (Node.ofStatement st).Sits o.openKinds := by
  have left := so.later.remaining
  refine (withinLineIf_result (P := fun found =>
    ∀ c ∈ Node.ofStatements found.1 ++ (found.2.2.map Node.ofStatements).getD [],
      c.Keeps (c.opened ++ o.openKinds)) ?_).bind
    fun found t each => (lineEndIf_kind t).bind fun ending u ends => ?_
  · have wf := (ParseState.Act.depth (s.lineIfDepth + 1)).wf so.wf
    have bound : s.remaining < depth := by omega
    rw [← so.openKinds]
    refine ((sound.line _ wf bound).and (sit.line _ wf bound)).bind fun statements t facts => ?_
    obtain ⟨⟨so, -⟩, first⟩ := facts
    refine (so.eatPlace rfl).bind fun place u facts => ?_
    have so := facts.1
    have less : u.remaining ≤ s.remaining := so.later.remaining
    cases place with
    | none => exact .pure fun c member => first c (by simpa using member)
    | some place =>
      refine (sit.line _ so.wf (by omega)).bind fun others v second => ?_
      intro c member
      rcases List.mem_append.1 member with early | late
      · exact first c early
      · rw [so.openKinds] at second
        exact second c late
  · refine ⟨Node.refused_of_stray?_eq_none rfl, .intro (Node.endsAsOpened_of_map rfl ends) ?_ ?_⟩
    · simp [Node.isLineIf, Node.ofStatement]
    · intro c member
      rcases List.mem_cons.1 member with rfl | item
      · exact Node.keeps_of_isPhrase rfl
      · exact each c item

theorem ifStatement_sits (phrases : r.Sound) (sound : b.Sound depth) (sit : b.Sit depth) (wf : s.Wf)
    (solid : s.kind.isSolid = true) (bound : s.remaining ≤ depth) :
    Ensures (ifStatement r b) s fun st _ => (Node.ofStatement st).Sits s.openKinds := by
  refine read_ensures wf solid fun so fewer same => ?_
  rw [← same]
  refine (so.part (value_yields phrases so.wf)).bind fun condition t so => ?_
  refine (so.eatPlace rfl).bind fun thenKeyword u facts => .peekKind ?_
  have so := facts.1
  split
  · exact lineIf_sits sound sit _ so (by omega)
  · exact ifBlock_sits phrases sound sit _ so (by omega)

end Parse

end VisualBasic
