import VisualBasic.Proofs.Parse.Source
import VisualBasic.Proofs.Stray.Declaration

/-!
Which terminators become statements or declarations of their own.  A list goes on at a terminator
only where no open block accepts it, so the tree that is made of the list keeps it within blocks that
refuse it.  A single-line `If` does not ask the blocks around it.
-/

set_option autoImplicit false

namespace VisualBasic

namespace Parse

variable {r : Rules} {b : Bodies} {depth : Nat} {s : ParseState}

/-- No open block accepts the terminator that stands here. -/
def Unwanted (s : ParseState) : Prop :=
  ∀ x, s.terminator? = some x → ∀ kind ∈ s.openKinds, kind.accepts x = false

/-- What has been read from here keeps its terminators, and is itself in place if it is not a
terminator for an open block. -/
structure Placed (s : ParseState) (n : Node) : Prop where
  keeps : n.Keeps (n.opened ++ s.openKinds)
  refused : Unwanted s → n.Refused s.openKinds

theorem placed_of_sits {n : Node} (sits : n.Sits s.openKinds) : Placed s n :=
  ⟨sits.keeps, fun _ => sits.refused⟩

/-- A terminator that stands alone has only phrases below it. -/
theorem placed_of_stray {n : Node} {x : Terminator} (isStray : n.stray? = some x)
    (stands : s.terminator? = some x) (noEnd : n.ending? = none)
    (phrases : n.children.all Node.isPhrase = true) : Placed s n := by
  constructor
  next =>
    exact .of_children (Node.endsAsOpened_of_ending?_eq_none noEnd)
      fun c member => Node.sits_of_isPhrase (List.all_eq_true.1 phrases c member)
  next =>
    intro unwanted y same
    rw [isStray] at same
    exact unwanted y (stands.trans same)

theorem declaration_placed (phrases : r.Sound) (sit : b.Sit depth) (container : Container)
    (wf : s.Wf) (bound : s.remaining ≤ depth) :
    Ensures (declaration r b container) s fun d _ => Placed s (.declaration d) := by
  have simple {p : Parse Declaration} {t : ParseState}
      (simple : Ensures p t fun d _ => d.isSimple = true) :
      Ensures p t fun d _ => Placed s (.declaration d) :=
    simple.mono fun _ _ simple => placed_of_sits (Declaration.sits_of_isSimple simple)
  refine .peek (.get ?_)
  split
  next kind ends =>
    refine Ensures.any.bind fun _ t _ => (endBlock_kind kind t).bind fun e u same => ?_
    exact placed_of_stray rfl (ends.trans (by rw [same])) rfl rfl
  next => exact simple (badDeclaration_simple _)
  next =>
    split
    next => exact Ensures.any.bind fun _ t _ => simple (optionDeclaration_simple t)
    next => exact Ensures.any.bind fun _ t _ => simple rfl
    next => exact simple (typeList_simple _ _)
    next => exact simple (typeList_simple _ _)
    next =>
      exact (attributedDeclaration_sits phrases sit container wf bound).mono
        fun _ _ sits => placed_of_sits sits

theorem strayTerminator_placed {x : Terminator} (stands : s.terminator? = some x) :
    Ensures (strayTerminator r x) s fun st _ => Placed s (Node.ofStatement st) := by
  refine .peek (Ensures.any.bind fun _ t _ => ?_)
  cases x with
  | endOf kind =>
    refine (endBlock_kind kind t).bind fun e u same => ?_
    exact placed_of_stray rfl (stands.trans (by rw [same])) rfl rfl
  | loop => exact placed_of_stray rfl stands rfl (Node.all_ofOption_isPhrase (fun _ => rfl) _)
  | next => exact placed_of_stray rfl stands rfl (Node.all_map_isPhrase (fun _ => rfl) _)
  | case => exact placed_of_stray rfl stands rfl (Node.all_map_isPhrase (fun _ => rfl) _)
  | catchPart => exact placed_of_stray rfl stands rfl (Node.all_ofCatch_isPhrase _)
  | elseIf | elsePart | caseElse | finallyPart => exact placed_of_stray rfl stands rfl rfl

-- Statements

theorem keywordStatement_sits (phrases : r.Sound) (sound : b.Sound depth) (sit : b.Sit depth)
    (wf : s.Wf) {keyword : Keyword} (word : s.kind = .word keyword) (bound : s.remaining ≤ depth) :
    Ensures (keywordStatement r b keyword) s fun st _ =>
      (Node.ofStatement st).Sits s.openKinds := by
  have solid : s.kind.isSolid = true := by rw [word]; rfl
  have simple {p : Parse Statement} (simple : Ensures p s fun st _ => st.isSimple = true) :
      Ensures p s fun st _ => (Node.ofStatement st).Sits s.openKinds :=
    simple.mono fun _ _ simple => Statement.sits_of_isSimple simple
  unfold keywordStatement
  split
  · exact simple rfl
  · exact simple rfl
  · exact simple rfl
  · exact simple rfl
  · exact simple keywordAssignment_simple
  · exact simple keywordAssignment_simple
  · exact simple rfl
  · exact simple rfl
  · exact simple rfl
  · exact simple rfl
  · exact simple rfl
  · exact simple endProgram_simple
  · exact simple rfl
  · exact simple rfl
  · exact simple rfl
  · exact simple rfl
  · exact simple rfl
  · exact simple rfl
  · exact simple onErrorStatement_simple
  · exact simple rfl
  · exact simple rfl
  · exact simple rfl
  · exact ifStatement_sits phrases sound sit wf solid bound
  · exact doBlock_sits phrases sit wf solid bound
  · exact forStatement_sits phrases sit wf solid bound
  · exact whileBlock_sits phrases sit wf solid bound
  · exact objectBlock_sits phrases sit .withObject wf solid bound
  · exact objectBlock_sits phrases sit .syncLock wf solid bound
  · exact usingBlock_sits phrases sit wf solid bound
  · exact tryBlock_sits phrases sound sit wf solid bound
  · exact selectBlock_sits phrases sound sit wf solid bound
  · exact simple operandStatement_simple

theorem plainStatement_sits (phrases : r.Sound) (sound : b.Sound depth) (sit : b.Sit depth)
    (wf : s.Wf) (bound : s.remaining ≤ depth) :
    Ensures (plainStatement r b) s fun st _ => (Node.ofStatement st).Sits s.openKinds := by
  have simple {p : Parse Statement} (simple : Ensures p s fun st _ => st.isSimple = true) :
      Ensures p s fun st _ => (Node.ofStatement st).Sits s.openKinds :=
    simple.mono fun _ _ simple => Statement.sits_of_isSimple simple
  refine .get ?_
  split
  next =>
    split
    · exact simple rfl
    · split
      · exact simple rfl
      · exact simple assignmentOrCall_simple
  next => exact simple lineNumber_simple
  next keyword word => exact keywordStatement_sits phrases sound sit wf word bound
  next => exact simple operandStatement_simple

theorem statement_placed (phrases : r.Sound) (sound : b.Sound depth) (sit : b.Sit depth)
    (wf : s.Wf) (bound : s.remaining ≤ depth) :
    Ensures (statement r b) s fun st _ => Placed s (Node.ofStatement st) := by
  have begun := (ParseState.Act.begin (s := s)).wf wf
  refine .beginConstruct (.get ?_)
  split
  next stands => exact (strayTerminator_placed stands).mono fun _ _ placed => ⟨placed.1, placed.2⟩
  next =>
    split
    · exact (declaration_placed phrases sit .script begun bound).bind
        fun _ _ placed => ⟨placed.1, placed.2⟩
    · exact (plainStatement_sits phrases sound sit begun bound).mono
        fun _ _ sits => placed_of_sits sits

-- Lists

/-- A list goes on at a terminator only where no open block accepts it. -/
theorem stopAtTerminator_unwanted (s : ParseState) :
    Ensures stopAtTerminator s fun step t => step = .goOn → t = s ∧ Unwanted s := by
  have stops : Ensures stopUnclosed s fun step t => step = .goOn → t = s ∧ Unwanted s := by
    refine .get ?_
    split <;> exact fun none => by cases none
  refine .get ?_
  split
  · exact stops
  · cases stands : s.terminator? with
    | none => exact fun _ => ⟨rfl, fun x same => by simp [stands] at same⟩
    | some x =>
      cases innermost : s.blocks.head? with
      | none =>
        have outside : s.openKinds = [] := by
          rw [ParseState.openKinds, List.head?_eq_none_iff.1 innermost, List.map_nil]
        exact fun _ => ⟨rfl, fun _ _ kind member => by simp [outside] at member⟩
      | some block =>
        dsimp only
        split
        · exact fun none => by cases none
        next refused =>
          split
          · exact stops
          next refusedOuter =>
            refine fun _ => ⟨rfl, fun y same kind member => ?_⟩
            obtain rfl : x = y := Option.some.inj (stands.symm.trans same)
            obtain ⟨opened, inside, rfl⟩ := List.mem_map.1 member
            obtain ⟨rest, split⟩ := List.head?_eq_some_iff.1 innermost
            rw [split] at inside
            rcases List.mem_cons.1 inside with rfl | outer
            · exact Bool.eq_false_iff.2 refused
            · refine Bool.eq_false_iff.2 fun accepts => refusedOuter ?_
              rw [ParseState.outerAccepts, split]
              exact List.any_eq_true.2 ⟨opened, outer, accepts⟩

theorem unwanted_of_ahead {t : ParseState} (ahead : t.ahead = s.ahead) (blocks : t.blocks = s.blocks)
    (unwanted : Unwanted s) : Unwanted t := by
  intro x stands
  rw [ParseState.openKinds, blocks]
  exact unwanted x (terminator?_of_ahead ahead ▸ stands)

theorem firstStop_unwanted {steps : List (Parse ListStep)} (wf : s.Wf)
    (each : ∀ step ∈ steps, ∀ t : ParseState, t.Wf → t.blocks = s.blocks →
      Ensures step t fun found u => Decides t u found) :
    Ensures (firstStop steps) s fun found t =>
      Unwanted s ∨ stopAtTerminator ∈ steps → found = .goOn → Unwanted t := by
  induction steps generalizing s with
  | nil =>
    intro known _
    rcases known with unwanted | member
    · exact unwanted
    · simp at member
  | cons step rest ih =>
    have asked : Ensures step s fun found t =>
        stopAtTerminator = step → found = .goOn → Unwanted s := by
      intro same
      subst same
      exact fun goesOn => (stopAtTerminator_unwanted s goesOn).2
    refine ((each step List.mem_cons_self s wf rfl).and asked).bind fun found t facts => ?_
    obtain ⟨decides, asked⟩ := facts
    cases found with
    | stop => exact fun _ none => by cases none
    | goOn =>
      have blocks := decides.1.blocks
      refine (ih decides.1.wf fun step member w wf same =>
        each step (List.mem_cons_of_mem _ member) w wf (same.trans blocks)).mono
        fun found u below known => below ?_
      rcases known with unwanted | member
      · exact .inl (unwanted_of_ahead decides.2 blocks unwanted)
      · rcases List.mem_cons.1 member with same | later
        · exact .inl (unwanted_of_ahead decides.2 blocks (asked same rfl))
        · exact .inr later

theorem listedStatement_placed (phrases : r.Sound) (sound : b.Sound depth) (sit : b.Sit depth)
    (wf : s.Wf) (bound : s.remaining ≤ depth) :
    Ensures (listedStatement r b) s fun st _ => Placed s (Node.ofStatement st) := by
  refine .get ?_
  split
  · exact placed_of_sits (Statement.sits_of_isSimple rfl)
  · exact .moving_result (P := fun st => Placed s (Node.ofStatement st))
      (statement_placed phrases sound sit wf bound)

theorem statementsWithin_sits (phrases : r.Sound) (sound : b.Sound depth) (sit : b.Sit depth)
    (n : Nat) (wf : s.Wf) (bound : s.remaining ≤ depth) :
    Ensures (statementsWithin r b n) s fun found _ =>
      ∀ st ∈ found.1, (Node.ofStatement st).Sits s.openKinds := by
  induction n generalizing s with
  | zero => exact List.forall_mem_nil _
  | succ n ih =>
    refine ((separators_silent phrases wf).and (separators_arrive phrases wf)).bind
      fun colons t ⟨before, arrived⟩ => ?_
    have left := before.later.remaining
    refine ((firstStop_decides before.wf statementStops_decide).and
      (firstStop_unwanted before.wf statementStops_decide)).bind fun step u facts => ?_
    obtain ⟨⟨decides, goesOn⟩, unwanted⟩ := facts
    cases step with
    | stop => exact List.forall_mem_nil _
    | goOn =>
      have before := before.append decides.1
      have left := before.later.remaining
      have unwanted := unwanted (.inr (by simp)) rfl
      have inside := kind_ne_of_arrived decides.2 arrived
      refine ((listedStatement_moves phrases sound before.wf (goesOn (by simp) rfl) inside
        (by omega)).and
        (listedStatement_placed phrases sound sit before.wf (by omega))).bind fun first v facts => ?_
      obtain ⟨⟨read, moved⟩, placed⟩ := facts
      refine (ih read.wf (by omega)).bind fun rest w others => ?_
      refine List.forall_mem_cons.2 ⟨?_, ?_⟩
      · rw [← before.openKinds]
        exact ⟨placed.refused unwanted, placed.keeps⟩
      · rw [← before.openKinds, ← read.openKinds]
        exact others

theorem statements_sit (phrases : r.Sound) (sound : b.Sound depth) (sit : b.Sit depth)
    (wf : s.Wf) (bound : s.remaining ≤ depth) :
    Ensures (statements r b) s fun body _ =>
      ∀ n ∈ Node.ofStatements body.1, n.Sits s.openKinds := by
  refine .get ((statementsWithin_sits phrases sound sit _ wf bound).bind fun found t each => ?_)
  refine Ensures.any.bind fun span u _ => ?_
  exact List.forall_mem_map.2 each

theorem lineWithin_keeps (phrases : r.Sound) (sound : b.Sound depth) (sit : b.Sit depth)
    (n : Nat) (wf : s.Wf) (bound : s.remaining ≤ depth) :
    Ensures (lineWithin r b n) s fun found _ => ∀ st ∈ found.1,
      (Node.ofStatement st).Keeps ((Node.ofStatement st).opened ++ s.openKinds) := by
  induction n generalizing s with
  | zero => exact List.forall_mem_nil _
  | succ n ih =>
    refine ((Stretch.refl wf).eatPlace rfl).bind fun colon t facts => ?_
    obtain ⟨so, cases⟩ := facts
    have left := so.later.remaining
    rw [← so.openKinds]
    obtain ⟨rfl, rfl, -⟩ | ⟨rfl, rfl, -⟩ := cases
    · refine .get ?_
      split
      next => exact List.forall_mem_nil _
      next goesOn =>
        have inside : t.kind ≠ .lineTerminator := fun line => goesOn (by simp [atLineIfEnd, line])
        have goesOn : t.kind ≠ .endOfStream := fun ends => goesOn (by simp [atLineIfEnd, ends])
        refine ((Ensures.moving goesOn inside (statement_attempt phrases sound wf bound)).and
          (.moving_result (P := fun st => Placed t (Node.ofStatement st))
            (statement_placed phrases sound sit wf bound))).bind fun first u facts => ?_
        obtain ⟨⟨read, moved⟩, placed⟩ := facts
        refine (ih read.wf (by omega)).bind fun rest v others => ?_
        rw [read.openKinds] at others
        exact List.forall_mem_cons.2 ⟨placed.keeps, others⟩
    · exact (ih so.wf (by omega)).bind fun _ _ others => others

theorem lineStatements_keep (phrases : r.Sound) (sound : b.Sound depth) (sit : b.Sit depth)
    (wf : s.Wf) (bound : s.remaining ≤ depth) :
    Ensures (lineStatements r b) s fun body _ =>
      ∀ n ∈ Node.ofStatements body, n.Keeps (n.opened ++ s.openKinds) := by
  refine .get ((lineWithin_keeps phrases sound sit _ wf bound).bind fun found t each => ?_)
  refine Ensures.any.bind fun span u _ => ?_
  exact List.forall_mem_map.2 each

theorem declarationsWithin_sits (phrases : r.Sound) (sound : b.Sound depth) (sit : b.Sit depth)
    {container : Container} (n : Nat) (order : DeclarationOrder) (wf : s.Wf)
    (top : s.blocks = [] → container = .file) (bound : s.remaining ≤ depth) :
    Ensures (declarationsWithin r b container n order) s fun found _ =>
      ∀ d ∈ found.1, (Node.declaration d).Sits s.openKinds := by
  induction n generalizing s order with
  | zero => exact List.forall_mem_nil _
  | succ n ih =>
    refine ((separators_silent phrases wf).and (separators_arrive phrases wf)).bind
      fun _ t ⟨before, arrived⟩ => ?_
    have stops := declarationStops_decide (s := t) (before.blocks.symm ▸ top)
    refine ((firstStop_decides before.wf stops).and (firstStop_unwanted before.wf stops)).bind
      fun step u facts => ?_
    obtain ⟨⟨decides, goesOn⟩, unwanted⟩ := facts
    cases step with
    | stop => exact List.forall_mem_nil _
    | goOn =>
      have before := (before.append decides.1).beginConstruct
      have unwanted : Unwanted u := unwanted (.inr (by simp)) rfl
      refine .beginConstruct ((checkOrder_decides container order before.wf).bind
        fun order v facts => ?_)
      obtain ⟨⟨checked, ahead⟩, -⟩ := facts
      have goesOn : v.kind ≠ .endOfStream := (kinds_of_ahead ahead).1 ▸ goesOn (by simp) rfl
      have inside := kind_ne_of_arrived (ahead.trans decides.2) arrived
      have unwanted : Unwanted v := unwanted_of_ahead ahead checked.blocks unwanted
      have before := before.append checked
      have left := before.later.remaining
      refine ((Ensures.moving goesOn inside
        (declaration_attempt phrases sound container before.wf (by omega))).and
        (.moving_result (P := fun d => Placed v (.declaration d))
          (declaration_placed phrases sit container before.wf (by omega)))).bind
        fun first w facts => ?_
      obtain ⟨⟨read, moved⟩, placed⟩ := facts
      have long := before.append read
      refine (ih order read.wf (long.blocks.symm ▸ top) (by omega)).bind fun rest x others => ?_
      refine List.forall_mem_cons.2 ⟨?_, ?_⟩
      · rw [← before.openKinds]
        exact ⟨placed.refused unwanted, placed.keeps⟩
      · rw [← long.openKinds]
        exact others

theorem declarations_sit (phrases : r.Sound) (sound : b.Sound depth) (sit : b.Sit depth)
    {container : Container} (wf : s.Wf) (top : s.blocks = [] → container = .file)
    (bound : s.remaining ≤ depth) :
    Ensures (declarations r b container) s fun body _ =>
      ∀ n ∈ Node.ofDeclarations body.1, n.Sits s.openKinds := by
  refine .get ((declarationsWithin_sits phrases sound sit _ _ wf top bound).bind
    fun found t each => ?_)
  refine Ensures.any.bind fun span u _ => ?_
  exact List.forall_mem_map.2 each

end Parse

theorem Bodies.ofDepth_sit {r : Rules} (phrases : r.Sound) (isScript : Bool) (depth : Nat) :
    (Bodies.ofDepth isScript r depth).Sit depth := by
  induction depth with
  | zero => exact ⟨fun _ _ bound => by omega, fun _ _ bound => by omega, fun _ _ _ bound _ => by omega⟩
  | succ n ih =>
    have sound := Bodies.ofDepth_sound phrases isScript n
    constructor
    next => exact fun s wf bound => Parse.statements_sit phrases sound ih wf (by omega)
    next => exact fun s wf bound => Parse.lineStatements_keep phrases sound ih wf (by omega)
    next =>
      exact fun container s wf bound inside =>
        Parse.declarations_sit phrases sound ih wf (fun none => absurd none inside) (by omega)

-- Whole texts

/-- What holds of the tree that a rule gives holds of the tree of every text. -/
theorem parseTokens_tree {α : Type} {P : α → Prop} (rule : Rules → Bodies → Parse α)
    (o : ScanOptions) (isScript : Bool) (text : String)
    (spec : ∀ r b (s : ParseState) depth, r.Sound → b.Sound depth → b.Sit depth → s.Wf →
      s.remaining ≤ depth → s.blocks = [] → Ensures (rule r b) s fun a _ => P a) :
    P (parseTokens rule o.version isScript (o.tokenize text)).tree := by
  have stream := stream_tokenize o text
  generalize o.tokenize text = tokens at stream ⊢
  have phrases := Rules.ofDepth_sound o.version ((tokens.filter fun t => !t.isComment).length + 1)
  obtain ⟨left, -, outside⟩ := ParseState.start_frame (tokens.filterMap Token.comment?)
    (tokens.filter fun t => !t.isComment)
  exact spec _ _ _ _ phrases (Bodies.ofDepth_sound phrases isScript _)
    (Bodies.ofDepth_sit phrases isScript _) (ParseState.wf_start _ stream) (Nat.le_succ_of_le left)
    outside

section

variable (o : ScanOptions) (text : String)

theorem parseFile_keeps :
    (Node.file (parseFile o text).tree).Keeps (Node.file (parseFile o text).tree).opened := by
  refine parseTokens_tree (P := fun file => (Node.file file).Keeps (Node.file file).opened)
    Parse.wholeFile o false text fun r b s depth phrases sound sit wf bound outside => ?_
  refine (Parse.declarations_sit phrases sound sit wf (fun _ => rfl) bound).bind
    fun found t each => Ensures.any.bind fun _ u _ => ?_
  rw [ParseState.openKinds, outside] at each
  exact .of_children (Node.endsAsOpened_of_ending?_eq_none rfl) each

theorem parseScript_keeps :
    (Node.script (parseScript o text).tree).Keeps (Node.script (parseScript o text).tree).opened := by
  refine parseTokens_tree (P := fun script => (Node.script script).Keeps (Node.script script).opened)
    Parse.wholeScript o true text fun r b s depth phrases sound sit wf bound outside => ?_
  refine (Parse.statements_sit phrases sound sit wf bound).bind
    fun found t each => Ensures.any.bind fun _ u _ => ?_
  rw [ParseState.openKinds, outside] at each
  exact .of_children (Node.endsAsOpened_of_ending?_eq_none rfl) each

theorem parseDeclaration_keeps :
    (Node.declaration (parseDeclaration o text).tree).Keeps
      (Node.declaration (parseDeclaration o text).tree).opened := by
  refine parseTokens_tree (P := fun d => (Node.declaration d).Keeps (Node.declaration d).opened)
    Parse.singleDeclaration o false text fun r b s depth phrases sound sit wf bound outside => ?_
  refine (Parse.separators_silent phrases wf).bind fun _ t so => ?_
  have left := so.later.remaining
  refine (Parse.declaration_placed phrases sit .script so.wf (by omega)).bind
    fun found u placed => Ensures.any.bind fun _ v _ => ?_
  have keeps := placed.keeps
  rw [so.openKinds, ParseState.openKinds, outside, List.map_nil, List.append_nil] at keeps
  exact keeps

theorem parseStatement_keeps :
    (Node.ofStatement (parseStatement o text).tree).Keeps
      (Node.ofStatement (parseStatement o text).tree).opened := by
  refine parseTokens_tree (P := fun st => (Node.ofStatement st).Keeps (Node.ofStatement st).opened)
    Parse.singleStatement o false text fun r b s depth phrases sound sit wf bound outside => ?_
  refine (Parse.separators_silent phrases wf).bind fun _ t so => .peek ?_
  have left := so.later.remaining
  have placed : Ensures (Parse.statement r b) t fun st _ =>
      (Node.ofStatement st).Keeps (Node.ofStatement st).opened := by
    refine (Parse.statement_placed phrases sound sit so.wf (by omega)).mono fun st _ placed => ?_
    have keeps := placed.keeps
    rwa [so.openKinds, ParseState.openKinds, outside, List.map_nil, List.append_nil] at keeps
  extract_lets rest
  have goOn (st : Statement) (u : ParseState)
      (keeps : (Node.ofStatement st).Keeps (Node.ofStatement st).opened) :
      Ensures (rest st) u fun st _ => (Node.ofStatement st).Keeps (Node.ofStatement st).opened :=
    Ensures.any.bind fun _ v _ => keeps
  split
  · have bad : (Node.ofStatement (.bad t.current.span)).Sits [] := Statement.sits_of_isSimple rfl
    exact Ensures.any.bind fun _ u _ => goOn _ u bad.keeps
  · exact placed.bind goOn

/-- Whatever the text, a terminator becomes a statement or declaration of its own only where no block
around it accepts it, or in a single-line `If`, and a block has no other `End` than its own. -/
theorem stray_terminators_are_refused :
    (Node.file (parseFile o text).tree).TerminatesBlocks ∧
      (Node.script (parseScript o text).tree).TerminatesBlocks ∧
      (Node.declaration (parseDeclaration o text).tree).TerminatesBlocks ∧
      (Node.ofStatement (parseStatement o text).tree).TerminatesBlocks :=
  ⟨(parseFile_keeps o text).terminatesBlocks, (parseScript_keeps o text).terminatesBlocks,
    (parseDeclaration_keeps o text).terminatesBlocks, (parseStatement_keeps o text).terminatesBlocks⟩

end

/-- The accessor that a property implies has the kind of a block that accepts what stands in it. -/
theorem implied_accessor_accepts_end :
    ¬ ∀ above n x, (Node.script (parseScript .standard
          "Property Get A\nEnd Get\nEnd Property").tree).Below above n →
        n.stray? = some x → (∀ p, above.head? = some p → p.isLineIf = false) →
        ∀ a ∈ above, ∀ kind ended, a.block? = some (kind, ended) → kind.accepts x = false := by
  intro refused
  have stands : ∃ property ∈ (Node.script (parseScript .standard
        "Property Get A\nEnd Get\nEnd Property").tree).children,
      ∃ accessor ∈ property.children, ∃ n ∈ accessor.children,
        n.stray? = some (.endOf .getBlock) ∧ accessor.isLineIf = false ∧
          accessor.block? = some (.getBlock, false) := by
    decide +kernel
  obtain ⟨property, ofScript, accessor, ofProperty, n, ofAccessor, isStray, inBlock, block⟩ := stands
  have below := ((Node.Below.root.child ofScript).child ofProperty).child ofAccessor
  have apart := refused _ n _ below isStray (fun p same => Option.some.inj same ▸ inBlock) accessor
    List.mem_cons_self _ _ block
  cases apart

end VisualBasic
