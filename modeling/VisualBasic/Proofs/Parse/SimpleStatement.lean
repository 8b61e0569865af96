import VisualBasic.Parse.SimpleStatement
import VisualBasic.Proofs.Parse.Directive
import VisualBasic.Proofs.Parse.Signature

/-!
Statements that hold no other statements, and the lines that end a block or start its next part.
-/

set_option autoImplicit false

namespace VisualBasic.Parse

variable {r : Rules} {s : ParseState}

-- Labels and jumps

theorem integerOf?_of_kind {k : Token} (kind : k.kind = .integerLiteral) :
    ∃ value, integerOf? k = some value := by
  unfold Token.kind at kind
  unfold integerOf?
  cases lexeme : k.lexeme with
  | literal l =>
    rw [lexeme] at kind
    cases l with
    | integer value base suffix =>
      cases value with
      | signed value => exact ⟨value, rfl⟩
      | unsigned => simp [Lexeme.kind, Literal.tokenKind] at kind
    | _ => simp [Lexeme.kind, Literal.tokenKind] at kind
  | _ => simp [lexeme, Lexeme.kind] at kind

/-- The current token is a whole statement. -/
theorem token_statement {lo : Nat} {o : ParseState} {n : Node} (so : Stretch lo o s [] [])
    (solid : s.kind.isSolid = true) (span : n.span = s.current.span) (leaf : n.children = [])
    (whole : n.isProper = true) (owes : n.unclosed = []) (noLoop : n.closing? = none)
    (flat : n.lists = []) : Stretch lo o s.advance [n] [] := by
  have finish := ParseState.finish_le_limit_advance so.wf (ParseState.kind_ne_endOfStream solid)
  refine (so.pass solid).close ?_ ?_ ?_ (by simp) leaf (fun _ => whole) owes noLoop (by simp)
    fun _ => Node.orderly_of_flat flat _
  · rw [span]; exact so.lower
  · rw [span]; exact so.wf.stream.order
  · rw [span]; exact finish

theorem lineNumber_yields (wf : s.Wf) (kind : s.kind = .integerLiteral) :
    Yields lineNumber s fun st => [Node.ofStatement st] := by
  obtain ⟨value, number⟩ := integerOf?_of_kind kind
  refine .peek (.get ?_)
  extract_lets rest
  have goOn (t : ParseState) (so : Stretch s.here s t [] []) (ahead : t.ahead = s.ahead) :
      Ensures (rest ()) t fun st u => Stretch s.here s u [Node.ofStatement st] [] := by
    obtain ⟨current, -⟩ := List.cons.inj ahead
    have labelled : Ensures label t fun l u =>
        l = .lineNumber value s.current.span ∧ u = t.advance := by
      refine .peek ?_
      rw [current, number]
      split
      next name => rw [ParseState.kind, name] at kind; simp at kind
      next found _ => simp_all; exact ⟨rfl, rfl⟩
      next absent _ => simp at absent
    refine labelled.bind fun l u facts => ?_
    obtain ⟨same, moved⟩ := facts
    subst same moved
    have solid : t.kind.isSolid = true := by
      rw [ParseState.kind, current]
      exact isSolid_of_integerOf? number
    refine token_statement (n := .statement (.label (.lineNumber value _) s.current.span)) so solid
      ?_ rfl rfl rfl rfl rfl
    rw [current]
    rfl
  split
  · exact goOn s (.refl wf) rfl
  · exact ((Stretch.refl wf).report _ rfl fun _ => wf.stream.order).bind
      fun _ t facts => goOn t facts.1 facts.2.2

theorem goToStatement_yields (wf : s.Wf) (solid : s.kind.isSolid = true) :
    Yields goToStatement s fun st => [Node.ofStatement st] := by
  refine .read wf solid fun so reached => ?_
  refine (so.part (label_yields so.wf)).bind fun target t so => ?_
  exact so.finishStatement (so.past reached) rfl rfl

/-- A block that is not named has been reported. -/
theorem namedBlock_stretch {lo : Nat} {o : ParseState} {ns : List Node}
    {ofKind? : TokenKind → Option BlockKind} {problem : Problem} (so : Stretch lo o s ns [])
    (word : ∀ kind block, ofKind? kind = some block → kind.isSolid = true)
    (quiet : problem.isQuiet = true) :
    Ensures (namedBlock ofKind? problem) s fun block t =>
      Stretch lo o t ns [] ∧ (t.diagnostics = [] → block.isSome = true) := by
  refine .peekKind ?_
  split
  next block named => exact ⟨so.pass (word _ _ named), fun _ => rfl⟩
  next =>
    refine (so.reportUnexpected quiet).bind fun _ t ⟨so, dirty, _⟩ => ?_
    exact ⟨so, fun none => absurd none dirty⟩

theorem isSolid_of_exitKind (kind : TokenKind) (block : BlockKind)
    (named : BlockKind.ofExitKind? kind = some block) : kind.isSolid = true := by
  cases kind <;> first | rfl | simp [BlockKind.ofExitKind?] at named

theorem isSolid_of_continueKind (kind : TokenKind) (block : BlockKind)
    (named : BlockKind.ofContinueKind? kind = some block) : kind.isSolid = true := by
  cases kind <;> first | rfl | simp [BlockKind.ofContinueKind?] at named

theorem exitStatement_yields (wf : s.Wf) (solid : s.kind.isSolid = true) :
    Yields exitStatement s fun st => [Node.ofStatement st] := by
  refine .read wf solid fun so reached => ?_
  refine (namedBlock_stretch so isSolid_of_exitKind rfl).bind fun block t ⟨so, named⟩ => ?_
  exact so.finishStatementWhen (so.past reached) rfl rfl named

theorem continueStatement_yields (wf : s.Wf) (solid : s.kind.isSolid = true) :
    Yields continueStatement s fun st => [Node.ofStatement st] := by
  refine .read wf solid fun so reached => ?_
  refine (namedBlock_stretch so isSolid_of_continueKind rfl).bind fun block t ⟨so, named⟩ => ?_
  exact so.finishStatementWhen (so.past reached) rfl rfl named

theorem stopStatement_yields (wf : s.Wf) (solid : s.kind.isSolid = true) :
    Yields stopStatement s fun st => [Node.ofStatement st] := by
  refine .read wf solid fun so reached => ?_
  exact so.finishStatement (Nat.le_of_lt reached) rfl rfl

theorem endProgram_yields (wf : s.Wf) (solid : s.kind.isSolid = true) :
    Yields endProgram s fun st => [Node.ofStatement st] := by
  have so := token_statement (n := .statement (.endProgram s.current.span)) (.refl wf) solid rfl
    rfl rfl rfl rfl rfl
  refine (Stretch.refl wf).read solid fun _ => .atStatementEnd ?_
  extract_lets give
  split
  · exact so
  · refine (so.reportUnexpected rfl).bind fun _ t ⟨so, dirty, _⟩ => ?_
    exact (so.resync [] dirty).bind fun _ _ so => so

theorem optionalOperand_yields {build : Option Expression → Span → Statement} (sound : r.Sound)
    (wf : s.Wf) (solid : s.kind.isSolid = true)
    (builds : build = .returnValue ∨ build = .throwException) :
    Yields (optionalOperand r build) s fun st => [Node.ofStatement st] := by
  refine .read wf solid fun so reached => .atStatementEnd ?_
  refine (so.optionally (Node.ofOption .expression) rfl fun _ => value_yields sound so.wf).bind
    fun operand t so => ?_
  rcases builds with rfl | rfl
  · exact so.finishStatement (so.past reached) rfl rfl
  · exact so.finishStatement (so.past reached) rfl rfl

theorem raiseError_yields (sound : r.Sound) (wf : s.Wf) (solid : s.kind.isSolid = true) :
    Yields (raiseError r) s fun st => [Node.ofStatement st] := by
  refine .read wf solid fun so reached => ?_
  refine (so.part (value_yields sound so.wf)).bind fun operand t so => ?_
  exact so.finishStatement (so.past reached) rfl rfl

theorem obsoleteJump_yields (wf : s.Wf) (solid : s.kind.isSolid = true) :
    Yields obsoleteJump s fun st => [Node.ofStatement st] := by
  refine .peek ?_
  refine ((Stretch.refl wf).report _ rfl fun _ => wf.stream.order).bind
    fun _ t ⟨so, dirty, ahead⟩ => ?_
  obtain ⟨current, -⟩ := List.cons.inj ahead
  have solid : t.kind.isSolid = true := by rwa [ParseState.kind, current]
  have reached : s.here ≤ t.advance.limit := by
    have := (ParseState.limit_advance so.wf (ParseState.kind_ne_endOfStream solid)).1
    rw [ParseState.here, current] at this
    exact Nat.le_of_lt this
  refine so.skip solid fun so => ?_
  have dirty : t.advance.diagnostics ≠ [] := t.diagnostics_advance ▸ dirty
  have later := ((Stretch.refl so.wf).advanceWhile ParseState.within_skipped
    t.advance.remaining dirty).later
  have so := so.advanceWhile ParseState.within_skipped t.advance.remaining dirty
  exact so.finishWhen (Nat.le_trans reached later.limit) rfl rfl
    fun none => absurd (later.clean none) dirty

-- Errors

theorem handlerTarget_yields (wf : s.Wf) :
    Ensures handlerTarget s fun a t =>
      Stretch s.here s t (Node.childrenOfStatement (.onError a default)) [] ∧ a ≠ .bad := by
  have so := Stretch.refl wf
  refine .get ?_
  split
  next zero => exact ⟨so.pass (isSolid_of_integerOf? zero), by simp⟩
  next =>
    split
    next minus =>
      obtain ⟨kind, one⟩ := minus
      have solid : s.kind.isSolid = true := by rw [kind]; rfl
      refine so.skip solid fun so => so.skip ?_ fun so => ⟨so, by simp⟩
      obtain ⟨k, rest, follows, -⟩ :=
        ParseState.exists_following wf (ParseState.kind_ne_endOfStream solid)
      rw [ParseState.advance_of_cons follows]
      rw [follows] at one
      exact isSolid_of_integerOf? (k := k) one
    next => exact (label_yields wf).bind fun _ _ so => ⟨so, by simp⟩

/-- An action that is missing has been reported. -/
theorem onErrorAction_stretch {lo : Nat} {o : ParseState} (so : Stretch lo o s [] []) :
    Ensures onErrorAction s fun a t =>
      Stretch lo o t (Node.childrenOfStatement (.onError a default)) [] ∧
        (t.diagnostics = [] → a ≠ .bad) := by
  refine .peekKind ?_
  split
  next kind =>
    refine so.skip (by rw [kind]; rfl) fun so => ?_
    exact (handlerTarget_yields so.wf).mono fun a t ⟨more, given⟩ => ⟨so.append more, fun _ => given⟩
  next kind =>
    refine so.skip (by rw [kind]; rfl) fun so => ?_
    refine (so.expect rfl rfl).bind fun found t ⟨so, present⟩ => ?_
    cases found with
    | none => exact ⟨so, fun none => absurd (present none) (by simp)⟩
    | some _ => exact ⟨so, fun _ => by simp⟩
  next =>
    refine (so.reportUnexpected rfl).bind fun _ t ⟨so, dirty, _⟩ => ?_
    exact ⟨so, fun none => absurd none dirty⟩

theorem onErrorStatement_yields (wf : s.Wf) (solid : s.kind.isSolid = true) :
    Yields onErrorStatement s fun st => [Node.ofStatement st] := by
  refine .read wf solid fun so reached => ?_
  refine (so.expect rfl rfl).bind fun found t ⟨so, present⟩ => ?_
  cases found with
  | none =>
    have dirty : t.diagnostics ≠ [] := fun none => absurd (present none) (by simp)
    have reached := so.past reached
    have later := ((Stretch.refl so.wf).resynced [] dirty).later
    exact (so.resynced [] dirty).finishWhen (Nat.le_trans reached later.limit) rfl rfl
      fun none => absurd (later.clean none) dirty
  | some _ =>
    refine (onErrorAction_stretch so).bind fun action u ⟨so, given⟩ => ?_
    have reached := so.past reached
    cases action with
    | bad =>
      exact so.finishStatementWhen reached rfl rfl fun none => absurd rfl (given none)
    | _ => exact so.finishStatement reached rfl rfl

theorem resumeTarget_yields (wf : s.Wf) :
    Yields resumeTarget s fun a => Node.childrenOfStatement (.resume a default) := by
  refine ((Stretch.refl wf).eat rfl).bind fun found t ⟨so, cases⟩ => ?_
  cases found with
  | some _ => exact so
  | none =>
    refine .atStatementEnd ?_
    split
    · exact so
    · exact (so.part (label_yields so.wf)).bind fun _ _ so => so

theorem resumeStatement_yields (wf : s.Wf) (solid : s.kind.isSolid = true) :
    Yields resumeStatement s fun st => [Node.ofStatement st] := by
  refine .read wf solid fun so reached => ?_
  refine (so.part (resumeTarget_yields so.wf)).bind fun target t so => ?_
  have reached := so.past reached
  cases target <;> exact so.finishStatement reached rfl rfl

-- Assignments and calls

theorem isSolid_of_compound {kind : TokenKind} {op : CompoundOperator}
    (denotes : CompoundOperator.ofKind? kind = some op) : kind.isSolid = true := by
  cases kind <;> first | rfl | simp [CompoundOperator.ofKind?] at denotes

/-- A group that is taken for an argument after all is an argument. -/
theorem regroup_stretch {lo : Nat} {o : ParseState} {target callee : Expression}
    {first : Argument Expression} (so : Stretch lo o s [.expression target] [])
    (groups : Groups target) (regroups : regroup? target = some (callee, first)) :
    Stretch target.span.start.index o s [.expression callee, .argument first] [] := by
  unfold regroup? at regroups
  split at regroups
  next callee openParen mark value argumentSpan commas listSpan closeParen span callSpan =>
    obtain ⟨rfl, rfl⟩ : callee = _ ∧ _ = first := by simpa using regroups
    have call := so.rebase.fits _ (List.mem_singleton.2 rfl)
    have target := call.child rfl List.mem_cons_self
    have argument := call.child rfl (List.mem_cons_of_mem _ List.mem_cons_self)
    have given := argument.child rfl List.mem_cons_self
    obtain ⟨outer, inner, behind⟩ := groups _ List.mem_cons_self
    rw [Node.contains_iff] at outer inner
    -- the group becomes an operand around its value, and the operand an argument
    have operand : (Node.expression (.parenthesized value closeParen span)).Fits span.start.index
        span.finish.index (s.diagnostics = []) := by
      refine Node.Fits.own (n := .expression (.parenthesized value closeParen span)) ?_
        (fun c member => ?_) (List.pairwise_singleton _ _) (fun _ => rfl) rfl fun _ _ => rfl
      · exact Nat.le_trans inner.1 (Nat.le_trans argument.order inner.2)
      · rw [List.mem_singleton.1 member]
        exact given.mono inner.1 inner.2 id
    have regrouped := Node.Fits.own (n := .argument ⟨none, none,
      some (.parenthesized value closeParen span), span⟩) operand.order
      (fun c member => by rwa [List.mem_singleton.1 member]) (List.pairwise_singleton _ _)
      (fun _ => rfl) rfl fun _ _ => rfl
    -- the value and the callee stay what they are, the nodes around the value have one child each
    have parts := (so.noOverlap rfl).children
    have within := (parts.of_mem (List.mem_cons_of_mem _ List.mem_cons_self)).children
    have noOverlap := (parts.of_mem List.mem_cons_self).append
      (Node.NoOverlap.around (n := .argument ⟨none, none, some (.parenthesized value closeParen span),
        span⟩) (.around within)) fun a first b last => by
      rw [List.mem_singleton.1 first, List.mem_singleton.1 last]
      exact behind
    refine so.rebase.replace _ rfl rfl (fun m member => ?_)
      (List.pairwise_pair.2 (Nat.le_trans target.order behind)) noOverlap
    rcases List.mem_cons.1 member with rfl | last
    · exact target.mono (Nat.le_refl _) call.finish id
    · rw [List.mem_singleton.1 last]
      exact regrouped.mono outer.1 (Nat.le_trans outer.2 call.finish) id
  next => simp at regroups

theorem isNamed_of_regroup {target callee : Expression} {first : Argument Expression}
    (regroups : regroup? target = some (callee, first)) : first.isNamed = false := by
  unfold regroup? at regroups
  split at regroups
  next =>
    obtain ⟨-, rfl⟩ : _ ∧ _ = first := by simpa using regroups
    rfl
  next => simp at regroups

theorem callArguments_ensures {o : ParseState} {target : Expression} {lo : Nat}
    (sound : r.Sound) (so : Stretch lo o s [.expression target] []) (groups : Groups target) :
    Ensures (callArguments r target) s fun a t =>
      Stretch target.span.start.index o t (.expression a.1 :: Node.ofArguments a.2) [] ∧
        (t.diagnostics = [] → a.2.all ArgumentList.namesAreLast = true) := by
  refine .check ?_
  split
  next callee first regroups _ =>
    have so := regroup_stretch so groups regroups
    exact ((bareArgumentsFrom_yields sound [.expression callee] so).and
      (bareArgumentsFrom_names sound (isNamed_of_regroup regroups) so.wf)).bind
      fun _ _ facts => facts
  next =>
    exact ((so.rebase.part (bareArguments_yields sound so.wf)).and
      (bareArguments_names sound so.wf)).bind fun _ _ facts => facts

theorem assignmentOrCall_yields (sound : r.Sound) (wf : s.Wf) :
    Yields (assignmentOrCall r) s fun st => [Node.ofStatement st] := by
  refine (operand_groups sound wf).bind fun target t ⟨so, groups⟩ => ?_
  have lower := (so.fits _ (List.mem_singleton.2 rfl)).start
  extract_lets start finish
  have call (c : Expression × Option Arguments) (u : ParseState)
      (so : Stretch start.index s u (.expression c.1 :: Node.ofArguments c.2) [])
      (names : u.diagnostics = [] → c.2.all ArgumentList.namesAreLast = true) :
      Ensures (finish c) u fun st v => Stretch s.here s v [Node.ofStatement st] [] := by
    refine Ensures.mono (so.finishStatementWhen (so.reached List.mem_cons_self) rfl rfl
      fun none => ?_) fun _ _ so => so.weaken lower
    exact Node.isProper_of_arguments (names none) rfl
  refine .peek ?_
  split
  next kind =>
    refine so.rebase.skip (by rw [ParseState.kind, kind]; rfl) fun so => ?_
    refine (so.part (value_yields sound so.wf)).bind fun source u so => ?_
    exact so.finishStatementFrom lower (so.reached List.mem_cons_self) rfl rfl
  next =>
    split
    next op denotes =>
      refine so.rebase.skip (isSolid_of_compound denotes) fun so => ?_
      refine (so.part (value_yields sound so.wf)).bind fun source u so => ?_
      exact so.finishStatementFrom lower (so.reached List.mem_cons_self) rfl rfl
    next =>
      refine .atStatementEnd ?_
      split
      · exact call (target, none) t so.rebase fun _ => rfl
      · exact (callArguments_ensures sound so groups).bind fun c u facts => call c u facts.1 facts.2

theorem callStatement_yields (sound : r.Sound) (wf : s.Wf) (solid : s.kind.isSolid = true) :
    Yields (callStatement r) s fun st => [Node.ofStatement st] := by
  refine .read wf solid fun so reached => ?_
  refine (so.part (operand_yields sound so.wf)).bind fun target t so => ?_
  exact so.finishStatement (so.past reached) rfl rfl

theorem keywordAssignment_yields (sound : r.Sound) (wf : s.Wf) (solid : s.kind.isSolid = true) :
    Yields (keywordAssignment r) s fun st => [Node.ofStatement st] := by
  refine .read wf solid fun so reached => ?_
  refine (so.part (operand_yields sound so.wf)).bind fun target t so => ?_
  refine (so.expectPlace rfl rfl).bind fun equals u ⟨so, _⟩ => ?_
  extract_lets rest
  have goOn (equals : Location) (v : ParseState)
      (so : Stretch s.here s.advance v [.expression target] []) :
      Ensures (rest equals) v fun st w => Stretch s.here s.advance w [Node.ofStatement st] [] := by
    refine (so.part (value_yields sound so.wf)).bind fun source w so => ?_
    exact so.finishStatement (so.past reached) rfl rfl
  cases equals with
  | some equals => exact goOn equals u so
  | none => exact so.placeholder.bind fun place v ⟨_, so, _⟩ => goOn place v so

theorem isSolid_of_atMidAssignment (wf : s.Wf) (starts : s.atMidAssignment = true) :
    s.kind.isSolid = true ∧ s.advance.kind.isSolid = true := by
  simp only [ParseState.atMidAssignment, Bool.and_eq_true, beq_iff_eq] at starts
  obtain ⟨⟨word, -⟩, group⟩ := starts
  have solid : s.kind.isSolid = true := isSolid_of_isContextual word
  refine ⟨solid, ?_⟩
  obtain ⟨k, rest, follows, -⟩ := ParseState.exists_following wf (ParseState.kind_ne_endOfStream solid)
  rw [follows, Lookahead.kindBehindGroup?] at group
  rw [ParseState.advance_of_cons follows]
  by_cases paren : k.kind = .mark .leftParenthesis
  · show k.kind.isSolid = true
    rw [paren]
    rfl
  · simp [paren] at group

theorem midAssignment_yields (sound : r.Sound) (wf : s.Wf) (starts : s.atMidAssignment = true) :
    Yields (midAssignment r) s fun st => [Node.ofStatement st] := by
  obtain ⟨first, second⟩ := isSolid_of_atMidAssignment wf starts
  refine .read wf first fun so reached => so.skip second fun so => ?_
  refine (so.part (value_yields sound so.wf)).bind fun target t so => ?_
  refine (so.expect rfl rfl).bind fun _ u ⟨so, _⟩ => ?_
  refine (so.part (value_yields sound so.wf)).bind fun start v so => ?_
  refine (so.whenEaten (Node.ofOption .expression) rfl rfl
    fun _ wf => value_yields sound wf).bind fun length w so => ?_
  refine so.closeParenthesis.bind fun _ x so => ?_
  refine (so.expect rfl rfl).bind fun _ y ⟨so, _⟩ => ?_
  refine (so.part (value_yields sound so.wf)).bind fun source z so => ?_
  exact so.finishStatement (so.past reached) rfl rfl

-- Other statements of one line

theorem localDeclaration_yields (sound : r.Sound) (wf : s.Wf) :
    Yields (localDeclaration r) s fun st => [Node.ofStatement st] := by
  refine .here ((modifiers_ensures (.refl wf)).bind fun modifiers t facts => ?_)
  obtain ⟨so, forward, distinct⟩ := facts
  refine ((checkModifiers_stretch forward _ so).and (checkModifiers_keeps _ so.wf distinct)).bind
    fun _ u facts => ?_
  obtain ⟨so, keeps⟩ := facts
  refine (variableDeclarators_yields sound true so.wf).bind fun declarators v ⟨more, nonempty⟩ => ?_
  obtain ⟨first, member⟩ := List.exists_mem_of_ne_nil _ nonempty
  have so := so.append more
  refine so.finishStatementWhen (so.reached (List.mem_map_of_mem member)) rfl rfl fun none => ?_
  exact Node.isProper_of_isModified (keeps (more.later.clean none)) rfl

theorem raiseEvent_yields (sound : r.Sound) (wf : s.Wf) (solid : s.kind.isSolid = true) :
    Yields (raiseEvent r) s fun st => [Node.ofStatement st] := by
  refine .read wf solid fun so reached => ?_
  refine (so.part (identifier_yields so.wf)).bind fun name t so => .check ?_
  refine (optionalArguments_ensures sound _ so).bind fun arguments u facts => ?_
  obtain ⟨so, names⟩ := facts
  exact so.finishStatementWhen (so.past reached) rfl rfl
    fun none => Node.isProper_of_arguments (names none) rfl

theorem handlerStatement_yields (sound : r.Sound) (adds : Bool) (wf : s.Wf)
    (solid : s.kind.isSolid = true) :
    Yields (handlerStatement r adds) s fun st => [Node.ofStatement st] := by
  refine .read wf solid fun so reached => ?_
  refine (so.part (value_yields sound so.wf)).bind fun event t so => ?_
  refine (so.expectPlace rfl rfl).bind fun comma u ⟨so, _⟩ => ?_
  refine (so.part (value_yields sound so.wf)).bind fun handler v so => ?_
  refine so.finishStatementWhen (so.past reached) rfl rfl fun _ => ?_
  cases adds <;> rfl

theorem values_yields (sound : r.Sound) (wf : s.Wf) :
    Yields (values r) s fun l => l.items.map .expression :=
  commaList_yields .expression _ (fun _ wf => value_yields sound wf) wf

theorem eatContextual_stretch {lo : Nat} {o : ParseState} {ns : List Node} (keyword : Keyword)
    (so : Stretch lo o s ns []) :
    Ensures (eatContextual keyword) s fun _ t => Stretch lo o t ns [] := by
  refine .peek ?_
  split
  next spells => exact so.pass (isSolid_of_isContextual spells)
  next => exact so

theorem reDimStatement_yields (sound : r.Sound) (wf : s.Wf) (solid : s.kind.isSolid = true) :
    Yields (reDimStatement r) s fun st => [Node.ofStatement st] := by
  refine .read wf solid fun so reached => ?_
  refine (eatContextual_stretch _ so).bind fun preserve t so => ?_
  refine (so.part (values_yields sound so.wf)).bind fun arrays u so => ?_
  exact so.finishStatement (so.past reached) rfl rfl

theorem eraseStatement_yields (sound : r.Sound) (wf : s.Wf) (solid : s.kind.isSolid = true) :
    Yields (eraseStatement r) s fun st => [Node.ofStatement st] := by
  refine .read wf solid fun so reached => ?_
  refine (so.part (values_yields sound so.wf)).bind fun arrays t so => ?_
  exact so.finishStatement (so.past reached) rfl rfl

-- The ends and parts of blocks

theorem terminator?_of_ahead {t : ParseState} (ahead : t.ahead = s.ahead) :
    t.terminator? = s.terminator? := by
  obtain ⟨current, following⟩ := List.cons.inj ahead
  simp only [ParseState.terminator?, ParseState.kind, ParseState.kindAfter, current, following]

/-- The tokens of a terminator are whole. -/
theorem isSolid_of_terminator {t : Terminator} (starts : s.terminator? = some t) :
    s.kind.isSolid = true := by
  unfold ParseState.terminator? Lookahead.terminator? at starts
  split at starts
  all_goals simp_all [TokenKind.isSolid]

theorem isSolid_after_end {kind : BlockKind} (starts : s.terminator? = some (.endOf kind))
    (word : s.kind ≠ .word .kwWend) : s.kindAfter.isSolid = true := by
  have named : BlockKind.ofEndKind? s.kindAfter = some kind := by
    unfold ParseState.terminator? Lookahead.terminator? at starts
    split at starts
    all_goals try split at starts
    all_goals simp_all
  cases after : s.kindAfter <;> first | rfl | simp [after, BlockKind.ofEndKind?] at named

theorem endBlock_line {kind : BlockKind} (wf : s.Wf)
    (starts : s.terminator? = some (.endOf kind)) :
    Ensures (endBlock kind) s fun e t => Line s.here s t e.span [] := by
  have solid := isSolid_of_terminator starts
  refine Line.read wf solid fun so reached => ?_
  extract_lets rest
  have goOn (t : ParseState) (so : Stretch s.here s.advance t [] []) :
      Ensures (rest ()) t fun e u => Line s.here s.advance u e.span [] :=
    (so.endLine (so.beyond reached)).bind fun _ _ line => line
  split
  · exact goOn _ so
  next word =>
    refine so.skip ?_ fun so => goOn _ so
    rw [ParseState.kind_advance wf solid]
    exact isSolid_after_end starts word

theorem wordLine_line (wf : s.Wf) (solid : s.kind.isSolid = true) :
    Ensures wordLine s fun span t => Line s.here s t span [] :=
  Line.read wf solid fun so reached => so.endLine reached

theorem expectThen_stretch {lo : Nat} {o : ParseState} {ns : List Node}
    (thenKeyword : Option Location) (so : Stretch lo o s ns []) :
    Ensures (expectThen thenKeyword) s fun _ t => Stretch lo o t ns [] := by
  refine .atStatementEnd ?_
  split
  · refine (so.reportUnexpected rfl).bind fun _ t ⟨so, dirty, _⟩ => ?_
    exact so.resync [] dirty
  · exact so

theorem elseIfLine_line (sound : r.Sound) (wf : s.Wf) (starts : s.terminator? = some .elseIf) :
    Ensures (elseIfLine r) s fun l t => Line s.here s t l.span [.expression l.condition] := by
  have solid := isSolid_of_terminator starts
  refine Line.read wf solid fun so reached => ?_
  extract_lets rest
  have goOn (t : ParseState) (so : Stretch s.here s.advance t [] []) :
      Ensures (rest ()) t fun l u =>
        Line s.here s.advance u l.span [.expression l.condition] := by
    refine (so.part (value_yields sound so.wf)).bind fun condition u so => ?_
    refine (so.eatPlace rfl).bind fun thenKeyword v ⟨so, _⟩ => ?_
    refine (expectThen_stretch thenKeyword so).bind fun _ w so => ?_
    exact (so.endLine (so.beyond reached)).bind fun _ _ line => line
  split
  next word =>
    refine so.skip ?_ fun so => goOn _ so
    have word : s.kind = .word .kwElse := word
    have after : s.kindAfter = .word .kwIf := by
      simpa [ParseState.terminator?, Lookahead.terminator?, word] using starts
    rw [ParseState.kind_advance wf solid, after]
    rfl
  next => exact goOn _ so

theorem loopCondition_yields (sound : r.Sound) (wf : s.Wf) :
    Yields (loopCondition r) s Node.ofLoopCondition := by
  have so := Stretch.refl wf
  refine .peek ?_
  extract_lets isWhile
  split
  next starts =>
    have solid : s.kind.isSolid = true := by
      rcases Bool.or_eq_true _ _ ▸ starts with word | spells
      · rw [ParseState.kind, beq_iff_eq.1 word]; rfl
      · exact isSolid_of_isContextual spells
    refine so.skip solid fun so => ?_
    exact (so.part (value_yields sound so.wf)).bind fun _ _ so => so
  next =>
    refine .atStatementEnd ?_
    split
    · exact so
    · refine (so.reportUnexpected rfl).bind fun _ t facts => ?_
      exact (facts.1.resync [] facts.2.1).bind fun _ _ so => so

theorem loopLine_line (sound : r.Sound) (wf : s.Wf) (solid : s.kind.isSolid = true) :
    Ensures (loopLine r) s fun l t => Line s.here s t l.span (Node.ofLoopCondition l.condition) := by
  refine Line.read wf solid fun so reached => ?_
  refine (so.part (loopCondition_yields sound so.wf)).bind fun condition t so => ?_
  exact (so.endLine (so.beyond reached)).bind fun _ _ line => line

theorem loopCondition_forward (r : Rules) (s : ParseState) :
    Ensures (loopCondition r) s fun found _ => ∀ c, found = some c → c.span.Forward := by
  refine .peek ?_
  extract_lets isWhile rest
  split
  · refine Ensures.any.bind fun _ t _ => Ensures.any.bind fun _ u _ => .spanFrom fun c same => ?_
    rw [← Option.some.inj same]
    exact u.spanSince_forward _
  · refine .atStatementEnd ?_
    split
    · exact fun c same => by cases same
    · exact Ensures.any.bind fun _ t _ => Ensures.any.bind fun _ u _ => fun c same => by cases same

theorem loopLine_forward (r : Rules) (s : ParseState) :
    Ensures (loopLine r) s fun l _ => ∀ c, l.condition = some c → c.span.Forward :=
  Ensures.any.bind fun _ t _ => (loopCondition_forward r t).bind fun _ _ forward =>
    Ensures.any.bind fun _ _ _ => forward

theorem nextLine_line (sound : r.Sound) (wf : s.Wf) (solid : s.kind.isSolid = true) :
    Ensures (nextLine r) s fun l t =>
      Line s.here s t l.span (l.loopVariables.items.map .expression) := by
  refine Line.read wf solid fun so reached => .atStatementEnd ?_
  extract_lets rest
  have goOn (named : CommaList Expression) (t : ParseState)
      (so : Stretch s.here s.advance t (named.items.map .expression) []) :
      Ensures (rest named) t fun l u =>
        Line s.here s.advance u l.span (l.loopVariables.items.map .expression) :=
    (so.endLine (so.beyond reached)).bind fun _ _ line => line
  split
  · exact .here (goOn (.empty _) _ so)
  · exact (so.part (values_yields sound so.wf)).bind fun named t so => goOn named t so

theorem catchLine_line (sound : r.Sound) (wf : s.Wf) (solid : s.kind.isSolid = true) :
    Ensures (catchLine r) s fun l t => Line s.here s t l.span (Node.ofCatch l) := by
  refine Line.read wf solid fun so reached => .check ?_
  refine (so.optionally (Node.ofOption .simpleName) rfl fun _ => identifier_yields so.wf).bind
    fun name t so => ?_
  extract_lets rest
  have goOn (type : Option TypeName) (u : ParseState)
      (so : Stretch s.here s.advance u
        (Node.ofOption .simpleName name ++ Node.ofOption .typeName type) []) :
      Ensures (rest type) u fun l v => Line s.here s.advance v l.span (Node.ofCatch l) := by
    refine (so.whenEaten (Node.ofOption .expression) rfl rfl
      fun _ wf => value_yields sound wf).bind fun filter v so => ?_
    exact (so.endLine (so.beyond reached)).bind fun _ _ line => line
  split
  · exact (so.whenEaten (Node.ofOption .typeName) rfl rfl
      fun _ wf => elementType_yields sound wf).bind fun type u so => goOn type u so
  · exact goOn none t (by simpa [Node.ofOption] using so)

theorem caseClause_yields (sound : r.Sound) (wf : s.Wf) :
    Yields (caseClause r) s fun c => [.caseClause c] := by
  refine .here (((Stretch.refl wf).eatPlace rfl).bind fun isKeyword t facts => .peekKind ?_)
  obtain ⟨so, -⟩ := facts
  split
  next op denotes =>
    have solid : t.kind.isSolid = true := by
      obtain ⟨denotes, -⟩ := Option.filter_eq_some_iff.1 denotes
      exact isSolid_of_binary denotes
    refine so.skip solid fun so => ?_
    refine (so.part (value_yields sound so.wf)).bind fun operand u so => ?_
    exact so.finish (so.reached List.mem_cons_self) rfl rfl
  next =>
    refine (so.reportUnexpected rfl).bind fun _ u ⟨so, dirty, _⟩ => ?_
    refine (so.missing (fun place => .expression (.bad (.point place)))
      (fun none => absurd none dirty) rfl).bind fun place v ⟨so, _⟩ => ?_
    exact so.finish (so.reached List.mem_cons_self) rfl rfl
  next =>
    refine (so.part (value_yields sound so.wf)).bind fun lower u so => ?_
    refine (so.eatPlace rfl).bind fun toKeyword v ⟨so, _⟩ => ?_
    cases toKeyword with
    | some toKeyword =>
      refine (so.part (value_yields sound so.wf)).bind fun upper w so => ?_
      exact so.finish (so.reached List.mem_cons_self) rfl rfl
    | none => exact so.around rfl rfl rfl

theorem caseLine_line (sound : r.Sound) (wf : s.Wf) (solid : s.kind.isSolid = true) :
    Ensures (caseLine r) s fun l t => Line s.here s t l.span (l.clauses.items.map .caseClause) := by
  refine Line.read wf solid fun so reached => ?_
  refine (so.part (commaList_yields .caseClause _ (fun _ wf => caseClause_yields sound wf)
    so.wf)).bind fun clauses t so => ?_
  exact (so.endLine (so.beyond reached)).bind fun _ _ line => line

theorem caseElseLine_line (wf : s.Wf) (starts : s.terminator? = some .caseElse) :
    Ensures caseElseLine s fun span t => Line s.here s t span [] := by
  have solid := isSolid_of_terminator starts
  refine Line.read wf solid fun so reached => so.skip ?_ fun so => ?_
  · have after : s.kindAfter = .word .kwElse := by
      unfold ParseState.terminator? Lookahead.terminator? at starts
      split at starts
      all_goals try split at starts
      all_goals simp_all
    rw [ParseState.kind_advance wf solid, after]
    rfl
  · exact so.endLine (so.beyond reached)

/-- A stray terminator has been reported. -/
theorem strayTerminator_ensures (sound : r.Sound) {x : Terminator} (wf : s.Wf)
    (starts : s.terminator? = some x) :
    Ensures (strayTerminator r x) s fun st t =>
      Stretch s.here s t [Node.ofStatement st] [] ∧ t.diagnostics ≠ [] := by
  refine .peek (((Stretch.refl wf).report _ rfl fun _ => wf.stream.order).bind
    fun _ t ⟨so, dirty, ahead⟩ => ?_)
  have starts : t.terminator? = some x := (terminator?_of_ahead ahead).trans starts
  have solid := isSolid_of_terminator starts
  have stays {u : ParseState} {span : Span} {ns : List Node} {n : Node}
      (line : Line t.here t u span ns) (none : u.diagnostics = []) : n.isProper = true :=
    absurd (line.so.later.clean none) dirty
  have read {u : ParseState} {n : Node} (more : Stretch t.here t u [n] []) :
      Stretch s.here s u [n] [] ∧ u.diagnostics ≠ [] :=
    ⟨so.append more, fun none => dirty (more.later.clean none)⟩
  cases x with
  | endOf kind =>
    exact (endBlock_line so.wf starts).bind fun _ _ line => read (line.node rfl rfl (stays line))
  | loop =>
    exact (loopLine_line sound so.wf solid).bind fun _ _ line =>
      read (line.node rfl rfl (stays line))
  | next =>
    exact (nextLine_line sound so.wf solid).bind fun _ _ line =>
      read (line.node rfl rfl (stays line))
  | elseIf =>
    exact (elseIfLine_line sound so.wf starts).bind fun _ _ line =>
      read (line.node rfl rfl (stays line))
  | elsePart | finallyPart =>
    exact (wordLine_line so.wf solid).bind fun _ _ line => read (line.node rfl rfl (stays line))
  | case =>
    exact (caseLine_line sound so.wf solid).bind fun _ _ line =>
      read (line.node rfl rfl (stays line))
  | caseElse =>
    exact (caseElseLine_line so.wf starts).bind fun _ _ line =>
      read (line.node rfl rfl (stays line))
  | catchPart =>
    exact (catchLine_line sound so.wf solid).bind fun _ _ line =>
      read (line.node rfl rfl (stays line))

end VisualBasic.Parse
