import VisualBasic.Proofs.Parse.Progress

/-!
The blocks around a rule.  Whatever a statement or declaration opens it also leaves, so the blocks
and the single-line `If` statements around it are the same behind it as before it.  A body that
stops at a terminator hands it to the innermost of these blocks.
-/

set_option autoImplicit false

namespace VisualBasic

/-- The same blocks and single-line `If` statements are open. -/
structure ParseState.SameContext (s t : ParseState) : Prop where
  blocks : t.blocks = s.blocks
  depth : t.lineIfDepth = s.lineIfDepth

namespace ParseState.SameContext

variable {s t u : ParseState}

theorem refl (s : ParseState) : s.SameContext s := ⟨rfl, rfl⟩

theorem trans (first : s.SameContext t) (second : t.SameContext u) : s.SameContext u :=
  ⟨second.blocks.trans first.blocks, second.depth.trans first.depth⟩

theorem ofStretch {lo : Nat} {ns : List Node} {owed : List (BlockKind × Nat)}
    (so : Stretch lo s t ns owed) : s.SameContext t :=
  ⟨so.blocks, so.depth⟩

theorem ofIdles (idles : s.Idles t) : s.SameContext t := ⟨idles.blocks, idles.depth⟩

theorem ofAttempt {n : Node} (attempt : Attempt s t n) : s.SameContext t := by
  rcases attempt with ⟨so, -⟩ | stalls
  · exact ofStretch so
  · exact ofStretch stalls.so

theorem report (s : ParseState) (problem : Problem) (span : Span) :
    s.SameContext (s.report problem span) :=
  ⟨s.blocks_report problem span, s.lineIfDepth_report problem span⟩

end ParseState.SameContext

namespace Parse

open ParseState (SameContext)

variable {α : Type} {r : Rules} {b : Bodies} {depth : Nat} {s t u : ParseState}

/-- A body has stopped in the blocks that it started in.  A terminator that it stopped at is for the
innermost of them and can be taken. -/
structure Returns (s t : ParseState) (stop : Option Terminator) : Prop where
  context : s.SameContext t
  takes : ∀ x, stop = some x → Takes s t x

namespace Returns

variable {stop : Option Terminator}

theorem ofBody {container : Container} {span : Span} {ns : List Node}
    (body : Body s.blocks.head? container s t span ns stop) : Returns s t stop :=
  ⟨.ofStretch body.so, fun x stops => ⟨body.stands x stops, body.accepted x stops⟩⟩

theorem ofDecides (decides : Decides s t (.stop stop)) : Returns s t stop :=
  ⟨.ofStretch decides.1, decides.2.1⟩

theorem after (before : s.SameContext t) (returns : Returns t u stop) : Returns s u stop := by
  obtain ⟨context, takes⟩ := returns
  unfold Takes at takes
  rw [before.blocks] at takes
  exact ⟨before.trans context, takes⟩

theorem marked {items : List α} {span : α → Span} (returns : Returns s t stop) :
    Ensures (listSpan span items) t fun _ u => Returns s u stop := by
  unfold listSpan
  split
  · exact returns
  · exact ⟨⟨returns.context.blocks, returns.context.depth⟩, returns.takes⟩

end Returns

-- Declarations in any container

/-- A list that was asked whether to stop is still in its context. -/
def StopsIn (s : ParseState) (step : ListStep) (t : ParseState) : Prop :=
  s.SameContext t ∧ ∀ stop, step = .stop stop → Returns s t stop

theorem StopsIn.goOn (same : s.SameContext t) : StopsIn s .goOn t :=
  ⟨same, fun _ stops => by cases stops⟩

theorem StopsIn.stop {stop : Option Terminator} (returns : Returns s t stop) :
    StopsIn s (.stop stop) t := by
  refine ⟨returns.context, fun stop stops => ?_⟩
  cases stops
  exact returns

theorem StopsIn.after {step : ListStep} (before : s.SameContext t) (stopsIn : StopsIn t step u) :
    StopsIn s step u :=
  ⟨before.trans stopsIn.1, fun stop stops => (stopsIn.2 stop stops).after before⟩

theorem StopsIn.ofDecides {step : ListStep} (decides : Decides s t step) : StopsIn s step t := by
  cases step with
  | goOn => exact .goOn (.ofStretch decides.1)
  | stop stop => exact .stop (.ofDecides decides)

theorem stopUnclosed_context (s : ParseState) : Ensures stopUnclosed s (StopsIn s) := by
  refine .get ?_
  cases s.blocks.head? with
  | none => exact .stop ⟨.refl s, by simp⟩
  | some block =>
    have reported := SameContext.report { s with suppressed := false } (.unclosed block.kind)
      block.header
    exact .stop ⟨⟨reported.blocks, reported.depth⟩, by simp⟩

theorem declarationStops_context (container : Container) (wf : s.Wf) :
    Ensures (firstStop [stopAtTerminator, stopLeaving container]) s (StopsIn s) := by
  refine (stopAtTerminator_decides wf).bind fun step t ⟨decides, _⟩ => ?_
  have stopsIn := StopsIn.ofDecides decides
  cases step with
  | stop stop => exact stopsIn
  | goOn =>
    have leaving : Ensures (stopLeaving container) t (StopsIn t) := by
      refine .get ?_
      split
      · exact stopUnclosed_context t
      · exact .goOn (.refl t)
    refine leaving.bind fun step u more => ?_
    cases step <;> exact more.after stopsIn.1

theorem declarationsWithin_returns (phrases : r.Sound) (sound : b.Sound depth)
    (container : Container) (n : Nat) (order : DeclarationOrder) (fitting : Fitting depth s) :
    Ensures (declarationsWithin r b container n order) s fun found t =>
      Returns s t found.2 := by
  -- on the number of items; unlike `declarations_body`, for containers that are not open blocks too
  induction n generalizing s order with
  | zero => exact ⟨.refl s, fun _ stops => by cases stops⟩
  | succ n ih =>
    refine ((separators_silent phrases fitting.wf).and (separators_arrive phrases fitting.wf)).bind
      fun _ t ⟨before, arrived⟩ => ?_
    have same : s.SameContext t := .ofStretch before
    refine ((declarationStops_context container before.wf).and
      (declarationStops_run container before.wf)).bind fun step u ⟨stopsIn, stopped, goesOn⟩ => ?_
    cases step with
    | stop stop => exact (stopsIn.2 stop rfl).after same
    | goOn =>
      have fits := fitting.after (before.runs.trans stopped)
      have begun := (Stretch.refl fits.wf).beginConstruct
      refine .beginConstruct ((checkOrder_decides container order begun.wf).bind
        fun order v ⟨⟨checked, ahead⟩, _⟩ => ?_)
      obtain ⟨goesOn, stands⟩ := goesOn rfl
      have goesOn : v.kind ≠ .endOfStream := (kinds_of_ahead ahead).1 ▸ goesOn
      have inside := kind_ne_of_arrived (ahead.trans stands) arrived
      have checked := begun.append checked
      have fits := fits.after checked.runs
      refine (Ensures.moving goesOn inside
        (declaration_attempt phrases sound container fits.wf fits.bound)).bind
        fun first w ⟨read, _⟩ => ?_
      have same := (same.trans stopsIn.1).trans (.ofStretch (checked.append read))
      exact (ih order (fits.after read.runs)).bind fun _ _ returns => returns.after same

theorem declarations_returns (phrases : r.Sound) (sound : b.Sound depth) (container : Container)
    (fitting : Fitting depth s) :
    Ensures (declarations r b container) s fun found t => Returns s t found.2 :=
  .get ((declarationsWithin_returns phrases sound container _ _ fitting).bind
    fun _ _ returns => returns.marked.bind fun _ _ returns => returns)

-- Everywhere

/-- From a state on, statements and declarations close what they open, and so do lists of them. -/
structure RestoresContext (r : Rules) (b : Bodies) (s : ParseState) : Prop where
  statement : Ensures (statement r b) s fun _ t => s.SameContext t
  statements : Ensures (statements r b) s fun found t => Returns s t found.2
  lineStatements : Ensures (lineStatements r b) s fun _ t => s.SameContext t
  declaration : ∀ container, Ensures (declaration r b container) s fun _ t => s.SameContext t
  declarations : ∀ container,
    Ensures (declarations r b container) s fun found t => Returns s t found.2

theorem restoresContext (phrases : r.Sound) (sound : b.Sound depth) (fitting : Fitting depth s) :
    RestoresContext r b s where
  statement :=
    (statement_attempt phrases sound fitting.wf fitting.bound).mono fun _ _ => .ofAttempt
  statements := (statements_body phrases sound fitting.wf fitting.bound).mono fun _ _ => .ofBody
  lineStatements := (lineStatements_ensures phrases sound fitting.wf fitting.bound).mono
    fun _ _ facts => .ofStretch facts.1
  declaration container :=
    (declaration_attempt phrases sound container fitting.wf fitting.bound).mono
      fun _ _ => .ofAttempt
  declarations container := declarations_returns phrases sound container fitting

-- Texts

theorem finish_context (wf : s.Wf) : Ensures finish s fun _ t => s.SameContext t :=
  (finish_idles wf).mono fun _ _ => .ofIdles

theorem wholeFile_context (phrases : r.Sound) (sound : b.Sound depth) (fitting : Fitting depth s) :
    Ensures (wholeFile r b) s fun _ t => s.SameContext t := by
  refine (declarations_body phrases sound fitting.wf (fun _ => rfl) fitting.bound).bind
    fun found t body => ?_
  exact (finish_context body.so.wf).bind fun _ u after =>
    SameContext.trans (.ofStretch body.so) after

theorem wholeScript_context (phrases : r.Sound) (sound : b.Sound depth) (fitting : Fitting depth s) :
    Ensures (wholeScript r b) s fun _ t => s.SameContext t := by
  refine (statements_body phrases sound fitting.wf fitting.bound).bind fun found t body => ?_
  exact (finish_context body.so.wf).bind fun _ u after =>
    SameContext.trans (.ofStretch body.so) after

theorem singleDeclaration_context (phrases : r.Sound) (sound : b.Sound depth)
    (fitting : Fitting depth s) :
    Ensures (singleDeclaration r b) s fun _ t => s.SameContext t := by
  refine (separators_silent phrases fitting.wf).bind fun _ t before => ?_
  have fits := fitting.after before.runs
  refine (declaration_attempt phrases sound .script fits.wf fits.bound).bind fun d u attempt => ?_
  exact (finish_context attempt.wf).bind fun _ v after =>
    SameContext.trans (.ofStretch before) ((SameContext.ofAttempt attempt).trans after)

theorem singleStatement_context (phrases : r.Sound) (sound : b.Sound depth)
    (fitting : Fitting depth s) :
    Ensures (singleStatement r b) s fun _ t => s.SameContext t := by
  refine (separators_silent phrases fitting.wf).bind fun _ t before => .peek ?_
  have same : s.SameContext t := .ofStretch before
  split
  next =>
    refine (before.report _ rfl fun _ => before.wf.stream.order).bind fun _ u ⟨so, _⟩ => ?_
    rw [pure_bind]
    exact (finish_context so.wf).bind fun _ v after => SameContext.trans (.ofStretch so) after
  next =>
    have fits := fitting.after before.runs
    refine (statement_attempt phrases sound fits.wf fits.bound).bind fun st u attempt => ?_
    exact (finish_context attempt.wf).bind fun _ v after =>
      same.trans ((SameContext.ofAttempt attempt).trans after)

end Parse

/-- The rule leaves all blocks of the text, at every depth that is no limit. -/
def ScanOptions.EndsOutside {α : Type} (o : ScanOptions) (text : String)
    (rule : Rules → Bodies → Parse α) (isScript : Bool) : Prop :=
  ∀ depth, ((o.tokenize text).filter fun t => !t.isComment).length < depth →
    Ensures (rule (.ofDepth o.version depth) (.ofDepth isScript (.ofDepth o.version depth) depth))
      (o.before text) fun _ t => t.blocks = [] ∧ t.lineIfDepth = 0

theorem endsOutside_of_context {α : Type} {rule : Rules → Bodies → Parse α} (o : ScanOptions)
    (text : String) (isScript : Bool)
    (context : ∀ r b (s : ParseState) depth, Rules.Sound r → b.Sound depth → Parse.Fitting depth s →
      Ensures (rule r b) s fun _ t => s.SameContext t) :
    o.EndsOutside text rule isScript := by
  intro depth deep
  have phrases := Rules.ofDepth_sound o.version depth
  obtain ⟨left, -, outside⟩ := ParseState.start_frame ((o.tokenize text).filterMap Token.comment?)
    ((o.tokenize text).filter fun t => !t.isComment)
  have fitting : Parse.Fitting depth (o.before text) :=
    ⟨ParseState.wf_start _ (stream_tokenize o text), Nat.le_trans left (Nat.le_of_lt deep)⟩
  exact (context _ _ _ depth phrases (Bodies.ofDepth_sound phrases isScript depth) fitting).mono
    fun _ t same => ⟨same.blocks.trans outside, same.depth.trans rfl⟩

/-- Whatever state a parser of a text has come to, statements and declarations leave the blocks that
they open and no others; a list of them that stops at a terminator has come to one that the
innermost block accepts and that can be taken.  So every rule for texts ends outside of all
blocks. -/
theorem block_context_is_restored (o : ScanOptions) (text : String) :
    (∀ s, (o.before text).Runs s → ∀ isScript n depth, s.remaining ≤ depth →
      Parse.RestoresContext (.ofDepth o.version n) (.ofDepth isScript (.ofDepth o.version n) depth)
        s) ∧
    o.EndsOutside text Parse.wholeFile false ∧ o.EndsOutside text Parse.wholeScript true ∧
    o.EndsOutside text Parse.singleDeclaration false ∧
    o.EndsOutside text Parse.singleStatement false ∧
    o.EndsOutside text (fun r _ => Parse.expression r .lowest) false ∧
    o.EndsOutside text (fun r _ => Parse.typeName r) false := by
  refine ⟨fun s runs isScript n depth bound => ?_, ?_, ?_, ?_, ?_, ?_, ?_⟩
  · have phrases := Rules.ofDepth_sound o.version n
    exact Parse.restoresContext phrases (Bodies.ofDepth_sound phrases isScript depth)
      ⟨runs.wf (ParseState.wf_start _ (stream_tokenize o text)), bound⟩
  · exact endsOutside_of_context o text false fun _ _ _ _ => Parse.wholeFile_context
  · exact endsOutside_of_context o text true fun _ _ _ _ => Parse.wholeScript_context
  · exact endsOutside_of_context o text false fun _ _ _ _ => Parse.singleDeclaration_context
  · exact endsOutside_of_context o text false fun _ _ _ _ => Parse.singleStatement_context
  · exact endsOutside_of_context o text false fun _ _ _ _ phrases _ fitting =>
      (Parse.expression_yields phrases .lowest fitting.wf).mono fun _ _ => .ofStretch
  · exact endsOutside_of_context o text false fun _ _ _ _ phrases _ fitting =>
      (Parse.typeName_yields phrases fitting.wf).mono fun _ _ => .ofStretch

end VisualBasic
