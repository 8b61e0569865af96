import VisualBasic.Proofs.Parse.Gap

/-!
Lists of statements and declarations.  A list that stops has come to a terminator for its block, or
has reported the block; no other step of a list does either.
-/

set_option autoImplicit false

namespace VisualBasic

namespace Parse

variable {r : Rules} {b : Bodies} {depth : Nat} {s t u : ParseState}

-- Reasons to stop

/-- What a block owes where its list stops. -/
def owedAt (block : Option OpenBlock) (stop : Option Terminator) : List (BlockKind × Nat) :=
  (block.map fun opened => opened.owing stop.isSome).getD []

/-- The terminator is for the innermost block and can be taken. -/
def Takes (s t : ParseState) (x : Terminator) : Prop :=
  t.StandsAt x ∧ ∃ opened, s.blocks.head? = some opened ∧ opened.kind.accepts x = true

/-- What has become of a list that was asked whether to stop. -/
def Decides (s t : ParseState) : ListStep → Prop
  | .goOn => Stretch s.here s t [] [] ∧ t.ahead = s.ahead
  | .stop stop => Stretch s.here s t [] (owedAt s.blocks.head? stop) ∧
      (∀ x, stop = some x → Takes s t x) ∧ (s.blocks = [] → t.kind = .endOfStream)

/-- A block is reported even where a diagnostic was left before. -/
theorem reportUnclosed_stretch {block : OpenBlock} (opened : block ∈ s.blocks) (wf : s.Wf) :
    Ensures (reportUnclosed block) s fun _ t => Stretch s.here s t [] (block.owing false) := by
  have begun := (Stretch.refl wf).beginConstruct
  have step := ParseState.Act.report (s := { s with suppressed := false })
    (.unclosed block.kind) block.header fun ordered => ordered.blocks block opened
  show Stretch s.here s (ParseState.report { s with suppressed := false } _ _) [] _
  rw [ParseState.report_of_not_suppressed rfl] at step ⊢
  have unpaired : (Problem.unclosed block.kind).isPairing = false := rfl
  have books := ParseState.Keeps.report (s := { s with suppressed := false }) unpaired block.header
  rw [ParseState.report_of_not_suppressed rfl] at books
  refine { begun with
    runs := begun.runs.trans (.act step)
    books := begun.books.trans books
    fits := by simp
    ascending := .nil
    noOverlap := fun _ => .nil
    orderly := by simp
    pending := fun p left => .inr ⟨p, left, rfl⟩
    ledger := ?_ }
  simp [ParseState.unclosed, OpenBlock.owing, Diagnostic.unclosed?]

theorem stopUnclosed_decides (wf : s.Wf) (ends : s.blocks = [] → s.kind = .endOfStream) :
    Ensures stopUnclosed s fun step t => Decides s t step ∧ step ≠ .goOn := by
  refine .get ?_
  cases innermost : s.blocks.head? with
  | none =>
    refine ⟨⟨?_, by simp, ends⟩, by simp⟩
    rw [innermost]
    exact .refl wf
  | some block =>
    refine (reportUnclosed_stretch (List.mem_of_mem_head? innermost) wf).bind
      fun _ t so => ⟨⟨?_, by simp, ?_⟩, by simp⟩
    · rw [innermost]
      exact so
    · intro none
      simp [none] at innermost

/-- A list stops before a terminator that its block accepts. -/
theorem decides_taken {block : OpenBlock} {x : Terminator} (wf : s.Wf)
    (innermost : s.blocks.head? = some block) (accepts : block.kind.accepts x = true)
    (stands : s.StandsAt x) : Decides s s (.stop (some x)) := by
  refine ⟨?_, fun y same => ?_, fun none => ?_⟩
  · rw [innermost]
    exact .refl wf
  · obtain rfl := Option.some.inj same
    exact ⟨stands, block, innermost, accepts⟩
  · simp [none] at innermost

theorem stopAtTerminator_decides (wf : s.Wf) :
    Ensures stopAtTerminator s fun step t =>
      Decides s t step ∧ (step = .goOn → t.kind ≠ .endOfStream) := by
  have unclosed (ends : s.blocks = [] → s.kind = .endOfStream) :
      Ensures stopUnclosed s fun step t =>
        Decides s t step ∧ (step = .goOn → t.kind ≠ .endOfStream) :=
    (stopUnclosed_decides wf ends).mono fun _ _ ⟨decides, stops⟩ =>
      ⟨decides, fun goOn => absurd goOn stops⟩
  refine .get ?_
  split
  next ends => exact unclosed fun _ => ends
  next goesOn =>
    split
    next x block starts innermost =>
      split
      next accepts => exact ⟨decides_taken wf innermost accepts (.inl starts), by simp⟩
      next =>
        split
        · exact unclosed fun none => by simp [none] at innermost
        · exact ⟨⟨.refl wf, rfl⟩, fun _ => goesOn⟩
    next => exact ⟨⟨.refl wf, rfl⟩, fun _ => goesOn⟩

theorem pending_forward {pending : PendingNext} (left : s.pendingNext = some pending) (wf : s.Wf)
    (ordered : s.Ordered) : pending.span.Forward := by
  unfold PendingNext.span
  cases named : pending.statement.loopVariables.items[pending.index]? with
  | none => exact ordered.pending pending left
  | some e =>
    have holds := wf.pending pending left e (List.mem_of_getElem? named)
    exact (Node.everywhere_iff.1 holds.nests).1.order

theorem dropPendingNext_decides {pending : PendingNext} (left : s.pendingNext = some pending)
    (wf : s.Wf) : Ensures (dropPendingNext pending) s fun _ t => Decides s t .goOn := by
  -- the variables are still left over where they are reported
  have begun := (Stretch.refl wf).beginConstruct
  have so := begun.reported pending.span (show (Problem.stray .next).isQuiet = true from rfl)
    (pending_forward left begun.wf)
  rw [ParseState.report_of_not_suppressed rfl] at so
  refine ⟨{ so with
    runs := so.runs.trans (.act (.pending none (by simp) (by simp) (by simp)))
    pending := fun _ absent => by cases absent
    fits := fun _ absent => by cases absent }, rfl⟩

theorem stopAtPendingNext_decides (wf : s.Wf) :
    Ensures stopAtPendingNext s fun step t => Decides s t step := by
  refine .get ?_
  split
  next => exact ⟨.refl wf, rfl⟩
  next pending block left innermost =>
    split
    next accepts => exact decides_taken wf innermost accepts (.inr ⟨rfl, by simp [left]⟩)
    next =>
      split
      · exact (stopUnclosed_decides wf fun none => by simp [none] at innermost).mono
          fun _ _ facts => facts.1
      · exact (dropPendingNext_decides left wf).bind fun _ _ decides => decides
  next pending left innermost =>
    exact (dropPendingNext_decides left wf).bind fun _ _ decides => decides

theorem stopAtMember_decides (wf : s.Wf) :
    Ensures stopAtMember s fun step t => Decides s t step := by
  refine .get ?_
  split
  next leaves =>
    refine (stopUnclosed_decides wf fun none => ?_).mono fun _ _ facts => facts.1
    simp [ParseState.inProcedure, none] at leaves
  next => exact ⟨.refl wf, rfl⟩

/-- Outside of all blocks, no member is out of place in a file. -/
theorem stopLeaving_decides {container : Container} (wf : s.Wf)
    (top : s.blocks = [] → container = .file) :
    Ensures (stopLeaving container) s fun step t => Decides s t step := by
  refine .get ?_
  split
  next leaving =>
    refine (stopUnclosed_decides wf fun none => ?_).mono fun _ _ facts => facts.1
    simp [top none, leaves] at leaving
  next => exact ⟨.refl wf, rfl⟩

theorem Decides.after {step : ListStep} (first : Decides s t .goOn) (second : Decides t u step) :
    Decides s u step := by
  obtain ⟨so, ahead⟩ := first
  cases step with
  | goOn => exact ⟨so.append second.1, second.2.trans ahead⟩
  | stop stop =>
    unfold Decides Takes at second
    rw [so.blocks] at second
    exact ⟨so.append second.1, second.2⟩

/-- One reason to stop after the other; one of them is the end of the stream. -/
theorem firstStop_decides {steps : List (Parse ListStep)} (wf : s.Wf)
    (each : ∀ step ∈ steps, ∀ t : ParseState, t.Wf → t.blocks = s.blocks →
      Ensures step t fun found u => Decides t u found) :
    Ensures (firstStop steps) s fun found t => Decides s t found ∧
      (stopAtTerminator ∈ steps → found = .goOn → t.kind ≠ .endOfStream) := by
  induction steps generalizing s with
  | nil => exact ⟨⟨.refl wf, rfl⟩, by simp⟩
  | cons step rest ih =>
    have ends : Ensures step s fun found t =>
        stopAtTerminator = step → found = .goOn → t.kind ≠ .endOfStream := by
      intro same
      subst same
      exact (stopAtTerminator_decides wf).2
    refine ((each step List.mem_cons_self s wf rfl).and ends).bind fun found t ⟨decides, ends⟩ => ?_
    cases found with
    | stop => exact ⟨decides, by simp⟩
    | goOn =>
      have blocks := decides.1.blocks
      refine (ih decides.1.wf fun step member w wf same =>
        each step (List.mem_cons_of_mem _ member) w wf (same.trans blocks)).mono
        fun found u ⟨more, below⟩ => ⟨decides.after more, fun member goOn => ?_⟩
      rcases List.mem_cons.1 member with same | later
      · subst goOn
        rw [(kinds_of_ahead more.2).1]
        exact ends same rfl
      · exact below later goOn

-- Lists

/-- Items have been read one behind the other, up to where the list stops. -/
structure Listed (s t : ParseState) (ns : List Node) (stop : Option Terminator) : Prop where
  so : Stretch s.here s t ns (owedAt s.blocks.head? stop)
  balances : s.Balances t
  takes : ∀ x, stop = some x → Takes s t x
  ends : s.blocks = [] → t.kind = .endOfStream
  order : ns.Pairwise fun a b => a.span.finish.index ≤ b.span.start.index
  spaced : Spaced s t ns

namespace Listed

variable {v : ParseState} {n : Node} {ns : List Node} {stop : Option Terminator}

theorem stopped (before : Stretch s.here s t [] []) (balances : s.Balances t)
    (decides : Decides t u (.stop stop)) : Listed s u [] stop := by
  unfold Decides Takes at decides
  rw [before.blocks] at decides
  exact ⟨before.append decides.1, balances.trans decides.1.books, decides.2.1, decides.2.2, .nil,
    .nil⟩

theorem cons (before : Stretch s.here s t [] []) (balances : s.Balances t) (gap : s.Gap t)
    (goesOn : t.kind ≠ .endOfStream) (first : Item t u n) (rest : Listed u v ns stop) :
    Listed s v (n :: ns) stop := by
  obtain ⟨so, -, takes, ends, order, spaced⟩ := rest
  have balances := (balances.trans first.so.books).trans so.books
  have long := before.append first.so
  have spaced := spaced.cons before gap goesOn first so.later
  unfold Takes at takes
  rw [long.blocks] at so takes ends
  refine ⟨long.append so, balances, takes, ends, List.pairwise_cons.2 ⟨fun m member => ?_, order⟩, spaced⟩
  have finish := (first.so.fits n (List.mem_singleton.2 rfl)).finish
  have behind := first.so.wf.behind
  have start := (so.fits m member).start
  omega

end Listed

/-- The items of a list lie between its first and its last one. -/
theorem between_first_last {ns : List Node} {first last n : Node}
    (order : ns.Pairwise fun a b => a.span.finish.index ≤ b.span.start.index)
    (own : ∀ n ∈ ns, n.span.start.index ≤ n.span.finish.index)
    (begins : ns.head? = some first) (ends : ns.getLast? = some last) (member : n ∈ ns) :
    first.span.start.index ≤ n.span.start.index ∧
      n.span.finish.index ≤ last.span.finish.index := by
  constructor
  · obtain ⟨rest, rfl⟩ := List.head?_eq_some_iff.1 begins
    rcases List.mem_cons.1 member with rfl | later
    · exact Nat.le_refl _
    · exact Nat.le_trans (own first List.mem_cons_self) ((List.pairwise_cons.1 order).1 n later)
  · obtain ⟨before, rfl⟩ := List.getLast?_eq_some_iff.1 ends
    rcases List.mem_append.1 member with earlier | final
    · exact Nat.le_trans ((List.pairwise_append.1 order).2.2 n earlier last (by simp))
        (own last (by simp))
    · exact Nat.le_of_eq (by rw [List.mem_singleton.1 final])

theorem listSpan_body {α : Type} {items : List α} {stop : Option Terminator} (node : α → Node)
    (span : α → Span) (spans : ∀ a, (node a).span = span a)
    (listed : Listed s t (items.map node) stop) {container : Container}
    (roster : t.diagnostics = [] → Node.Roster s.ahead container (items.map node)) :
    Ensures (listSpan span items) t fun list u =>
      Body s.blocks.head? container s u list (items.map node) stop := by
  obtain ⟨so, balances, takes, ends, order, -⟩ := listed
  have outside (none : s.blocks.head? = none) := ends (List.head?_eq_none_iff.1 none)
  have stands (x : Terminator) (stops : stop = some x) := (takes x stops).1
  have accepted (x : Terminator) (stops : stop = some x) := (takes x stops).2
  unfold listSpan
  split
  next first last begins ends =>
    have begins : (items.map node).head? = some (node first) := by simp [begins]
    have ends : (items.map node).getLast? = some (node last) := by simp [ends]
    have own (n : Node) (member : n ∈ items.map node) := (so.fits n member).order
    have between (n : Node) (member : n ∈ items.map node) :=
      between_first_last order own begins ends member
    have initial := so.fits _ (List.mem_of_mem_head? begins)
    have final := so.fits _ (List.mem_of_mem_getLast? ends)
    have low := (node first).span.index_start_merge (node last).span
    have high := (node first).span.index_finish_merge (node last).span
    have := initial.start
    have := initial.finish
    have := initial.order
    have := final.start
    have := final.finish
    rw [← spans, ← spans]
    show Body s.blocks.head? container s t ((node first).span.merge (node last).span)
      (items.map node) stop
    refine ⟨so, balances, stands, accepted, ?_, ?_, fun n member => ?_, ?_, outside, roster⟩
    · omega
    · omega
    · have := between n member
      omega
    · omega
  next missing =>
    have none : items = [] := by
      cases items with
      | nil => rfl
      | cons first rest => exact absurd rfl (missing _ _ rfl)
    subst none
    obtain ⟨-, marked, reached, -, -⟩ := so.placeholder
    exact ⟨marked, balances.trans .mark, stands, accepted, so.later.here, Nat.le_refl _, by simp, reached, outside,
      fun _ => .nil⟩

theorem span_ofStatement (st : Statement) : (Node.ofStatement st).span = st.span := by
  cases st <;> rfl

theorem statementStops_decide (step : Parse ListStep)
    (member : step ∈ [stopAtPendingNext, stopAtTerminator, stopAtMember]) (t : ParseState)
    (wf : t.Wf) (_ : t.blocks = s.blocks) : Ensures step t fun found u => Decides t u found := by
  simp only [List.mem_cons, List.not_mem_nil, or_false] at member
  rcases member with rfl | rfl | rfl
  · exact stopAtPendingNext_decides wf
  · exact (stopAtTerminator_decides wf).mono fun _ _ facts => facts.1
  · exact stopAtMember_decides wf

theorem stopUnclosed_stops (s : ParseState) :
    Ensures stopUnclosed s fun step _ => step ≠ .goOn := by
  refine .get ?_
  cases s.blocks.head? <;> exact ListStep.noConfusion

theorem stopAtPendingNext_settles (s : ParseState) :
    Ensures stopAtPendingNext s fun step t => step = .goOn → t.pendingNext = none := by
  have dropped (pending : PendingNext) :
      Ensures (dropPendingNext pending) s fun _ t => t.pendingNext = none :=
    ParseState.pendingNext_report ..
  refine .get ?_
  split
  next settled => exact fun _ => settled
  next pending block _ _ =>
    split
    · exact fun goOn => by cases goOn
    · split
      · exact (stopUnclosed_stops s).mono fun _ _ stops goOn => absurd goOn stops
      · exact (dropped pending).bind fun _ _ none _ => none
  next pending _ _ => exact (dropped pending).bind fun _ _ none _ => none

/-- A list of statements goes on only when no `Next` is left over. -/
theorem statementStops_settle (wf : s.Wf) :
    Ensures (firstStop [stopAtPendingNext, stopAtTerminator, stopAtMember]) s fun step t =>
      step = .goOn → t.pendingNext = none := by
  refine ((stopAtPendingNext_decides wf).and (stopAtPendingNext_settles s)).bind
    fun step t ⟨decides, settled⟩ => ?_
  cases step with
  | stop stop => exact fun goOn => by cases goOn
  | goOn =>
    have rest : Ensures (firstStop [stopAtTerminator, stopAtMember]) t _ :=
      firstStop_decides decides.1.wf fun step member =>
        statementStops_decide step (List.mem_cons_of_mem _ member)
    refine rest.mono fun step u facts goOn => ?_
    obtain ⟨more, -⟩ := facts
    subst goOn
    refine Option.eq_none_iff_forall_ne_some.2 fun p left => ?_
    obtain ⟨q, held, -⟩ := more.1.steady rfl left
    rw [settled rfl] at held
    cases held

-- What is left over of a `Next` behind a list

theorem leavesOver_stopped {stop : Option Terminator} (before : Stretch s.here s t [] [])
    (decides : Decides t u (.stop stop)) : LeavesOver s u [] :=
  fun _ left => .inr ⟨rfl, (before.append decides.1).steady rfl left⟩

/-- Only the last statement of a list leaves a `Next` over: the list goes on when none is left. -/
theorem leavesOver_cons {v : ParseState} {n : Node} {ns : List Node}
    (before : Stretch s.here s t [] []) (settled : t.pendingNext = none)
    (first : Stretch t.here t u [n] []) (rest : LeavesOver u v ns) : LeavesOver s v (n :: ns) := by
  have here := before.later.here
  have further := first.later.here
  have start := first.start_le_here (List.mem_singleton.2 rfl)
  intro p left
  rcases rest p left with ⟨fresh, behind⟩ | ⟨rfl, q, held, same⟩
  · exact .inl ⟨by omega, List.forall_mem_cons.2 ⟨by omega, behind⟩⟩
  · rcases first.pending q held with ⟨fresh, m, member, -, early⟩ | ⟨q', held', -⟩
    · rw [List.mem_singleton.1 member, same] at early
      rw [same] at fresh
      exact .inl ⟨by omega, List.forall_mem_cons.2 ⟨early, by simp⟩⟩
    · rw [settled] at held'
      cases held'

/-- The statements of a list.  Each of them moves on, so the number of tokens left bounds their
number. -/
theorem statementsWithin_listed (phrases : r.Sound) (sound : b.Sound depth) (n : Nat) (wf : s.Wf)
    (fuel : s.remaining < n) (bound : s.remaining ≤ depth) :
    Ensures (statementsWithin r b n) s fun found t =>
      Listed s t (found.1.map Node.ofStatement) found.2.2 ∧
        LeavesOver s t (found.1.map Node.ofStatement) ∧
        (t.diagnostics = [] →
          ∀ n ∈ found.1.map Node.ofStatement, n.isAllowedIn .script = true) := by
  induction n generalizing s with
  | zero => omega
  | succ n ih =>
    refine (((separators_silent phrases wf).and (separators_balances phrases wf)).and
      (separators_gap phrases wf)).bind fun colons t ⟨⟨before, balances⟩, gap⟩ => ?_
    have left := before.later.remaining
    refine ((firstStop_decides before.wf statementStops_decide).and
      (statementStops_settle before.wf)).bind fun step u ⟨⟨decides, goesOn⟩, settled⟩ => ?_
    cases step with
    | stop stop => exact ⟨.stopped before balances decides, leavesOver_stopped before decides,
        fun _ => List.forall_mem_nil _⟩
    | goOn =>
      have before := before.append decides.1
      have balances := balances.trans decides.1.books
      have gap := gap.along decides.2
      have goesOn := goesOn (by simp) rfl
      have left := before.later.remaining
      refine ((listedStatement_item phrases sound before.wf goesOn gap.arrived (by omega)).and
        (listedStatement_allowed phrases sound before.wf (by omega))).bind fun first v facts => ?_
      obtain ⟨item, allowed⟩ := facts
      have moved := item.moved
      refine (ih item.so.wf (by omega) (by omega)).bind fun rest w facts => ?_
      obtain ⟨listed, leaves, others⟩ := facts
      refine ⟨.cons before balances gap goesOn item listed,
        leavesOver_cons before (settled rfl) item.so leaves, fun none => ?_⟩
      exact List.forall_mem_cons.2 ⟨allowed (listed.so.later.clean none), others none⟩

theorem statements_body (phrases : r.Sound) (sound : b.Sound depth) (wf : s.Wf)
    (bound : s.remaining ≤ depth) :
    Ensures (statements r b) s fun body t =>
      Body s.blocks.head? .script s t body.1.span (Node.ofStatements body.1) body.2 := by
  refine .get ((statementsWithin_listed phrases sound _ wf (Nat.lt_succ_self _) bound).bind
    fun found t facts => ?_)
  obtain ⟨listed, -, allowed⟩ := facts
  refine (listSpan_body Node.ofStatement Statement.span span_ofStatement listed
    fun none => ?_).bind fun _ _ body => body
  exact .ofStatements (listed.spaced.apart none) (allowed none)

theorem statements_leaves (phrases : r.Sound) (sound : b.Sound depth) (wf : s.Wf)
    (bound : s.remaining ≤ depth) :
    Ensures (statements r b) s fun body t => LeavesOver s t (Node.ofStatements body.1) := by
  refine .get ((statementsWithin_listed phrases sound _ wf (Nat.lt_succ_self _) bound).bind
    fun found t ⟨_, leaves, _⟩ => ?_)
  have kept : Ensures (listSpan Statement.span found.1) t fun _ u => u.pendingNext = t.pendingNext := by
    unfold listSpan
    split <;> rfl
  exact kept.bind fun _ _ kept p left => leaves p (kept ▸ left)

theorem ended_of_atLineIfEnd (ends : atLineIfEnd s = true) : s.Ended := by
  unfold atLineIfEnd at ends
  split at ends
  next kind => exact .inl (by simp [Token.isSeparator, show s.current.kind = _ from kind])
  next kind => exact .inr (.inl kind)
  next kind => exact .inr (.inr (by simp [ParseState.terminator?, Lookahead.terminator?, kind]))
  next kind =>
    exact .inr (.inr (by
      simp [ParseState.terminator?, Lookahead.terminator?, kind, beq_iff_eq.1 ends,
        BlockKind.ofEndKind?]))
  next => cases ends

/-- The statements of a line go up to where the line or its branch ends. -/
theorem lineWithin_ensures (phrases : r.Sound) (sound : b.Sound depth) (n : Nat) (wf : s.Wf)
    (fuel : s.remaining < n) (bound : s.remaining ≤ depth) :
    Ensures (lineWithin r b n) s fun found t =>
      Stretch s.here s t (found.1.map Node.ofStatement) [] ∧ t.Ended ∧
        Spaced s t (found.1.map Node.ofStatement) ∧
        (t.diagnostics = [] →
          ∀ n ∈ found.1.map Node.ofStatement, n.isAllowedIn .script = true) := by
  induction n generalizing s with
  | zero => omega
  | succ n ih =>
    refine ((Stretch.refl wf).eatPlace rfl).bind fun colon t facts => ?_
    obtain ⟨so, cases⟩ := facts
    obtain ⟨rfl, rfl, noColon⟩ | ⟨rfl, rfl, isColon⟩ := cases
    · refine .get ?_
      split
      next ends => exact ⟨so, ended_of_atLineIfEnd ends, .nil, fun _ => List.forall_mem_nil _⟩
      next goesOn =>
        have ends : t.kind ≠ .endOfStream := fun ends => goesOn (by simp [atLineIfEnd, ends])
        have arrived : t.current.isSeparator = false := by
          simp only [Token.isSeparator, Bool.or_eq_false_iff, beq_eq_false_iff_ne]
          exact ⟨noColon, fun line => goesOn (by simp [atLineIfEnd, ParseState.kind, line])⟩
        refine ((moving_item wf ends arrived (statement_tried phrases sound wf bound)).and
          (.moving_clean (statement_allowed phrases sound wf bound))).bind fun first u facts => ?_
        obtain ⟨item, allowed⟩ := facts
        have moved := item.moved
        refine (ih item.so.wf (by omega) (by omega)).bind fun rest v facts => ?_
        obtain ⟨more, ended, spaced, others⟩ := facts
        refine ⟨item.so.append more, ended, spaced.cons so (.refl arrived) ends item more.later,
          fun none => ?_⟩
        exact List.forall_mem_cons.2 ⟨allowed (more.later.clean none), others none⟩
    · have solid : s.kind.isSolid = true := by rw [isColon]; rfl
      have separator : s.current.isSeparator = true := by
        simp [Token.isSeparator, show s.current.kind = _ from isColon]
      have moved := remaining_advance wf solid
      have token := ParseState.finish_le_limit_advance wf (ParseState.kind_ne_endOfStream solid)
      have behind := so.wf.behind
      refine (ih so.wf (by omega) (by omega)).bind fun rest u facts => ?_
      obtain ⟨more, ended, spaced, allowed⟩ := facts
      exact ⟨so.append more, ended, spaced.behind separator (by omega) so more, allowed⟩

theorem listSpan_stands {α : Type} {items : List α} {span : α → Span} (wf : s.Wf) :
    Ensures (listSpan span items) s fun _ t =>
      Stretch s.here s t [] [] ∧ (s.Ended → t.Ended) := by
  unfold listSpan
  split
  · exact ⟨.refl wf, id⟩
  · exact (Stretch.refl wf).placeholder.bind fun _ _ ⟨_, so, _, ahead, _⟩ => ⟨so, .along ahead⟩

theorem lineStatements_ensures (phrases : r.Sound) (sound : b.Sound depth) (wf : s.Wf)
    (bound : s.remaining ≤ depth) :
    Ensures (lineStatements r b) s fun list t =>
      Stretch s.here s t (Node.ofStatements list) [] ∧ t.Ended ∧
        (t.diagnostics = [] → Node.Roster s.ahead .script (Node.ofStatements list)) := by
  refine .get ((lineWithin_ensures phrases sound _ wf (Nat.lt_succ_self _) bound).bind
    fun found t facts => ?_)
  obtain ⟨so, ended, spaced, allowed⟩ := facts
  refine (listSpan_stands so.wf).bind fun _ u facts => ?_
  obtain ⟨more, stands⟩ := facts
  refine ⟨so.followed more, stands ended, fun none => ?_⟩
  have none := more.later.clean none
  exact .ofStatements (spaced.apart none) (allowed none)

theorem orderProblem_isQuiet {order : DeclarationOrder} {container : Container} {kind : TokenKind}
    {isFileAttribute : Bool} {problem : Problem}
    (late : (order.after container kind isFileAttribute).1 = some problem) :
    problem.isQuiet = true := by
  unfold DeclarationOrder.after at late
  split at late
  · unfold DeclarationOrder.afterInFile at late
    grind [Problem.isQuiet, Problem.isPairing]
  · unfold DeclarationOrder.afterInherits at late
    grind [Problem.isQuiet, Problem.isPairing]
  · unfold DeclarationOrder.afterInherits at late
    grind [Problem.isQuiet, Problem.isPairing]
  · unfold DeclarationOrder.afterImplements at late
    grind [Problem.isQuiet, Problem.isPairing]
  · unfold DeclarationOrder.afterImplements at late
    grind [Problem.isQuiet, Problem.isPairing]
  · cases late

theorem checkOrder_decides (container : Container) (order : DeclarationOrder) (wf : s.Wf) :
    Ensures (checkOrder container order) s fun next t => Decides s t .goOn ∧
      (t.diagnostics = [] →
        order.after container s.kind (Lookahead.atFileAttribute s.ahead) = (none, next)) := by
  refine .get ?_
  dsimp only
  split
  next problem late =>
    refine ((Stretch.refl wf).report _ (orderProblem_isQuiet late) fun _ => wf.stream.order).bind
      fun _ _ facts => ?_
    exact ⟨⟨facts.1, facts.2.2⟩, fun none => absurd none facts.2.1⟩
  next early => exact ⟨⟨.refl wf, rfl⟩, fun _ => Prod.ext early rfl⟩

theorem declarationStops_decide {container : Container} (top : s.blocks = [] → container = .file)
    (step : Parse ListStep) (member : step ∈ [stopAtTerminator, stopLeaving container])
    (t : ParseState) (wf : t.Wf) (same : t.blocks = s.blocks) :
    Ensures step t fun found u => Decides t u found := by
  simp only [List.mem_cons, List.not_mem_nil, or_false] at member
  rcases member with rfl | rfl
  · exact (stopAtTerminator_decides wf).mono fun _ _ facts => facts.1
  · exact stopLeaving_decides wf (same ▸ top)

theorem declarationsWithin_listed (phrases : r.Sound) (sound : b.Sound depth)
    {container : Container} (n : Nat) (order : DeclarationOrder) (wf : s.Wf)
    (top : s.blocks = [] → container = .file) (fuel : s.remaining < n)
    (bound : s.remaining ≤ depth) :
    Ensures (declarationsWithin r b container n order) s fun found t =>
      Listed s t (found.1.map Node.declaration) found.2 ∧
        (t.diagnostics = [] → order.Orders container (found.1.map Node.declaration)) := by
  induction n generalizing s order with
  | zero => omega
  | succ n ih =>
    refine (((separators_silent phrases wf).and (separators_balances phrases wf)).and
      (separators_gap phrases wf)).bind fun _ t ⟨⟨before, balances⟩, gap⟩ => ?_
    have stops := declarationStops_decide (s := t) (before.blocks.symm ▸ top)
    refine (firstStop_decides before.wf stops).bind
      fun step u ⟨decides, goesOn⟩ => ?_
    cases step with
    | stop stop => exact ⟨.stopped before balances decides, fun _ => DeclarationOrder.orders_nil⟩
    | goOn =>
      have before := (before.append decides.1).beginConstruct
      refine .beginConstruct ((checkOrder_decides container order before.wf).bind
        fun next v facts => ?_)
      obtain ⟨⟨checked, ahead⟩, inOrder⟩ := facts
      have goesOn : v.kind ≠ .endOfStream := (kinds_of_ahead ahead).1 ▸ goesOn (by simp) rfl
      have gap := gap.along (ahead.trans decides.2)
      have balances := ((balances.trans decides.1.books).trans (.refl _)).trans checked.books
      have before := before.append checked
      have left := before.later.remaining
      have allows := (declaration_ensures phrases sound container before.wf (by omega)).mono
        fun _ _ facts => facts.2
      refine (((moving_item before.wf goesOn gap.arrived
        (declaration_tried phrases sound container before.wf (by omega))).and
        (.moving_clean allows)).and (.moving_result (declaration_rank container))).bind
        fun first w facts => ?_
      obtain ⟨⟨item, allowed⟩, rank⟩ := facts
      have moved := item.moved
      have long := before.append item.so
      refine (ih next item.so.wf (long.blocks.symm ▸ top) (by omega) (by omega)).bind
        fun rest x facts => ?_
      obtain ⟨listed, others⟩ := facts
      refine ⟨.cons before balances gap goesOn item listed, fun none => ?_⟩
      have clean := listed.so.later.clean none
      rw [(kinds_of_ahead ahead).1] at rank
      exact DeclarationOrder.orders_cons (inOrder (item.so.later.clean clean)) (allowed clean) rank
        (others none)

theorem declarations_body (phrases : r.Sound) (sound : b.Sound depth) {container : Container}
    (wf : s.Wf) (top : s.blocks = [] → container = .file) (bound : s.remaining ≤ depth) :
    Ensures (declarations r b container) s fun body t =>
      Body s.blocks.head? container s t body.1.span (Node.ofDeclarations body.1) body.2 := by
  refine .get ((declarationsWithin_listed phrases sound _ _ wf top (Nat.lt_succ_self _)
    bound).bind fun found t facts => ?_)
  obtain ⟨listed, orders⟩ := facts
  refine (listSpan_body Node.declaration Declaration.span (fun _ => rfl) listed
    fun none => ?_).bind fun _ _ body => body
  exact ⟨listed.spaced.apart none, (orders none).allowed, (orders none).order⟩

end Parse

/-- The rules for bodies are sound at every depth: a body that is nested in another has fewer
tokens left. -/
theorem Bodies.ofDepth_sound {r : Rules} (phrases : r.Sound) (isScript : Bool) (depth : Nat) :
    (Bodies.ofDepth isScript r depth).Sound depth := by
  induction depth with
  | zero =>
    exact ⟨fun _ _ bound => by omega, fun _ _ bound => by omega, fun _ _ bound => by omega,
      fun _ _ _ bound _ => by omega⟩
  | succ n ih =>
    refine ⟨fun s wf bound => ?_, fun s wf bound => ?_, fun s wf bound => ?_,
      fun container s wf bound inside => ?_⟩
    · exact Parse.statements_body phrases ih wf (by omega)
    · exact Parse.statements_leaves phrases ih wf (by omega)
    · exact Parse.lineStatements_ensures phrases ih wf (by omega)
    · exact Parse.declarations_body phrases ih wf (fun none => absurd none inside) (by omega)

end VisualBasic
