import VisualBasic.Proofs.Parse.Ends
import VisualBasic.Proofs.Parse.SimpleStatement

/-!
The bodies of blocks, as the rules for blocks see them.  A body that stops without a terminator has
reported its block, and the block that is made of it has no end.
-/

set_option autoImplicit false

namespace VisualBasic

/-- What a block without an end owes. -/
def OpenBlock.owing (block : OpenBlock) (closed : Bool) : List (BlockKind × Nat) :=
  if closed then [] else [(block.kind, block.header.start.index)]

/-- The terminator stands here, or it is a `Next` that is left over. -/
def ParseState.StandsAt (s : ParseState) (x : Terminator) : Prop :=
  s.terminator? = some x ∨ (x = .next ∧ s.pendingNext.isSome = true)

/-- The body of a block has been read, up to a terminator that the block accepts or to where the
block is reported.  Outside of all blocks it goes on to the end of the stream. -/
structure Body (block : Option OpenBlock) (container : Container) (s t : ParseState) (span : Span)
    (ns : List Node) (stop : Option Terminator) : Prop where
  so : Stretch s.here s t ns ((block.map fun opened => opened.owing stop.isSome).getD [])
  balances : s.Balances t
  stands : ∀ x, stop = some x → t.StandsAt x
  accepted : ∀ x, stop = some x → ∃ opened, block = some opened ∧ opened.kind.accepts x = true
  start : s.here ≤ span.start.index
  order : span.start.index ≤ span.finish.index
  covers : ∀ n ∈ ns, span.start.index ≤ n.span.start.index ∧
    n.span.finish.index ≤ span.finish.index
  finish : span.finish.index ≤ t.limit
  ends : block = none → t.kind = .endOfStream
  roster : t.diagnostics = [] → Node.Roster s.ahead container ns

/-- A `Next` that is left over behind a list has been read in its last node.  If it was left over
before, the list is empty. -/
def LeavesOver (s t : ParseState) (ns : List Node) : Prop :=
  ∀ p, t.pendingNext = some p →
    (s.here ≤ p.statement.span.start.index ∧
      ∀ n ∈ ns, n.span.start.index ≤ p.statement.span.start.index) ∨
    (ns = [] ∧ ∃ q, s.pendingNext = some q ∧ q.statement = p.statement)

/-- The rules for bodies read what they give, when no more tokens are left than the depth of their
nesting. -/
structure Bodies.Sound (b : Bodies) (depth : Nat) : Prop where
  statements : ∀ s, s.Wf → s.remaining < depth → Ensures b.statements s fun body t =>
    Body s.blocks.head? .script s t body.1.span (Node.ofStatements body.1) body.2
  leaves : ∀ s, s.Wf → s.remaining < depth → Ensures b.statements s fun body t =>
    LeavesOver s t (Node.ofStatements body.1)
  line : ∀ s, s.Wf → s.remaining < depth → Ensures b.line s fun list t =>
    Stretch s.here s t (Node.ofStatements list) [] ∧ t.Ended ∧
      (t.diagnostics = [] → Node.Roster s.ahead .script (Node.ofStatements list))
  declarations : ∀ container s, s.Wf → s.remaining < depth → s.blocks ≠ [] →
    Ensures (b.declarations container) s fun body t =>
      Body s.blocks.head? container s t body.1.span (Node.ofDeclarations body.1) body.2

theorem Node.unclosed_eq_owing {n : Node} {block : OpenBlock} {closed : Bool}
    (isBlock : n.block? = some (block.kind, closed))
    (start : block.header.start.index = n.span.start.index) : n.unclosed = block.owing closed := by
  cases closed <;> simp [unclosed, isBlock, OpenBlock.owing, start]

/-- A rule that ends by giving a block the span since `start`. -/
theorem Stretch.finishBlockWhen {α : Type} {o t : ParseState} {ns : List Node} {node : α → Node}
    {build : Span → α} {start : Location} {block : OpenBlock} {closed whole : Bool}
    {lists : List (List Node)}
    (so : Stretch start.index o t ns (block.owing closed)) (reached : start.index ≤ t.limit)
    (begins : block.header.start.index = start.index)
    (isBlock : (node (build (t.spanSince start))).block? = some (block.kind, closed))
    (children : (node (build (t.spanSince start))).children = ns)
    (own : (node (build (t.spanSince start))).outline =
      .holding (t.spanSince start) (node (build (t.spanSince start))).unclosed whole lists)
    (given : t.diagnostics = [] → whole = true)
    (orderly : t.diagnostics = [] → ∀ l ∈ lists,
      Node.Roster o.ahead (node (build (t.spanSince start))).container l) :
    Ensures (Parse.spanFrom start >>= fun span => pure (build span)) t fun a u =>
      Stretch start.index o u [node a] [] := by
  have span := (Node.outline_holding own).1
  rw [Node.unclosed_eq_owing isBlock (by rw [begins, span]; rfl)] at own
  exact so.finishHolding reached children own given orderly

theorem Stretch.finishBlock {α : Type} {o t : ParseState} {ns : List Node} {node : α → Node}
    {build : Span → α} {start : Location} {block : OpenBlock} {closed : Bool}
    {lists : List (List Node)}
    (so : Stretch start.index o t ns (block.owing closed)) (reached : start.index ≤ t.limit)
    (begins : block.header.start.index = start.index)
    (isBlock : (node (build (t.spanSince start))).block? = some (block.kind, closed))
    (children : (node (build (t.spanSince start))).children = ns)
    (own : (node (build (t.spanSince start))).outline =
      .holding (t.spanSince start) (node (build (t.spanSince start))).unclosed true lists)
    (orderly : t.diagnostics = [] → ∀ l ∈ lists,
      Node.Roster o.ahead (node (build (t.spanSince start))).container l) :
    Ensures (Parse.spanFrom start >>= fun span => pure (build span)) t fun a u =>
      Stretch start.index o u [node a] [] :=
  so.finishBlockWhen reached begins isBlock children own (fun _ => rfl) orderly

/-- What is listed in a body is listed in what it is part of. -/
theorem Body.roster_since {block : Option OpenBlock} {container : Container} {o s t u : ParseState}
    {span : Span} {ns : List Node} {stop : Option Terminator}
    (body : Body block container s t span ns stop) (before : o.Runs s) (after : t.Later u)
    (none : u.diagnostics = []) : Node.Roster o.ahead container ns :=
  (body.roster (after.clean none)).mono before.suffix.subset

namespace Parse

variable {α : Type} {b : Bodies} {depth : Nat} {s t : ParseState} {block : OpenBlock}
  {container : Container}

theorem remaining_advance (wf : s.Wf) (solid : s.kind.isSolid = true) :
    s.advance.remaining < s.remaining :=
  (ParseState.limit_advance wf (ParseState.kind_ne_endOfStream solid)).2.2

-- Opening and leaving a block

theorem within_ensures {p : Parse α} {P Q : α → ParseState → Prop}
    (inner : Ensures p { s with blocks := block :: s.blocks } P)
    (outer : ∀ a t, P a t → Q a { t with blocks := t.blocks.tail }) :
    Ensures (within block p) s Q :=
  outer _ _ inner

theorem wf_within (block : OpenBlock) (wf : s.Wf) :
    ParseState.Wf { s with blocks := block :: s.blocks } :=
  { wf with pending := fun p left e member => { wf.pending p left e member with } }

/-- A block that is left does not show in what has been read. -/
theorem leave_stretch {lo : Nat} {ns : List Node} {owed : List (BlockKind × Nat)} (wf : s.Wf)
    (forward : block.header.Forward)
    (so : Stretch lo { s with blocks := block :: s.blocks } t ns owed) :
    Stretch lo s { t with blocks := t.blocks.tail } ns owed where
  began := wf
  runs :=
    (ParseState.Runs.act (.blocks _ fun ordered => List.forall_mem_cons.2
      ⟨forward, ordered.blocks⟩)).trans
    (so.runs.trans (.act (.blocks _ fun ordered b member =>
      ordered.blocks b (List.mem_of_mem_tail member))))
  books := so.books
  lower := so.lower
  fits := so.fits
  ascending := so.ascending
  noOverlap := so.noOverlap
  orderly := so.orderly
  blocks := by simp [so.blocks]
  depth := so.depth
  pending := so.pending
  ledger := so.ledger

/-- A rule that is run within a block, with the list that it reads. -/
theorem within_stretch {p : Parse α} (nodes list : α → List Node) (closed : α → Bool) (wf : s.Wf)
    (forward : block.header.Forward)
    (inner : Ensures p { s with blocks := block :: s.blocks } fun a t =>
      Stretch s.here { s with blocks := block :: s.blocks } t (nodes a) (block.owing (closed a)) ∧
        (t.diagnostics = [] → Node.Roster s.ahead .script (list a))) :
    Ensures (within block p) s fun a t =>
      Stretch s.here s t (nodes a) (block.owing (closed a)) ∧
        (t.diagnostics = [] → Node.Roster s.ahead .script (list a)) :=
  within_ensures inner fun _ _ facts => ⟨leave_stretch wf forward facts.1, facts.2⟩

/-- What is read behind the first list of a block, up to the end of the block. -/
theorem after_body {ns : List Node} {stop : Option Terminator} {p : Parse α}
    (nodes : α → List Node) (closed : α → Bool)
    (so : Stretch s.here s t ns (block.owing stop.isSome))
    (roster : t.diagnostics = [] → Node.Roster s.ahead .script ns)
    (ends : stop = none → Ensures p t fun a u => u = t ∧ nodes a = [] ∧ closed a = false)
    (goesOn : stop.isSome = true →
      Ensures p t fun a u => Stretch t.here t u (nodes a) (block.owing (closed a))) :
    Ensures p t fun a u => Stretch s.here s u (ns ++ nodes a) (block.owing (closed a)) ∧
      (u.diagnostics = [] → Node.Roster s.ahead .script ns) := by
  cases stop with
  | none =>
    refine (ends rfl).mono fun a u facts => ?_
    obtain ⟨rfl, none, opened⟩ := facts
    rw [none, opened, List.append_nil]
    exact ⟨so, roster⟩
  | some x =>
    refine (goesOn rfl).mono fun a u more => ?_
    exact ⟨so.append more, fun none => roster (more.later.clean none)⟩

theorem leave_body {span : Span} {ns : List Node} {stop : Option Terminator} (wf : s.Wf)
    (forward : block.header.Forward)
    (body : Body (some block) container { s with blocks := block :: s.blocks } t span ns stop) :
    Body (some block) container s { t with blocks := t.blocks.tail } span ns stop where
  so := leave_stretch wf forward body.so
  balances := body.balances
  stands := body.stands
  accepted := body.accepted
  start := body.start
  order := body.order
  covers := body.covers
  finish := body.finish
  ends := by simp
  roster := body.roster

theorem statementBody_body (sound : b.Sound depth) (kind : BlockKind) {header : Span}
    (forward : header.Forward) (wf : s.Wf) (bound : s.remaining < depth) :
    Ensures (statementBody b kind header) s fun body t =>
      Body (some ⟨kind, header, true⟩) .script s t body.1.span (Node.ofStatements body.1) body.2 :=
  within_ensures (sound.statements _ (wf_within _ wf) bound)
    fun _ _ body => leave_body wf forward body

theorem declarationBody_body (sound : b.Sound depth) (kind : BlockKind) {header : Span}
    (forward : header.Forward) (container : Container) (wf : s.Wf) (bound : s.remaining < depth) :
    Ensures (declarationBody b kind header container) s fun body t =>
      Body (some ⟨kind, header, false⟩) container s t body.1.span (Node.ofDeclarations body.1)
        body.2 :=
  within_ensures (sound.declarations container _ (wf_within _ wf) bound (List.cons_ne_nil _ _))
    fun _ _ body => leave_body wf forward body

theorem terminator?_of_standsAt {x : Terminator} (stands : s.StandsAt x) (other : x ≠ .next) :
    s.terminator? = some x := by
  rcases stands with here | ⟨next, -⟩
  · exact here
  · exact absurd next other

theorem takeEnd_silent {kind : BlockKind} {stop : Option Terminator} (wf : s.Wf)
    (stands : ∀ x, stop = some x → x = .endOf kind ∧ s.StandsAt x) :
    Ensures (takeEnd kind stop) s fun ending t =>
      Stretch s.here s t [] [] ∧ ending.isSome = stop.isSome := by
  cases stop with
  | none => exact ⟨.refl wf, rfl⟩
  | some x =>
    obtain ⟨rfl, here⟩ := stands x rfl
    have starts := terminator?_of_standsAt here (by simp)
    unfold takeEnd
    rw [if_pos rfl]
    refine .beginConstruct ?_
    have so := (Stretch.refl wf).beginConstruct
    refine (endBlock_line so.wf starts).bind fun _ _ line => ?_
    exact ⟨so.followed line.so, rfl⟩

/-- A block that is not closed by the end of its body is owed already. -/
theorem takeEnd_stretch {lo : Nat} {o : ParseState} {ns : List Node} {kind : BlockKind}
    {stop : Option Terminator} (so : Stretch lo o s ns (block.owing stop.isSome))
    (stands : ∀ x, stop = some x → x = .endOf kind ∧ s.StandsAt x) :
    Ensures (takeEnd kind stop) s fun ending t =>
      Stretch lo o t ns (block.owing ending.isSome) :=
  (takeEnd_silent so.wf stands).mono fun _ _ ⟨more, same⟩ => same ▸ so.followed more

/-- The blocks that go on with further parts, or end with a word of their own. -/
def isParted (kind : BlockKind) : Bool :=
  [BlockKind.ifBlock, .selectBlock, .tryBlock, .doBlock, .forBlock].contains kind

theorem eq_endOf_of_accepts {kind : BlockKind} {x : Terminator} (simple : isParted kind = false)
    (accepts : kind.accepts x = true) : x = .endOf kind := by
  cases kind <;> first | simpa [BlockKind.accepts] using accepts | simp [isParted] at simple

theorem end_stands {span : Span} {ms : List Node} {stop : Option Terminator}
    (body : Body (some block) container s t span ms stop) (simple : isParted block.kind = false)
    (x : Terminator) (stops : stop = some x) : x = .endOf block.kind ∧ t.StandsAt x := by
  obtain ⟨opened, same, accepts⟩ := body.accepted x stops
  cases same
  exact ⟨eq_endOf_of_accepts simple accepts, body.stands x stops⟩

/-- The end of a block of one part. -/
theorem end_of_body {lo : Nat} {o : ParseState} {span : Span} {ns ms : List Node}
    {stop : Option Terminator} (so : Stretch lo o s ns [])
    (body : Body (some block) container s t span ms stop)
    (simple : isParted block.kind = false) :
    Ensures (takeEnd block.kind stop) t fun ending u =>
      Stretch lo o u (ns ++ ms) (block.owing ending.isSome) ∧
        (u.diagnostics = [] → ∀ l ∈ [ms], Node.Roster o.ahead container l) := by
  refine (takeEnd_silent body.so.wf (end_stands body simple)).mono fun _ _ ⟨more, same⟩ =>
    ⟨same ▸ (so.append body.so).followed more, fun none => ?_⟩
  simpa using body.roster_since so.runs more.later none

/-- A part of a block spans its first line and its statements. -/
theorem part_stretch {lo : Nat} {o u : ParseState} {n : Node} {header span : Span}
    {ns hs ms : List Node} {stop : Option Terminator} (so : Stretch lo o s ns [])
    (line : Line s.here s t header hs) (body : Body (some block) .script t u span ms stop)
    (merged : n.span = header.merge span) (children : n.children = hs ++ ms)
    (whole : n.isProper = true) (owes : n.unclosed = []) (noLoop : n.closing? = none)
    (explicit : ∀ c ∈ hs ++ ms, n.implies c = false)
    (listed : (n.lists, n.container) = ([ms], .script)) :
    Stretch lo o u (ns ++ [n]) (block.owing stop.isSome) := by
  have start : n.span.start.index = min header.start.index span.start.index := by
    rw [merged, Span.index_start_merge]
  have finish : n.span.finish.index = max header.finish.index span.finish.index := by
    rw [merged, Span.index_finish_merge]
  have long := line.so.append body.so
  have begins := line.start
  have order := line.order
  have here := line.so.later.here
  have after := body.start
  have limit := body.so.later.limit
  have before := line.finish
  have last := body.finish
  obtain ⟨listed, place⟩ := Prod.mk.inj listed
  have orderly (none : u.diagnostics = []) : n.Orderly s.ahead :=
    Node.orderly_of_lists listed (by
      simpa [place] using body.roster_since line.so.runs (.standing rfl (Nat.le_refl _) id) none)
  have part : Stretch s.here s u [n] (block.owing stop.isSome) := by
    refine long.enclose (by omega) (by omega) (by omega) (fun c member => ?_) children
      (fun _ => whole) owes noLoop explicit orderly
    have lower := (long.fits c member).start
    rcases List.mem_append.1 member with early | late
    · have := line.covers c early
      omega
    · have := body.covers c late
      omega
  exact so.append part

end Parse

end VisualBasic
