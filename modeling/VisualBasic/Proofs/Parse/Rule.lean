import VisualBasic.Proofs.Parse.Stretch

/-!
The steps that rules are made of, each with what it does to the stretch that a rule has read.  A
step whose result is determined hands it on to the rest of the rule.
-/

set_option autoImplicit false

namespace VisualBasic

/-- The rule reads the nodes of its result. -/
abbrev Yields {α : Type} (p : Parse α) (s : ParseState) (nodes : α → List Node) : Prop :=
  Ensures p s fun a t => Stretch s.here s t (nodes a) []

/-- The token can be passed without a diagnostic, and within a line. -/
def TokenKind.isSolid : TokenKind → Bool
  | .endOfStream | .lexicalError | .lineTerminator => false
  | _ => true

/-- The problem does not say that a block or a directive lacks the other one of its ends. -/
def Problem.isQuiet : Problem → Bool
  | .unclosed _ => false
  | problem => !problem.isPairing

theorem Problem.isPairing_of_isQuiet {problem : Problem} (quiet : problem.isQuiet = true) :
    problem.isPairing = false := by
  cases problem <;> first | rfl | simp [isQuiet, isPairing] at quiet

namespace Ensures

variable {α β : Type} {s : ParseState} {Q : β → ParseState → Prop}

theorem get {f : ParseState → Parse β} (rest : Ensures (f s) s Q) :
    Ensures (MonadState.get >>= f) s Q := rest

theorem peek {f : Token → Parse β} (rest : Ensures (f s.current) s Q) :
    Ensures (Parse.peek >>= f) s Q := rest

theorem peekKind {f : TokenKind → Parse β} (rest : Ensures (f s.kind) s Q) :
    Ensures (Parse.peekKind >>= f) s Q := rest

theorem kindAfter {f : TokenKind → Parse β} (rest : Ensures (f s.kindAfter) s Q) :
    Ensures (Parse.kindAfter >>= f) s Q := rest

theorem skip {f : Unit → Parse β} (rest : Ensures (f ()) s.advance Q) :
    Ensures (Parse.skip >>= f) s Q := rest

theorem read {f : Token → Parse β} (rest : Ensures (f s.current) s.advance Q) :
    Ensures (Parse.read >>= f) s Q := rest

theorem here {f : Location → Parse β} (rest : Ensures (f s.current.span.start) s Q) :
    Ensures (Parse.here >>= f) s Q := rest

theorem check {kind : TokenKind} {f : Bool → Parse β} (rest : Ensures (f (s.kind == kind)) s Q) :
    Ensures (Parse.check kind >>= f) s Q := rest

theorem eat {kind : TokenKind} {f : Option Token → Parse β}
    (found : s.kind = kind → Ensures (f (some s.current)) s.advance Q)
    (missing : s.kind ≠ kind → Ensures (f none) s Q) : Ensures (Parse.eat kind >>= f) s Q := by
  rw [Parse.eat, bind_assoc]
  refine .check ?_
  split
  next same => exact found (by simpa using same)
  next other => exact missing (by simpa using other)

theorem eatPlace {kind : TokenKind} {f : Option Location → Parse β}
    (found : s.kind = kind → Ensures (f (some s.current.span.start)) s.advance Q)
    (missing : s.kind ≠ kind → Ensures (f none) s Q) :
    Ensures (Parse.eatPlace kind >>= f) s Q := by
  rw [Parse.eatPlace, bind_assoc]
  exact .eat found missing

theorem atStatementEnd {f : Bool → Parse β} (rest : Ensures (f s.atStatementEnd) s Q) :
    Ensures (Parse.atStatementEnd >>= f) s Q := rest

theorem beginConstruct {f : Unit → Parse β}
    (rest : Ensures (f ()) { s with suppressed := false } Q) :
    Ensures (Parse.beginConstruct >>= f) s Q := rest

theorem spanFrom {start : Location} {f : Span → Parse β}
    (rest : Ensures (f (s.spanSince start)) s Q) : Ensures (Parse.spanFrom start >>= f) s Q := rest

/-- A rule that goes on in the same way behind a choice. -/
theorem branch {c : Prop} [Decidable c] {p q : Parse α} {f : α → Parse β}
    {P : α → ParseState → Prop} (first : c → Ensures p s P) (second : ¬ c → Ensures q s P)
    (rest : ∀ a t, P a t → Ensures (f a) t Q) :
    Ensures (if c then p >>= f else q >>= f) s Q := by
  split
  next holds => exact (first holds).bind rest
  next fails => exact (second fails).bind rest

end Ensures

namespace ParseState

variable {s : ParseState}

theorem index_finishSince (s : ParseState) (start : Location) :
    (s.spanSince start).finish.index = max start.index s.limit := by
  have mark : (if s.placeholder < start then start else s.placeholder).index
      = max start.index s.placeholder.index := by
    split
    next before =>
      have : s.placeholder.index < start.index := before
      omega
    next notBefore =>
      have : ¬ s.placeholder.index < start.index := notBefore
      omega
  simp only [spanSince, finishSince, Location.index_later, mark, limit]
  cases s.previous <;> simp <;> omega

theorem spanSince_forward (s : ParseState) (start : Location) : (s.spanSince start).Forward := by
  unfold Span.Forward
  rw [s.index_finishSince start]
  exact Nat.le_max_left _ _

theorem pendingNext_report (s : ParseState) (problem : Problem) (span : Span) :
    (s.report problem span).pendingNext = s.pendingNext := by
  unfold report
  split <;> rfl

theorem blocks_report (s : ParseState) (problem : Problem) (span : Span) :
    (s.report problem span).blocks = s.blocks := by
  unfold report
  split <;> rfl

theorem lineIfDepth_report (s : ParseState) (problem : Problem) (span : Span) :
    (s.report problem span).lineIfDepth = s.lineIfDepth := by
  unfold report
  split <;> rfl

theorem unclosed_report (s : ParseState) {problem : Problem} {span : Span}
    (closed : Diagnostic.unclosed? ⟨problem, span⟩ = none) :
    (s.report problem span).unclosed = s.unclosed := by
  unfold report
  split <;> simp [unclosed, closed]

theorem unclosed_advance (s : ParseState) : s.advance.unclosed = s.unclosed := by
  rw [unclosed, unclosed, s.diagnostics_advance]

/-- Any token may be passed between lines. -/
theorem Idles.advance {o : ParseState} (idles : o.Idles s)
    (guarded : s.kind = .lexicalError → s.diagnostics ≠ []) : o.Idles s.advance := by
  obtain ⟨-, blocks, depth, pending⟩ := s.advance_frame
  exact idles.act (.advance guarded) blocks depth pending s.unclosed_advance

/-- A report within a directive. -/
theorem Idles.report {o : ParseState} (idles : o.Idles s) {problem : Problem} {span : Span}
    (closed : Diagnostic.unclosed? ⟨problem, span⟩ = none) (forward : s.Ordered → span.Forward) :
    o.Idles (s.report problem span) :=
  idles.act (.report problem span forward) (s.blocks_report ..) (s.lineIfDepth_report ..)
    (s.pendingNext_report ..) (s.unclosed_report closed)

theorem advanceWhile_of_not {test : ParseState → Bool} (stops : test s = false) (n : Nat) :
    s.advanceWhile test n = s := by
  cases n <;> simp [advanceWhile, stops]

theorem kind_ne_endOfStream (solid : s.kind.isSolid = true) : s.kind ≠ .endOfStream := by
  intro ends
  simp [ends, TokenKind.isSolid] at solid

theorem kind_ne_lineTerminator (solid : s.kind.isSolid = true) : s.kind ≠ .lineTerminator := by
  intro ends
  simp [ends, TokenKind.isSolid] at solid

/-- What is discarded lies within a line. -/
theorem kind_ne_lineTerminator_of_discarded {stops : List TokenKind}
    (goesOn : stopsDiscarding stops s = false) : s.kind ≠ .lineTerminator := by
  intro ends
  simp [stopsDiscarding, ends] at goesOn

theorem within_discarded (stops : List TokenKind) (s : ParseState)
    (goesOn : (!(stopsDiscarding stops s || beginsStatement s.kind)) = true) :
    s.kind ≠ .lineTerminator := by
  simp only [Bool.not_eq_true', Bool.or_eq_false_iff] at goesOn
  exact kind_ne_lineTerminator_of_discarded goesOn.1

theorem within_skipped (s : ParseState) (goesOn : (!s.atStatementEnd) = true) :
    s.kind ≠ .lineTerminator := by
  intro ends
  simp [atStatementEnd, ends] at goesOn

/-- A token that has been passed lies within what has been read. -/
theorem finish_le_limit_advance (wf : s.Wf) (goesOn : s.kind ≠ .endOfStream) :
    s.current.span.finish.index ≤ s.advance.limit := by
  obtain ⟨k, rest, follows, -⟩ := exists_following wf goesOn
  rw [advance_of_cons follows]
  exact Nat.le_max_left _ _

theorem kind_advance (wf : s.Wf) (solid : s.kind.isSolid = true) :
    s.advance.kind = s.kindAfter := by
  obtain ⟨k, rest, follows, -⟩ := exists_following wf (kind_ne_endOfStream solid)
  simp [advance_of_cons follows, noteComments, kindAfter, kind, follows]

end ParseState

namespace Stretch

variable {α β : Type} {lo : Nat} {o t : ParseState} {n : Node} {ns ms : List Node}
  {owed : List (BlockKind × Nat)} {Q : β → ParseState → Prop}

-- Tokens

theorem advance (so : Stretch lo o t ns owed)
    (guarded : t.kind = .lexicalError → t.diagnostics ≠ []) (inside : t.kind ≠ .lineTerminator) :
    Stretch lo o t.advance ns owed := by
  obtain ⟨-, blocks, depth, pending⟩ := t.advance_frame
  exact so.act (.advance guarded) (.advance so.wf inside) blocks depth pending t.unclosed_advance

theorem pass (so : Stretch lo o t ns owed) (solid : t.kind.isSolid = true) :
    Stretch lo o t.advance ns owed :=
  so.advance (fun fault => by simp [fault, TokenKind.isSolid] at solid)
    (ParseState.kind_ne_lineTerminator solid)

theorem read {f : Token → Parse β} (so : Stretch lo o t ns owed) (solid : t.kind.isSolid = true)
    (rest : Stretch lo o t.advance ns owed → Ensures (f t.current) t.advance Q) :
    Ensures (Parse.read >>= f) t Q :=
  rest (so.pass solid)

theorem skip {f : Unit → Parse β} (so : Stretch lo o t ns owed) (solid : t.kind.isSolid = true)
    (rest : Stretch lo o t.advance ns owed → Ensures (f ()) t.advance Q) :
    Ensures (Parse.skip >>= f) t Q :=
  rest (so.pass solid)

theorem eat (so : Stretch lo o t ns owed) {kind : TokenKind} (solid : kind.isSolid = true) :
    Ensures (Parse.eat kind) t fun found u =>
      Stretch lo o u ns owed ∧
        ((found = none ∧ u = t ∧ t.kind ≠ kind) ∨
          (found = some t.current ∧ u = t.advance ∧ t.kind = kind)) := by
  refine .check ?_
  split
  next same =>
    have isKind : t.kind = kind := by simpa using same
    have solid : t.kind.isSolid = true := isKind ▸ solid
    refine so.read solid fun so => ?_
    exact ⟨so, .inr ⟨rfl, rfl, isKind⟩⟩
  next other =>
    exact ⟨so, .inl ⟨rfl, rfl, by simpa using other⟩⟩

theorem eatPlace (so : Stretch lo o t ns owed) {kind : TokenKind} (solid : kind.isSolid = true) :
    Ensures (Parse.eatPlace kind) t fun found u =>
      Stretch lo o u ns owed ∧
        ((found = none ∧ u = t ∧ t.kind ≠ kind) ∨
          (found = some t.current.span.start ∧ u = t.advance ∧ t.kind = kind)) := by
  refine (so.eat solid).bind fun found u ⟨so, cases⟩ => ⟨so, ?_⟩
  rcases cases with ⟨rfl, facts⟩ | ⟨rfl, facts⟩
  · exact .inl ⟨rfl, facts⟩
  · exact .inr ⟨rfl, facts⟩

-- Diagnostics

theorem reported (so : Stretch lo o t ns owed) {problem : Problem} (span : Span)
    (quiet : problem.isQuiet = true) (forward : t.Ordered → span.Forward) :
    Stretch lo o (t.report problem span) ns owed := by
  have closed : Diagnostic.unclosed? ⟨problem, span⟩ = none := by
    cases problem <;> first | rfl | simp [Problem.isQuiet] at quiet
  exact so.act (.report problem span forward) (.report (Problem.isPairing_of_isQuiet quiet) span)
    (t.blocks_report ..) (t.lineIfDepth_report ..) (t.pendingNext_report ..)
    (t.unclosed_report closed)

theorem report (so : Stretch lo o t ns owed) {problem : Problem} (span : Span)
    (quiet : problem.isQuiet = true) (forward : t.Ordered → span.Forward) :
    Ensures (Parse.report problem span) t fun _ u =>
      Stretch lo o u ns owed ∧ u.diagnostics ≠ [] ∧ u.ahead = t.ahead :=
  ⟨so.reported span quiet forward, ParseState.diagnostics_report so.wf _ _, t.ahead_report _ _⟩

theorem reportUnexpected (so : Stretch lo o t ns owed) {expected : Problem}
    (quiet : expected.isQuiet = true) :
    Ensures (Parse.reportUnexpected expected) t fun _ u =>
      Stretch lo o u ns owed ∧ u.diagnostics ≠ [] ∧ u.ahead = t.ahead := by
  refine so.report t.current.span ?_ fun _ => so.wf.stream.order
  cases t.current.fault? with
  | none => exact quiet
  | some fault => rfl

theorem expect (so : Stretch lo o t ns owed) {kind : TokenKind} {problem : Problem}
    (solid : kind.isSolid = true) (quiet : problem.isQuiet = true) :
    Ensures (Parse.expect kind problem) t fun found u =>
      Stretch lo o u ns owed ∧ (u.diagnostics = [] → found.isSome = true) := by
  refine (so.eat solid).bind fun found u ⟨so, cases⟩ => ?_
  cases found with
  | none =>
    refine (so.reportUnexpected quiet).bind fun _ v ⟨so, dirty, _⟩ => ?_
    exact ⟨so, fun none => absurd none dirty⟩
  | some token => exact ⟨so, fun _ => rfl⟩

theorem expectPlace (so : Stretch lo o t ns owed) {kind : TokenKind} {problem : Problem}
    (solid : kind.isSolid = true) (quiet : problem.isQuiet = true) :
    Ensures (Parse.expectPlace kind problem) t fun found u =>
      Stretch lo o u ns owed ∧ (u.diagnostics = [] → found.isSome = true) := by
  refine (so.expect solid quiet).bind fun found u ⟨so, present⟩ => ⟨so, fun none => ?_⟩
  exact Option.isSome_map.trans (present none)

theorem closeParenthesis (so : Stretch lo o t ns owed) :
    Ensures Parse.closeParenthesis t fun _ u => Stretch lo o u ns owed :=
  (so.expectPlace rfl rfl).mono fun _ _ facts => facts.1

theorem beginConstruct (so : Stretch lo o t ns owed) :
    Stretch lo o { t with suppressed := false } ns owed :=
  so.act .begin (.refl _) rfl rfl rfl rfl

-- Places where something is missing

theorem placeholder (so : Stretch lo o t ns owed) :
    Ensures Parse.placeholder t fun place u =>
      place = t.current.span.start ∧ Stretch lo o u ns owed ∧ t.here ≤ u.limit ∧
        u.ahead = t.ahead ∧ u.diagnostics = t.diagnostics := by
  refine ⟨rfl, so.act .mark .mark rfl rfl rfl rfl, ?_, rfl, rfl⟩
  show t.here ≤ max _ (t.placeholder.later t.current.span.start).index
  rw [Location.index_later]
  exact Nat.le_trans (Nat.le_max_right _ _) (Nat.le_max_right _ _)

-- Recovery: tokens are discarded only behind a diagnostic, and within a line

theorem advanceWhile (so : Stretch lo o t ns owed) {test : ParseState → Bool}
    (inside : ∀ s, test s = true → s.kind ≠ .lineTerminator) (n : Nat)
    (dirty : t.diagnostics ≠ []) : Stretch lo o (t.advanceWhile test n) ns owed := by
  induction n generalizing t with
  | zero => exact so
  | succ n ih =>
    unfold ParseState.advanceWhile
    split
    next holds => exact ih (so.advance (fun _ => dirty) (inside t holds)) (t.diagnostics_advance ▸ dirty)
    next => exact so

theorem resynced (so : Stretch lo o t ns owed) (stops : List TokenKind)
    (dirty : t.diagnostics ≠ []) : Stretch lo o (t.resync stops) ns owed := by
  unfold ParseState.resync
  split
  next => exact so
  next goesOn =>
    have inside := ParseState.kind_ne_lineTerminator_of_discarded (by simpa using goesOn)
    exact (so.advance (fun _ => dirty) inside).advanceWhile (ParseState.within_discarded stops) _
      (t.diagnostics_advance ▸ dirty)

theorem resync (so : Stretch lo o t ns owed) (stops : List TokenKind) (dirty : t.diagnostics ≠ []) :
    Ensures (Parse.resync stops) t fun _ u => Stretch lo o u ns owed :=
  so.resynced stops dirty

/-- The span of a statement is taken before what follows it is discarded. -/
theorem endStatement (so : Stretch lo o t ns owed) (start : Location) :
    Ensures (Parse.endStatement start) t fun span u =>
      span = t.spanSince start ∧ Stretch lo o u ns owed := by
  refine .spanFrom (.atStatementEnd ?_)
  split
  · exact .pure ⟨rfl, so⟩
  · refine (so.reportUnexpected rfl).bind fun _ u ⟨so, dirty, _⟩ => ?_
    exact (so.resync [] dirty).bind fun _ _ so => .pure ⟨rfl, so⟩

-- Parts and nodes

/-- A further part. -/
theorem part {p : Parse α} {nodes : α → List Node} (so : Stretch lo o t ns owed)
    (more : Yields p t nodes) : Ensures p t fun a u => Stretch lo o u (ns ++ nodes a) owed :=
  more.mono fun _ _ more => by simpa using so.append more

/-- A part that leaves nothing behind. -/
theorem silent {p : Parse α} (so : Stretch lo o t ns owed) (more : Yields p t fun _ => []) :
    Ensures p t fun _ u => Stretch lo o u ns owed :=
  more.mono fun _ _ more => so.followed more

theorem optionally {c : Bool} {p : Parse α} (so : Stretch lo o t ns owed)
    (nodes : Option α → List Node) (none : nodes none = [])
    (more : c = true → Yields p t fun a => nodes (some a)) :
    Ensures (Parse.optionally c p) t fun a u => Stretch lo o u (ns ++ nodes a) owed := by
  unfold Parse.optionally
  split
  next holds => exact (so.part (more holds)).bind fun _ _ so => so
  next =>
    refine .pure ?_
    simpa [none] using so

theorem whenEaten {kind : TokenKind} {p : Parse α} (so : Stretch lo o t ns owed)
    (nodes : Option α → List Node) (none : nodes none = []) (solid : kind.isSolid = true)
    (more : ∀ s, s.Wf → Yields p s fun a => nodes (some a)) :
    Ensures (Parse.whenEaten kind p) t fun a u => Stretch lo o u (ns ++ nodes a) owed := by
  refine (so.eat solid).bind fun found u ⟨so, _⟩ => ?_
  cases found with
  | none =>
    refine .pure ?_
    simpa [none] using so
  | some _ => exact (so.part (more u so.wf)).bind fun _ _ so => so

/-- A phrase without parts joins the nodes that have been read. -/
theorem leaf (so : Stretch lo o t ns owed) (start : lo ≤ n.span.start.index)
    (last : ∀ a ∈ ns, a.span.finish.index ≤ n.span.start.index)
    (order : n.span.start.index ≤ n.span.finish.index) (finish : n.span.finish.index ≤ t.limit)
    (children : n.children = []) (whole : t.diagnostics = [] → n.isProper = true)
    (phrase : n.isPhrase = true) : Stretch lo o t (ns ++ [n]) owed := by
  have noLoop := Node.closing?_of_isPhrase phrase
  refine { so with
    fits := fun m member => ?_
    ascending := ?_
    noOverlap := fun phrases => ?_
    orderly := fun none m member => ?_
    pending := fun p left => (so.pending p left).imp_left fun facts => ⟨facts.1, ?_⟩
    ledger := ?_ }
  · rcases List.mem_append.1 member with early | last
    · exact so.fits m early
    · rw [List.mem_singleton.1 last]
      refine Node.Fits.mono (.own order ?_ ?_ whole noLoop ?_) start finish id
      all_goals simp [children, Node.Ascending]
  · refine List.pairwise_append.2 ⟨so.ascending, List.pairwise_singleton _ _, ?_⟩
    simpa using fun a member => Nat.le_trans (so.fits a member).order (last a member)
  · rw [List.all_append, Bool.and_eq_true] at phrases
    refine (so.noOverlap phrases.1).append (.around (children ▸ .nil)) ?_
    simpa using last
  · rcases List.mem_append.1 member with early | last
    · exact so.orderly none m early
    · rw [List.mem_singleton.1 last]
      exact Node.orderly_of_isPhrase phrase _
  · obtain ⟨-, c, member, item⟩ := facts
    exact ⟨c, List.mem_append_left _ member, item⟩
  · simpa [Node.openBlocks_of_isPhrase phrase] using so.ledger

/-- A phrase that is missing joins the nodes that have been read. -/
theorem missing (so : Stretch lo o t ns owed) (node : Location → Node)
    (whole : t.diagnostics = [] → (node t.current.span.start).isProper = true)
    (shape : ((node t.current.span.start).span, (node t.current.span.start).children,
      (node t.current.span.start).isPhrase) = (.point t.current.span.start, [], true)) :
    Ensures Parse.placeholder t fun place u =>
      Stretch lo o u (ns ++ [node place]) owed ∧ u.diagnostics = t.diagnostics := by
  obtain ⟨span, children, phrase⟩ := Prod.mk.inj shape |>.imp_right Prod.mk.inj
  refine so.placeholder.mono fun place u ⟨same, next, reached, _, diagnostics⟩ => ?_
  subst same
  refine ⟨next.leaf ?_ (fun a member => ?_) ?_ ?_ children (diagnostics ▸ whole) phrase, diagnostics⟩
  all_goals rw [span]
  · exact so.lower
  · exact so.finish_le_here member
  · exact Nat.le_refl _
  · exact reached

/-- The token that was passed last, as a node. -/
theorem token (so : Stretch lo o t ns owed) (solid : t.kind.isSolid = true)
    (span : n.span = t.current.span) (children : n.children = [])
    (whole : t.diagnostics = [] → n.isProper = true) (phrase : n.isPhrase = true) :
    Stretch lo o t.advance (ns ++ [n]) owed := by
  have next := so.pass solid
  refine next.leaf ?_ (fun a member => ?_) ?_ ?_ children (fun none => whole ?_) phrase
  · rw [span]; exact so.lower
  · rw [span]; exact so.finish_le_here member
  · rw [span]; exact so.wf.stream.order
  · rw [span]; exact ParseState.finish_le_limit_advance so.wf (ParseState.kind_ne_endOfStream solid)
  · rw [← t.diagnostics_advance]; exact none

/-- All that has been read since `start`, as a node. -/
theorem wrap {start : Location} (so : Stretch start.index o t ns owed)
    (reached : start.index ≤ t.limit) (span : n.span = t.spanSince start)
    (children : n.children = ns) (whole : t.diagnostics = [] → n.isProper = true)
    (owes : n.unclosed = owed) (noLoop : n.closing? = none)
    (explicit : ∀ c ∈ ns, n.implies c = false)
    (orderly : t.diagnostics = [] → n.Orderly o.ahead) :
    Stretch start.index o t [n] [] := by
  have finish := t.index_finishSince start
  refine so.close ?_ ?_ ?_ (fun c member => ?_) children whole owes noLoop explicit orderly
  all_goals rw [span]
  · exact Nat.le_refl _
  · rw [finish]; exact Nat.le_max_left _ _
  · rw [finish]; exact Nat.max_le.2 ⟨reached, Nat.le_refl _⟩
  · have fits := so.fits c member
    rw [finish]
    exact ⟨fits.start, Nat.le_trans fits.finish (Nat.le_max_right _ _)⟩

variable {node : α → Node} {build : Span → α} {start : Location}

/-- A rule that ends by giving its node the span since `start`. -/
theorem finishNode (so : Stretch start.index o t ns owed) (reached : start.index ≤ t.limit)
    (children : (node (build (t.spanSince start))).children = ns)
    (span : (node (build (t.spanSince start))).span = t.spanSince start)
    (whole : t.diagnostics = [] → (node (build (t.spanSince start))).isProper = true)
    (owes : (node (build (t.spanSince start))).unclosed = owed)
    (noLoop : (node (build (t.spanSince start))).closing? = none)
    (explicit : ∀ c ∈ ns, (node (build (t.spanSince start))).implies c = false)
    (orderly : t.diagnostics = [] → (node (build (t.spanSince start))).Orderly o.ahead) :
    Ensures (Parse.spanFrom start >>= fun span => pure (build span)) t fun a u =>
      Stretch start.index o u [node a] [] :=
  so.wrap reached span children whole owes noLoop explicit orderly

/-- Like `finishNode`, for a node that is no loop and implies no accessor. -/
theorem finishHolding {whole : Bool} {lists : List (List Node)} (so : Stretch start.index o t ns owed)
    (reached : start.index ≤ t.limit)
    (children : (node (build (t.spanSince start))).children = ns)
    (own : (node (build (t.spanSince start))).outline
      = .holding (t.spanSince start) owed whole lists)
    (given : t.diagnostics = [] → whole = true)
    (orderly : t.diagnostics = [] → ∀ l ∈ lists,
      Node.Roster o.ahead (node (build (t.spanSince start))).container l) :
    Ensures (Parse.spanFrom start >>= fun span => pure (build span)) t fun a u =>
      Stretch start.index o u [node a] [] := by
  obtain ⟨span, owes, noLoop, explicit, isProper, listed⟩ := Node.outline_holding own
  exact so.finishNode reached children span (fun none => isProper.trans (given none)) owes noLoop
    (fun c _ => explicit c) fun none => Node.orderly_of_lists listed (orderly none)

/-- Like `finishHolding`, for a node whose outline is plain. -/
theorem finishWhen {whole : Bool} (so : Stretch start.index o t ns owed)
    (reached : start.index ≤ t.limit)
    (children : (node (build (t.spanSince start))).children = ns)
    (own : (node (build (t.spanSince start))).outline = .plain (t.spanSince start) owed whole)
    (given : t.diagnostics = [] → whole = true) :
    Ensures (Parse.spanFrom start >>= fun span => pure (build span)) t fun a u =>
      Stretch start.index o u [node a] [] :=
  so.finishHolding reached children own given (by simp)

theorem finish (so : Stretch start.index o t ns owed) (reached : start.index ≤ t.limit)
    (children : (node (build (t.spanSince start))).children = ns)
    (own : (node (build (t.spanSince start))).outline = .plain (t.spanSince start) owed true) :
    Ensures (Parse.spanFrom start >>= fun span => pure (build span)) t fun a u =>
      Stretch start.index o u [node a] [] :=
  so.finishWhen reached children own fun _ => rfl

/-- Like `finish`, where the rule began before `start`. -/
theorem finishFrom (so : Stretch start.index o t ns owed) (lower : lo ≤ start.index)
    (reached : start.index ≤ t.limit)
    (children : (node (build (t.spanSince start))).children = ns)
    (own : (node (build (t.spanSince start))).outline = .plain (t.spanSince start) owed true) :
    Ensures (Parse.spanFrom start >>= fun span => pure (build span)) t fun a u =>
      Stretch lo o u [node a] [] :=
  (so.finish reached children own).mono fun _ _ so => so.weaken lower

/-- A rule that ends by giving its node the span of a statement. -/
theorem finishStatementWhen {whole : Bool} (so : Stretch start.index o t ns owed)
    (reached : start.index ≤ t.limit)
    (children : (node (build (t.spanSince start))).children = ns)
    (own : (node (build (t.spanSince start))).outline = .plain (t.spanSince start) owed whole)
    (given : t.diagnostics = [] → whole = true) :
    Ensures (Parse.endStatement start >>= fun span => pure (build span)) t fun a u =>
      Stretch start.index o u [node a] [] := by
  have node : Stretch start.index o t [node (build (t.spanSince start))] [] :=
    so.finishWhen reached children own given
  refine (node.endStatement start).bind fun span u ⟨same, so⟩ => ?_
  subst same
  exact so

theorem finishStatement (so : Stretch start.index o t ns owed) (reached : start.index ≤ t.limit)
    (children : (node (build (t.spanSince start))).children = ns)
    (own : (node (build (t.spanSince start))).outline = .plain (t.spanSince start) owed true) :
    Ensures (Parse.endStatement start >>= fun span => pure (build span)) t fun a u =>
      Stretch start.index o u [node a] [] :=
  so.finishStatementWhen reached children own fun _ => rfl

/-- Like `finishStatement`, where the rule began before `start`. -/
theorem finishStatementFrom (so : Stretch start.index o t ns owed) (lower : lo ≤ start.index)
    (reached : start.index ≤ t.limit)
    (children : (node (build (t.spanSince start))).children = ns)
    (own : (node (build (t.spanSince start))).outline = .plain (t.spanSince start) owed true) :
    Ensures (Parse.endStatement start >>= fun span => pure (build span)) t fun a u =>
      Stretch lo o u [node a] [] :=
  (so.finishStatement reached children own).mono fun _ _ so => so.weaken lower

end Stretch

namespace Yields

variable {α : Type} {s : ParseState} {nodes : α → List Node}

/-- A rule that begins by reading a token.  What has been read reaches behind its start. -/
theorem read {f : Token → Parse α} (wf : s.Wf) (solid : s.kind.isSolid = true)
    (rest : Stretch s.here s.advance s.advance [] [] → s.here < s.advance.limit →
      Ensures (f s.current) s.advance fun a u => Stretch s.here s.advance u (nodes a) []) :
    Yields (Parse.read >>= f) s nodes := by
  have first := (Stretch.refl wf).pass solid
  have reached := (ParseState.limit_advance wf (ParseState.kind_ne_endOfStream solid)).1
  exact first.trans (rest ((Stretch.refl first.wf).weaken first.lower) reached)

theorem skip {f : Unit → Parse α} (wf : s.Wf) (solid : s.kind.isSolid = true)
    (rest : Stretch s.here s.advance s.advance [] [] → s.here < s.advance.limit →
      Ensures (f ()) s.advance fun a u => Stretch s.here s.advance u (nodes a) []) :
    Yields (Parse.skip >>= f) s nodes :=
  read (f := fun _ => f ()) wf solid rest

/-- A rule that begins with a token that may be left out. -/
theorem eatPlace {kind : TokenKind} {f : Option Location → Parse α} (wf : s.Wf)
    (solid : kind.isSolid = true)
    (absent : s.kind ≠ kind → Ensures (f none) s fun a u => Stretch s.here s u (nodes a) [])
    (present : Stretch s.here s.advance s.advance [] [] → s.here < s.advance.limit →
      Ensures (f (some s.current.span.start)) s.advance fun a u =>
        Stretch s.here s.advance u (nodes a) []) :
    Yields (Parse.eatPlace kind >>= f) s nodes := by
  refine ((Stretch.refl wf).eatPlace solid).bind fun found u ⟨so, cases⟩ => ?_
  obtain ⟨rfl, rfl, other⟩ | ⟨rfl, rfl, isKind⟩ := cases
  · exact absent other
  · have reached := (ParseState.limit_advance wf (ParseState.kind_ne_endOfStream
      (isKind ▸ solid))).1
    exact so.trans (present ((Stretch.refl so.wf).weaken so.lower) reached)

end Yields

/-- A line has been read, from its first token to its end.  A loop behind it starts a line of its
own. -/
structure Line (lo : Nat) (o t : ParseState) (span : Span) (ns : List Node) : Prop where
  so : Stretch lo o t ns []
  start : span.start.index = lo
  order : lo < span.finish.index
  covers : ∀ n ∈ ns, n.span.finish.index ≤ span.finish.index
  finish : span.finish.index ≤ t.limit
  settled : t.kind = .word .kwFor → span.finish.index < t.here

namespace Line

variable {α : Type} {lo : Nat} {o s t : ParseState} {n : Node} {ns : List Node} {sp : Span}

theorem forward (line : Line lo o t sp ns) : sp.Forward := by
  have := line.start
  have := line.order
  unfold Span.Forward
  omega

/-- A line begins by reading a token. -/
theorem read {f : Token → Parse α} {span : α → Span} {nodes : α → List Node} (wf : s.Wf)
    (solid : s.kind.isSolid = true)
    (rest : Stretch s.here s.advance s.advance [] [] → s.here < s.advance.limit →
      Ensures (f s.current) s.advance fun a u => Line s.here s.advance u (span a) (nodes a)) :
    Ensures (Parse.read >>= f) s fun a u => Line s.here s u (span a) (nodes a) := by
  have first := (Stretch.refl wf).pass solid
  have reached := (ParseState.limit_advance wf (ParseState.kind_ne_endOfStream solid)).1
  have line := rest ((Stretch.refl first.wf).weaken first.lower) reached
  exact ⟨first.trans line.so, line.start, line.order, line.covers, line.finish, line.settled⟩

/-- A line holds a token. -/
theorem fewer (line : Line s.here s t sp ns) : t.remaining < s.remaining := by
  have later := line.so.later
  by_contra same
  have ahead := later.still (Nat.le_antisymm later.remaining (Nat.not_lt.1 same))
  obtain ⟨current, -⟩ := List.cons.inj ahead
  have here : t.here = s.here := by rw [ParseState.here, ParseState.here, current]
  have order := line.order
  have finish := line.finish
  have behind := line.so.wf.behind
  omega

/-- The line as a node. -/
theorem node {whole : Bool} (line : Line lo o t sp ns) (own : n.outline = .plain sp [] whole)
    (children : n.children = ns) (given : t.diagnostics = [] → whole = true) :
    Stretch lo o t [n] [] := by
  obtain ⟨span, owes, noLoop, explicit, isProper, flat⟩ := Node.outline_holding own
  refine line.so.close ?_ ?_ ?_ (fun c member => ?_) children
    (fun none => isProper.trans (given none)) owes noLoop (fun c _ => explicit c)
    fun _ => Node.orderly_of_flat flat _
  all_goals rw [span]
  · exact Nat.le_of_eq line.start.symm
  · rw [line.start]; exact Nat.le_of_lt line.order
  · exact line.finish
  · rw [line.start]; exact ⟨(line.so.fits c member).start, line.covers c member⟩

end Line

/-- Discarding stops at once where a statement ends; a loop is found only behind discarded
tokens. -/
theorem ParseState.resync_settled {s : ParseState} (wf : s.Wf) (dirty : s.diagnostics ≠ [])
    (loop : (s.resync []).kind = .word .kwFor) : s.here < (s.resync []).here := by
  unfold resync at loop ⊢
  by_cases stops : stopsDiscarding [] s = true
  · rw [if_pos stops] at loop
    simp [stopsDiscarding, loop] at stops
  · rw [if_neg stops]
    have ends : s.kind ≠ .endOfStream := by
      intro ends
      simp [stopsDiscarding, ends] at stops
    obtain ⟨reached, behind, -⟩ := limit_advance wf ends
    have inside := kind_ne_lineTerminator_of_discarded (by simpa using stops)
    have passed := (Stretch.refl wf).advance (fun _ => dirty) inside
    have discarded := ((Stretch.refl passed.wf).advanceWhile (within_discarded []) s.remaining
      (s.diagnostics_advance ▸ dirty)).later.here
    omega

/-- A line ends where its statement does.  What follows is discarded. -/
theorem Stretch.endLine {o t : ParseState} {ns : List Node} {start : Location}
    (so : Stretch start.index o t ns []) (reached : start.index < t.limit) :
    Ensures (Parse.endStatement start) t fun span u => Line start.index o u span ns := by
  have finish := t.index_finishSince start
  have lower := so.lower
  have behind := so.wf.behind
  have covers (n : Node) (member : n ∈ ns) :
      n.span.finish.index ≤ (t.spanSince start).finish.index := by
    have := (so.fits n member).finish
    omega
  refine .spanFrom (.atStatementEnd ?_)
  split
  next ends =>
    show Line start.index o t (t.spanSince start) ns
    refine ⟨so, rfl, by omega, covers, by omega, fun loop => ?_⟩
    simp [ParseState.atStatementEnd, loop] at ends
  next =>
    refine ((so.reportUnexpected rfl).and ((Stretch.refl so.wf).reportUnexpected rfl)).bind
      fun _ u ⟨⟨reported, dirty, ahead⟩, ⟨own, _⟩⟩ => ?_
    show Line start.index o (u.resync []) (t.spanSince start) ns
    have same : u.here = t.here := by
      obtain ⟨current, -⟩ := List.cons.inj ahead
      rw [ParseState.here, ParseState.here, current]
    have limit := (own.resynced [] dirty).later.limit
    refine ⟨reported.resynced [] dirty, rfl, by omega, covers, by omega, fun loop => ?_⟩
    have := ParseState.resync_settled reported.wf dirty loop
    omega

end VisualBasic
