import VisualBasic.Parse.Bodies
import VisualBasic.Proofs.Parse.Rule
import VisualBasic.Proofs.Syntax.Punctuation

/-!
The steps that rules are made of, each with what it writes: nodes, and lists with commas that are not
part of a node yet.  Nothing is asked of the state that a rule starts in but that the parser can be in
it, so every rule may follow every other.
-/

set_option autoImplicit false

namespace VisualBasic

/-- The span lies between two indices and does not run backwards. -/
structure Span.Lies (lo hi : Nat) (s : Span) : Prop where
  start : lo ≤ s.start.index
  order : s.start.index ≤ s.finish.index
  finish : s.finish.index ≤ hi

theorem Span.Lies.mono {lo lo' hi hi' : Nat} {s : Span} (lies : s.Lies lo hi) (lower : lo' ≤ lo)
    (upper : hi ≤ hi') : s.Lies lo' hi' :=
  ⟨Nat.le_trans lower lies.start, lies.order, Nat.le_trans lies.finish upper⟩

/-- The variables of a `Next` are consistent lists. -/
structure NextStatement.IsPunctuated (clean : Prop) (next : NextStatement) : Prop where
  list : (Punctuation.ofList Expression.span next.loopVariables).Holds clean
  each : ∀ v ∈ next.loopVariables.items,
    (Node.expression v).Everywhere (Node.IsPunctuated clean)

theorem NextStatement.IsPunctuated.mono {clean clean' : Prop} {next : NextStatement}
    (punctuated : next.IsPunctuated clean) (cleaner : clean' → clean) : next.IsPunctuated clean' :=
  ⟨punctuated.list.mono cleaner, fun v member =>
    (punctuated.each v member).mono fun _ holds => holds.mono cleaner⟩

namespace ParseState

variable {s t u : ParseState}

/-- A state that a parser can be in, whatever it has passed on its way. -/
structure Sane (s : ParseState) : Prop where
  stream : Stream s.ahead
  behind : s.limit ≤ s.here
  reported : s.suppressed = true → s.diagnostics ≠ []
  pending : ∀ p, s.pendingNext = some p → p.statement.IsPunctuated (s.diagnostics = [])

/-- A later state of a run. -/
structure Onward (s t : ParseState) : Prop where
  sane : t.Sane
  here : s.here ≤ t.here
  clean : t.diagnostics = [] → s.diagnostics = []

theorem Onward.refl (sane : s.Sane) : s.Onward s := ⟨sane, Nat.le_refl _, id⟩

theorem Onward.trans (first : s.Onward t) (second : t.Onward u) : s.Onward u :=
  ⟨second.sane, Nat.le_trans first.here second.here, fun none => first.clean (second.clean none)⟩

namespace Sane

/-- Behind a token that does not end the stream, the next one stands. -/
theorem passed (sane : s.Sane) : s.current.span.finish.index ≤ s.advance.here ∧
    (s.kind ≠ .endOfStream → s.here < s.advance.here) := by
  have stream := sane.stream
  unfold ahead at stream
  cases follows : s.following with
  | nil =>
    rw [follows] at stream
    rw [advance_of_nil follows]
    cases stream with
    | last ends same => exact ⟨Nat.le_of_eq same.symm, fun goesOn => absurd ends goesOn⟩
  | cons k rest =>
    rw [follows] at stream
    rw [advance_of_cons follows]
    cases stream with
    | cons goesOn wide before named rest =>
      exact ⟨before, fun _ => Nat.lt_of_lt_of_le wide before⟩

theorem order (sane : s.Sane) : s.current.span.Forward := sane.stream.order

theorem advance (sane : s.Sane) : s.Onward s.advance := by
  have here : s.here ≤ s.advance.here := Nat.le_trans sane.order sane.passed.1
  have behind : s.advance.limit ≤ s.advance.here := by
    have finish := sane.passed.1
    have := sane.behind
    cases follows : s.following with
    | nil => rwa [advance_of_nil follows]
    | cons k rest =>
      rw [advance_of_cons follows] at finish here ⊢
      simp only [limit, ParseState.here, noteComments, Option.map_some, Option.getD_some] at *
      omega
  refine ⟨⟨?_, behind, ?_, ?_⟩, here, fun none => s.diagnostics_advance ▸ none⟩
  · have stream := sane.stream
    unfold ahead at stream
    cases follows : s.following with
    | nil => rw [advance_of_nil follows]; exact sane.stream
    | cons k rest =>
      rw [ahead_advance follows, follows]
      rw [follows] at stream
      cases stream
      assumption
  · rw [s.suppressed_advance, s.diagnostics_advance]
    exact sane.reported
  · rw [s.advance_frame.2.2.2, s.diagnostics_advance]
    exact sane.pending

theorem report (sane : s.Sane) (problem : Problem) (span : Span) :
    s.Onward (s.report problem span) ∧ (s.report problem span).diagnostics ≠ [] := by
  cases suppressed : s.suppressed with
  | true =>
    rw [report_of_suppressed suppressed]
    exact ⟨.refl sane, sane.reported suppressed⟩
  | false =>
    rw [report_of_not_suppressed suppressed]
    refine ⟨⟨⟨sane.stream, sane.behind, fun _ => ?_, fun p left => ?_⟩, Nat.le_refl _, ?_⟩, ?_⟩
    · simp
    · exact (sane.pending p left).mono fun none => by simp at none
    · exact fun none => by simp at none
    · simp

theorem begin (sane : s.Sane) : s.Onward { s with suppressed := false } :=
  ⟨⟨sane.stream, sane.behind, by simp, sane.pending⟩, Nat.le_refl _, id⟩

theorem mark (sane : s.Sane) :
    s.Onward { s with placeholder := s.placeholder.later s.current.span.start } := by
  have behind := sane.behind
  refine ⟨⟨sane.stream, ?_, sane.reported, sane.pending⟩, Nat.le_refl _, id⟩
  simp only [limit, here, Location.index_later] at *
  omega

/-- What a rule notes beside the tokens and the diagnostics is of no account. -/
theorem aside (sane : s.Sane) (blocks : List OpenBlock) (depth : Nat) (directives : OpenDirectives)
    (tables : DirectiveTables) : s.Onward { s with
      blocks := blocks, lineIfDepth := depth, directives := directives, tables := tables } :=
  ⟨⟨sane.stream, sane.behind, sane.reported, sane.pending⟩, Nat.le_refl _, id⟩

theorem setPending (sane : s.Sane) (p : Option PendingNext)
    (holds : ∀ q, p = some q → q.statement.IsPunctuated (s.diagnostics = [])) :
    s.Onward { s with pendingNext := p } :=
  ⟨⟨sane.stream, sane.behind, sane.reported, holds⟩, Nat.le_refl _, id⟩

theorem advanceWhile (sane : s.Sane) (test : ParseState → Bool) (n : Nat) :
    s.Onward (s.advanceWhile test n) := by
  induction n generalizing s with
  | zero => exact .refl sane
  | succ n ih =>
    unfold ParseState.advanceWhile
    split
    · exact sane.advance.trans (ih sane.advance.sane)
    · exact .refl sane

theorem resync (sane : s.Sane) (stops : List TokenKind) : s.Onward (s.resync stops) := by
  unfold ParseState.resync
  split
  · exact .refl sane
  · exact sane.advance.trans (sane.advance.sane.advanceWhile _ _)

/-- What has been read since a place lies behind it. -/
theorem spanSince (sane : s.Sane) {start : Location} {lo : Nat} (lower : lo ≤ start.index)
    (reached : start.index ≤ s.here) : (s.spanSince start).Lies lo s.here := by
  refine ⟨lower, s.spanSince_forward start, ?_⟩
  rw [s.index_finishSince start]
  exact Nat.max_le.2 ⟨reached, sane.behind⟩

end Sane

end ParseState

/-- A run of a parser, the nodes that it has written and the lists beside them. -/
structure Writ (o t : ParseState) (ns : List Node) (ls : List Punctuation) : Prop where
  onward : o.Onward t
  spans : ∀ n ∈ ns, n.isPhrase = true → n.span.Lies o.here t.here
  nodes : ∀ n ∈ ns, n.Everywhere (Node.IsPunctuated (t.diagnostics = []))
  lists : ∀ p ∈ ls, p.Holds (t.diagnostics = [])

/-- The rule writes the nodes and the lists of its result, wherever it starts. -/
abbrev Writes {α : Type} (p : Parse α) (nodes : α → List Node) (lists : α → List Punctuation) : Prop :=
  ∀ s : ParseState, s.Sane → Ensures p s fun a t => Writ s t (nodes a) (lists a)

/-- The rule writes nothing. -/
abbrev Proceeds {α : Type} (p : Parse α) : Prop :=
  ∀ s : ParseState, s.Sane → Ensures p s fun _ t => s.Onward t

namespace Writ

variable {α β : Type} {o t u : ParseState} {n : Node} {ns ms : List Node} {ls ks : List Punctuation}

theorem sane (so : Writ o t ns ls) : t.Sane := so.onward.sane

theorem refl (sane : o.Sane) : Writ o o [] [] := ⟨.refl sane, by simp, by simp, by simp⟩

theorem onto (so : Writ o t ns ls) (further : t.Onward u) : Writ o u ns ls where
  onward := so.onward.trans further
  spans n member phrase := (so.spans n member phrase).mono (Nat.le_refl _) further.here
  nodes n member := (so.nodes n member).mono fun _ holds => holds.mono further.clean
  lists p member := (so.lists p member).mono further.clean

theorem beside (first : Writ o t ns ls) (second : Writ o t ms ks) :
    Writ o t (ns ++ ms) (ls ++ ks) :=
  ⟨first.onward, List.forall_mem_append.2 ⟨first.spans, second.spans⟩,
    List.forall_mem_append.2 ⟨first.nodes, second.nodes⟩,
    List.forall_mem_append.2 ⟨first.lists, second.lists⟩⟩

/-- What has been read from a later state on. -/
theorem since (so : Writ t u ns ls) (earlier : o.Onward t) : Writ o u ns ls :=
  ⟨earlier.trans so.onward, fun n member phrase =>
    (so.spans n member phrase).mono earlier.here (Nat.le_refl _), so.nodes, so.lists⟩

theorem append (first : Writ o t ns ls) (second : Writ t u ms ks) :
    Writ o u (ns ++ ms) (ls ++ ks) :=
  (first.onto second.onward).beside (second.since first.onward)

/-- Nodes without lists beside them. -/
theorem appendNodes (first : Writ o t ns ls) (second : Writ t u ms []) : Writ o u (ns ++ ms) ls := by
  simpa using first.append second

/-- What has been read becomes the parts of a node. -/
theorem node (so : Writ o t ns ls) (lies : n.isPhrase = true → n.span.Lies o.here t.here)
    (children : n.children = ns) (own : (n.punctuation, n.closing?) = (ls, none)) :
    Writ o t [n] [] :=
  ⟨so.onward, List.forall_mem_singleton.2 lies, List.forall_mem_singleton.2
    (Node.everywhere_of_lists own so.lists (children ▸ so.nodes)), by simp⟩

/-- A node that is no phrase. -/
theorem item (so : Writ o t ns ls) (isItem : n.isPhrase = false) (children : n.children = ns)
    (own : (n.punctuation, n.closing?) = (ls, none)) : Writ o t [n] [] :=
  so.node (fun phrase => by simp [isItem] at phrase) children own

/-- A node around a single one has the same extent. -/
theorem around {m : Node} (so : Writ o t [m] []) (same : n.span = m.span) (phrase : m.isPhrase = true)
    (children : n.children = [m]) (own : (n.punctuation, n.closing?) = ([], none)) :
    Writ o t [n] [] :=
  so.node (fun _ => same ▸ so.spans m List.mem_cons_self phrase) children own

/-- A node without parts. -/
theorem leaf (so : Writ o t ns ls) (further : t.Onward u) (lies : n.span.Lies t.here u.here)
    (bare : (n.children, n.punctuation, n.closing?) = ([], [], none)) :
    Writ o u (ns ++ [n]) ls := by
  obtain ⟨children, own⟩ := Prod.mk.inj bare
  have alone := ((refl so.sane).onto further).node (fun _ => lies) children own
  simpa using so.append alone

/-- A node for the current token, which is passed. -/
theorem token (so : Writ o t ns ls) (span : n.span = t.current.span)
    (bare : (n.children, n.punctuation, n.closing?) = ([], [], none)) :
    Writ o t.advance (ns ++ [n]) ls :=
  so.leaf so.sane.advance (span ▸ ⟨Nat.le_refl _, so.sane.order, so.sane.passed.1⟩) bare

/-- The same behind a report. -/
theorem reportedToken (so : Writ o t ns ls) (problem : Problem) (place : Span)
    (span : n.span = t.current.span)
    (bare : (n.children, n.punctuation, n.closing?) = ([], [], none)) :
    Writ o (t.report problem place).advance (ns ++ [n]) ls := by
  have same : (t.report problem place).current = t.current :=
    (List.cons.inj (t.ahead_report problem place)).1
  exact (so.onto (so.sane.report problem place).1).token (span.trans (congrArg Token.span same.symm))
    bare

/-- A name for the current token, which is passed. -/
theorem name (so : Writ o t ns ls) :
    Writ o t.advance (ns ++ [.simpleName (.ofToken t.current)]) ls := by
  refine so.leaf so.sane.advance ?_ rfl
  have order := so.sane.order
  have passed := so.sane.passed.1
  have here : t.here = t.current.span.start.index := rfl
  unfold SimpleName.ofToken
  split
  · exact ⟨Nat.le_refl _, order, passed⟩
  · exact ⟨Nat.le_refl _, Nat.le_refl _, Nat.le_trans order passed⟩

/-- A list of what has been read. -/
theorem listed {p : Punctuation} (so : Writ o t ns []) (holds : p.Holds (t.diagnostics = [])) :
    Writ o t ns [p] :=
  { so with lists := List.forall_mem_singleton.2 holds }

/-- The lists may be forgotten. -/
theorem unlisted (so : Writ o t ns ls) : Writ o t ns [] :=
  ⟨so.onward, so.spans, so.nodes, by simp⟩

/-- So may all that has been read. -/
theorem forget (so : Writ o t ns ls) : Writ o t [] [] :=
  ⟨so.onward, by simp, by simp, by simp⟩

-- Rules

variable {p : Parse α} {nodes : α → List Node} {lists : α → List Punctuation}

/-- A further part. -/
theorem part (so : Writ o t ns ls) (more : Writes p nodes lists) :
    Ensures p t fun a u => Writ o u (ns ++ nodes a) (ls ++ lists a) :=
  (more t so.sane).mono fun _ _ more => so.append more

/-- A part without lists of its own. -/
theorem nodePart (so : Writ o t ns ls) (more : Writes p nodes fun _ => []) :
    Ensures p t fun a u => Writ o u (ns ++ nodes a) ls :=
  (so.part more).mono fun _ _ so => by simpa using so

/-- A step that writes nothing. -/
theorem pass (so : Writ o t ns ls) (more : Proceeds p) : Ensures p t fun _ u => Writ o u ns ls :=
  (more t so.sane).mono fun _ _ further => so.onto further

theorem optionally {c : Bool} (so : Writ o t ns ls) (nodes : Option α → List Node)
    (lists : Option α → List Punctuation) (none : (nodes none, lists none) = ([], []))
    (more : Writes p (fun a => nodes (some a)) fun a => lists (some a)) :
    Ensures (Parse.optionally c p) t fun a u => Writ o u (ns ++ nodes a) (ls ++ lists a) := by
  obtain ⟨noNodes, noLists⟩ := Prod.mk.inj none
  unfold Parse.optionally
  split
  · exact (so.part more).bind fun _ _ so => so
  · refine .pure ?_
    simpa [noNodes, noLists] using so

/-- A node that may be left out. -/
theorem optionalNode {c : Bool} {node : α → Node} (so : Writ o t ns ls)
    (more : Writes p (fun a => [node a]) fun _ => []) :
    Ensures (Parse.optionally c p) t fun a u => Writ o u (ns ++ Node.ofOption node a) ls :=
  (so.optionally (Node.ofOption node) (fun _ => []) rfl more).mono fun _ _ so => by simpa using so

/-- A node behind a token that may be left out. -/
theorem whenEaten {kind : TokenKind} {node : α → Node} (so : Writ o t ns ls)
    (more : Writes p (fun a => [node a]) fun _ => []) :
    Ensures (Parse.whenEaten kind p) t fun a u => Writ o u (ns ++ Node.ofOption node a) ls := by
  refine .eat (fun _ => ?_) fun _ => ?_
  · exact ((so.onto so.sane.advance).nodePart more).bind fun _ _ so => .pure so
  · exact .pure (by simpa [Node.ofOption] using so)

end Writ

namespace Proceeds

open Parse

variable {α β : Type} {p : Parse α} {f : α → Parse β}

theorem pure {a : α} : Proceeds (Pure.pure a : Parse α) := fun _ sane => .refl sane

theorem bind (first : Proceeds p) (rest : ∀ a, Proceeds (f a)) : Proceeds (p >>= f) :=
  fun s sane => (first s sane).bind fun a t further =>
    (rest a t further.sane).mono fun _ _ more => further.trans more

theorem map {g : α → β} (first : Proceeds p) : Proceeds (g <$> p) :=
  fun s sane => (first s sane).map fun _ _ further => further

theorem writes (proceeds : Proceeds p) : Writes p (fun _ => []) fun _ => [] :=
  fun s sane => (proceeds s sane).mono fun _ _ further => (Writ.refl sane).onto further

theorem ofWrites {nodes : α → List Node} {lists : α → List Punctuation} (writes : Writes p nodes lists) :
    Proceeds p := fun s sane => (writes s sane).mono fun _ _ so => so.onward

theorem get : Proceeds (MonadState.get : Parse ParseState) := fun _ sane => .refl sane

theorem peek : Proceeds Parse.peek := fun _ sane => .refl sane

theorem peekKind : Proceeds Parse.peekKind := fun _ sane => .refl sane

theorem kindAfter : Proceeds Parse.kindAfter := fun _ sane => .refl sane

theorem here : Proceeds Parse.here := fun _ sane => .refl sane

theorem check (kind : TokenKind) : Proceeds (Parse.check kind) := fun _ sane => .refl sane

theorem atStatementEnd : Proceeds Parse.atStatementEnd := fun _ sane => .refl sane

theorem spanFrom (start : Location) : Proceeds (Parse.spanFrom start) := fun _ sane => .refl sane

theorem skip : Proceeds Parse.skip := fun _ sane => sane.advance

theorem read : Proceeds Parse.read := fun _ sane => sane.advance

theorem placeholder : Proceeds Parse.placeholder := fun _ sane => sane.mark

theorem beginConstruct : Proceeds Parse.beginConstruct := fun _ sane => sane.begin

theorem report (problem : Problem) (span : Span) : Proceeds (Parse.report problem span) :=
  fun _ sane => (sane.report _ _).1

theorem reportUnexpected (expected : Problem) : Proceeds (Parse.reportUnexpected expected) :=
  fun _ sane => (sane.report _ _).1

theorem resync (stops : List TokenKind) : Proceeds (Parse.resync stops) :=
  fun _ sane => sane.resync stops

theorem skipStatement : Proceeds Parse.skipStatement := fun _ sane => sane.advanceWhile _ _

theorem ite {c : Prop} [Decidable c] {q : Parse α} (first : Proceeds p) (second : Proceeds q) :
    Proceeds (if c then p else q) := by
  split
  · exact first
  · exact second

/-- A step that is taken or not before the rule goes on. -/
theorem whether {c : Prop} [Decidable c] {step : Parse Unit} {q : Parse α} (first : Proceeds step)
    (rest : Proceeds q) : Proceeds (if c then step >>= fun _ => q else q) :=
  .ite (first.bind fun _ => rest) rest

theorem eat (kind : TokenKind) : Proceeds (Parse.eat kind) :=
  (check kind).bind fun _ => .ite (read.bind fun _ => .pure) .pure

theorem eatPlace (kind : TokenKind) : Proceeds (Parse.eatPlace kind) :=
  (eat kind).bind fun _ => .pure

theorem eatContextual (keyword : Keyword) : Proceeds (Parse.eatContextual keyword) :=
  peek.bind fun _ => .ite (read.bind fun _ => .pure) .pure

theorem expect (kind : TokenKind) (problem : Problem) : Proceeds (Parse.expect kind problem) :=
  (eat kind).bind fun _ => .whether (reportUnexpected problem) .pure

theorem expectPlace (kind : TokenKind) (problem : Problem) :
    Proceeds (Parse.expectPlace kind problem) :=
  (expect kind problem).bind fun _ => .pure

theorem closeParenthesis : Proceeds Parse.closeParenthesis := expectPlace _ _

theorem endStatement (start : Location) : Proceeds (Parse.endStatement start) :=
  (spanFrom start).bind fun _ => atStatementEnd.bind fun _ =>
    .ite .pure ((reportUnexpected _).bind fun _ => (resync _).bind fun _ => .pure)

end Proceeds

namespace Writ

variable {α β : Type} {o t : ParseState} {ns : List Node} {ls : List Punctuation} {node : α → Node}
  {build : Span → α}

/-- A node where something is missing. -/
theorem missing (so : Writ o t ns ls) (node : Location → Node)
    (bare : ((node t.current.span.start).span, (node t.current.span.start).children,
      (node t.current.span.start).punctuation, (node t.current.span.start).closing?)
        = (.point t.current.span.start, [], [], none)) :
    Ensures Parse.placeholder t fun place u => Writ o u (ns ++ [node place]) ls := by
  obtain ⟨span, bare⟩ := Prod.mk.inj bare
  have lies : (node t.current.span.start).span.Lies t.here t.here :=
    span ▸ ⟨Nat.le_refl _, Nat.le_refl _, Nat.le_refl _⟩
  exact so.leaf so.sane.mark lies bare

/-- A rule that ends by giving its node the span since a place that it has passed. -/
theorem finishFrom {start : Location} (so : Writ o t ns ls) (lower : o.here ≤ start.index)
    (reached : start.index ≤ t.here) (children : (node (build (t.spanSince start))).children = ns)
    (own : ((node (build (t.spanSince start))).span, (node (build (t.spanSince start))).punctuation,
      (node (build (t.spanSince start))).closing?) = (t.spanSince start, ls, none)) :
    Ensures (Parse.spanFrom start >>= fun span => pure (build span)) t fun a u =>
      Writ o u [node a] [] := by
  obtain ⟨span, own⟩ := Prod.mk.inj own
  exact so.node (fun _ => span ▸ so.sane.spanSince lower reached) children own

/-- A rule that ends by giving its node the span of all that it has read. -/
theorem finish (so : Writ o t ns ls)
    (children : (node (build (t.spanSince o.current.span.start))).children = ns)
    (own : ((node (build (t.spanSince o.current.span.start))).span,
      (node (build (t.spanSince o.current.span.start))).punctuation,
      (node (build (t.spanSince o.current.span.start))).closing?)
        = (t.spanSince o.current.span.start, ls, none)) :
    Ensures (Parse.spanFrom o.current.span.start >>= fun span => pure (build span)) t fun a u =>
      Writ o u [node a] [] :=
  so.finishFrom (Nat.le_refl _) so.onward.here children own

/-- Like `finishFrom`, from the start of the first part. -/
theorem finishBehind {first : Node} {rest : List Node} {start : Location} (so : Writ o t ns ls)
    (parts : ns = first :: rest) (phrase : first.isPhrase = true) (begins : first.span.start = start)
    (children : (node (build (t.spanSince start))).children = ns)
    (own : ((node (build (t.spanSince start))).span, (node (build (t.spanSince start))).punctuation,
      (node (build (t.spanSince start))).closing?) = (t.spanSince start, ls, none)) :
    Ensures (Parse.spanFrom start >>= fun span => pure (build span)) t fun a u =>
      Writ o u [node a] [] := by
  have lies := so.spans first (parts ▸ List.mem_cons_self) phrase
  rw [← begins] at *
  exact so.finishFrom lies.start (Nat.le_trans lies.order lies.finish) children own

/-- A rule that ends by giving a span to an item. -/
theorem finishItem {start : Location} (so : Writ o t ns ls)
    (isItem : (node (build (t.spanSince start))).isPhrase = false)
    (children : (node (build (t.spanSince start))).children = ns)
    (own : ((node (build (t.spanSince start))).punctuation,
      (node (build (t.spanSince start))).closing?) = (ls, none)) :
    Ensures (Parse.spanFrom start >>= fun span => pure (build span)) t fun a u =>
      Writ o u [node a] [] :=
  so.item isItem children own

theorem endStatement (so : Writ o t ns ls) (start : Location) :
    Ensures (Parse.endStatement start) t fun span u =>
      span = t.spanSince start ∧ Writ o u ns ls := by
  refine .spanFrom (.atStatementEnd ?_)
  split
  · exact .pure ⟨rfl, so⟩
  · refine (so.pass (.reportUnexpected _)).bind fun _ u so => ?_
    exact (so.pass (.resync [])).bind fun _ _ so => .pure ⟨rfl, so⟩

/-- A rule that ends by giving an item the span of a statement. -/
theorem finishStatement {start : Location} (so : Writ o t ns ls)
    (isItem : (node (build (t.spanSince start))).isPhrase = false)
    (children : (node (build (t.spanSince start))).children = ns)
    (own : ((node (build (t.spanSince start))).punctuation,
      (node (build (t.spanSince start))).closing?) = (ls, none)) :
    Ensures (Parse.endStatement start >>= fun span => pure (build span)) t fun a u =>
      Writ o u [node a] [] := by
  have item : Writ o t [node (build (t.spanSince start))] [] := so.item isItem children own
  refine (item.endStatement start).bind fun span u facts => ?_
  obtain ⟨same, so⟩ := facts
  subst same
  exact so

end Writ

end VisualBasic
