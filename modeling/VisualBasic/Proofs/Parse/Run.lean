import Mathlib.Logic.Relation
import VisualBasic.Parse.State
import VisualBasic.Proofs.Syntax.Rules

/-!
What a parser does to its state.  Whatever rule is running, it moves by a few kinds of steps; what
holds of each of them holds of every run.
-/

set_option autoImplicit false

namespace VisualBasic

theorem Location.index_later (a b : Location) : (a.later b).index = max a.index b.index := by
  unfold later
  split
  next before =>
    have : b.index < a.index := before
    omega
  next notBefore =>
    have : ¬ b.index < a.index := notBefore
    omega

theorem Location.index_earlier (a b : Location) :
    (a.earlier b).index = min a.index b.index := by
  unfold earlier
  split
  next before =>
    have : b.index < a.index := before
    omega
  next notBefore =>
    have : ¬ b.index < a.index := notBefore
    omega

theorem Span.index_start_merge (a b : Span) :
    (a.merge b).start.index = min a.start.index b.start.index :=
  Location.index_earlier _ _

theorem Span.index_finish_merge (a b : Span) :
    (a.merge b).finish.index = max a.finish.index b.finish.index :=
  Location.index_later _ _

/-- The span does not run backwards. -/
abbrev Span.Forward (s : Span) : Prop := s.start.index ≤ s.finish.index

theorem Span.Forward.merge {a : Span} (forward : a.Forward) (b : Span) : (a.merge b).Forward := by
  unfold Forward
  rw [index_start_merge, index_finish_merge]
  exact Nat.le_trans (Nat.min_le_left _ _) (Nat.le_trans forward (Nat.le_max_left _ _))

/-- Where the directives that are still open stand. -/
def OpenDirectives.spans (d : OpenDirectives) : List Span :=
  d.conditionals.map OpenConditional.directive ++ d.regions.map OpenRegion.directive ++
    (d.mapping.map OpenMapping.directive).toList

/-- The spans that directives give. -/
def DirectiveTables.spans (t : DirectiveTables) : List Span :=
  t.regions.map Region.span ++ t.lineMappings.map LineMapping.span ++
    t.checksums.map Checksum.span

/-- The name that a token spells is not empty. -/
def Token.IsNamed (t : Token) : Prop := ∀ name, t.name? = some name → name.text ≠ ""

/-- Tokens as a scanner gives them: in order, none of them empty, and the end of the stream last. -/
inductive Stream : List Token → Prop where
  | last {t : Token} : t.kind = .endOfStream → t.span.start.index = t.span.finish.index →
      Stream [t]
  | cons {t u : Token} {rest : List Token} : t.kind ≠ .endOfStream →
      t.span.start.index < t.span.finish.index → t.span.finish.index ≤ u.span.start.index →
      t.IsNamed → Stream (u :: rest) → Stream (t :: u :: rest)

namespace Stream

variable {t : Token} {rest : List Token}

theorem kind_eq_endOfStream (stream : Stream [t]) : t.kind = .endOfStream := by
  cases stream
  assumption

theorem order (stream : Stream (t :: rest)) : t.span.Forward := by
  cases stream <;> omega

theorem isNamed (stream : Stream (t :: rest)) : t.IsNamed := by
  cases stream with
  | last ends =>
    intro name spells
    unfold Token.name? at spells
    simp only [Token.kind, Lexeme.kind] at ends
    split at spells <;> simp_all
  | cons _ _ _ named => exact named

end Stream

namespace ParseState

/-- The index of the current token. -/
def here (s : ParseState) : Nat := s.current.span.start.index

/-- Where what has been read or found missing ends. -/
def limit (s : ParseState) : Nat :=
  max ((s.previous.map fun t => t.span.finish.index).getD 0) s.placeholder.index

/-- The variables of a `Next` that is left over: they have been read, and if the next loop starts
at the current token they stand before it. -/
structure Holds (s : ParseState) (p : PendingNext) (e : Expression) : Prop where
  start : p.statement.span.start.index ≤ e.span.start.index
  finish : e.span.finish.index ≤ s.limit
  before : s.kind = .word .kwFor → e.span.start.index < s.here
  nests : (Node.expression e).Everywhere Node.Nests
  inOrder : (Node.expression e).Everywhere Node.InOrder
  proper : s.diagnostics = [] → (Node.expression e).Everywhere Node.IsProper

/-- A state that a parser can be in. -/
structure Wf (s : ParseState) : Prop where
  stream : Stream s.ahead
  behind : s.limit ≤ s.here
  reported : s.suppressed = true → s.diagnostics ≠ []
  pending : ∀ p, s.pendingNext = some p → ∀ e ∈ p.statement.loopVariables.items, s.Holds p e
  -- the first variable of a `Next` is taken at once
  rest : ∀ p, s.pendingNext = some p →
    0 < p.index ∧ p.index < p.statement.loopVariables.items.length

/-- None of the spans that a parser keeps runs backwards, and the directives that are still open
have been read. -/
structure Ordered (s : ParseState) : Prop where
  diagnostics : ∀ d ∈ s.diagnostics, d.span.Forward
  blocks : ∀ b ∈ s.blocks, b.header.Forward
  directives : ∀ span ∈ s.directives.spans, span.Forward ∧ span.finish.index ≤ s.limit
  tables : ∀ span ∈ s.tables.spans, span.Forward
  pending : ∀ p, s.pendingNext = some p → p.statement.span.Forward

/-- The steps that a parser takes.  A token that could not be understood is passed only when there
is a diagnostic already.  If the spans that are kept run forward, so does a span that is added. -/
inductive Act : ParseState → ParseState → Prop where
  | advance {s : ParseState} : (s.kind = .lexicalError → s.diagnostics ≠ []) → Act s s.advance
  | report {s : ParseState} (problem : Problem) (span : Span) : (s.Ordered → span.Forward) →
      Act s (s.report problem span)
  | begin {s : ParseState} : Act s { s with suppressed := false }
  | mark {s : ParseState} :
      Act s { s with placeholder := s.placeholder.later s.current.span.start }
  | blocks {s : ParseState} (around : List OpenBlock) :
      (s.Ordered → ∀ b ∈ around, b.header.Forward) → Act s { s with blocks := around }
  | depth {s : ParseState} (n : Nat) : Act s { s with lineIfDepth := n }
  | directives {s : ParseState} (d : OpenDirectives) :
      (s.Ordered → ∀ span ∈ d.spans, span.Forward ∧ span.finish.index ≤ s.limit) →
      Act s { s with directives := d }
  | tables {s : ParseState} (t : DirectiveTables) :
      (s.Ordered → ∀ span ∈ t.spans, span.Forward) → Act s { s with tables := t }
  | pending {s : ParseState} (p : Option PendingNext) :
      (∀ q, p = some q → ∀ e ∈ q.statement.loopVariables.items, s.Holds q e) →
      (∀ q, p = some q → 0 < q.index ∧ q.index < q.statement.loopVariables.items.length) →
      (s.Ordered → ∀ q, p = some q → q.statement.span.Forward) →
      Act s { s with pendingNext := p }

/-- Any number of steps. -/
def Runs : ParseState → ParseState → Prop := Relation.ReflTransGen Act

/-- What is true of any earlier and later state of a run. -/
structure Later (s t : ParseState) : Prop where
  here : s.here ≤ t.here
  limit : s.limit ≤ t.limit
  remaining : t.remaining ≤ s.remaining
  clean : t.diagnostics = [] → s.diagnostics = []
  -- without a diagnostic, tokens that could not be understood are still ahead
  lexical : t.diagnostics = [] → ∀ k ∈ s.ahead, k.kind = .lexicalError → k ∈ t.ahead
  still : t.remaining = s.remaining → t.ahead = s.ahead
  moved : t.remaining < s.remaining → s.here < t.limit

namespace Later

variable {s t u : ParseState}

theorem trans (first : Later s t) (second : Later t u) : Later s u where
  here := Nat.le_trans first.here second.here
  limit := Nat.le_trans first.limit second.limit
  remaining := Nat.le_trans second.remaining first.remaining
  clean none := first.clean (second.clean none)
  lexical none k member fault :=
    second.lexical none k (first.lexical (second.clean none) k member fault) fault
  still same := by
    have := first.remaining
    have := second.remaining
    rw [second.still (by omega), first.still (by omega)]
  moved fewer := by
    have := first.remaining
    have := second.remaining
    have := first.here
    have := second.limit
    by_cases early : t.remaining < s.remaining
    · have := first.moved early
      omega
    · have := second.moved (by omega)
      omega

/-- A step that leaves the tokens where they are. -/
theorem standing (ahead : t.ahead = s.ahead) (limit : s.limit ≤ t.limit)
    (clean : t.diagnostics = [] → s.diagnostics = []) : Later s t := by
  obtain ⟨current, following⟩ := List.cons.inj ahead
  have tokens : t.remaining = s.remaining := by
    rw [ParseState.remaining, ParseState.remaining, following]
  refine ⟨?_, limit, Nat.le_of_eq tokens, clean, fun _ k member _ => ahead ▸ member,
    fun _ => ahead, fun fewer => by omega⟩
  exact Nat.le_of_eq (by rw [ParseState.here, ParseState.here, current])

end Later

variable {s t : ParseState}

theorem remaining_eq_zero_iff (wf : s.Wf) : s.remaining = 0 ↔ s.kind = .endOfStream := by
  have stream := wf.stream
  unfold ahead at stream
  rw [remaining, List.length_eq_zero_iff, kind]
  constructor
  · intro none
    rw [none] at stream
    exact stream.kind_eq_endOfStream
  · intro ends
    cases follows : s.following with
    | nil => rfl
    | cons t rest =>
      rw [follows] at stream
      cases stream
      contradiction

theorem advance_of_cons {k : Token} {rest : List Token} (follows : s.following = k :: rest) :
    s.advance =
      noteComments { s with previous := some s.current, current := k, following := rest } := by
  simp [advance, follows]

theorem advance_of_nil (none : s.following = []) : s.advance = s := by
  simp [advance, none]

theorem atLineStart_advance {t : Token} {rest : List Token} (follows : s.following = t :: rest) :
    s.advance.atLineStart = (s.kind == .lineTerminator) := by
  rw [advance_of_cons follows]
  rfl

theorem ahead_advance {t : Token} {rest : List Token} (follows : s.following = t :: rest) :
    s.advance.ahead = s.following := by
  rw [advance_of_cons follows, follows]
  rfl

/-- Advancing changes nothing but the place among the tokens. -/
theorem advance_frame (s : ParseState) :
    s.advance.diagnostics = s.diagnostics ∧ s.advance.blocks = s.blocks ∧
      s.advance.lineIfDepth = s.lineIfDepth ∧ s.advance.pendingNext = s.pendingNext := by
  unfold advance
  split <;> simp [noteComments]

theorem diagnostics_advance (s : ParseState) : s.advance.diagnostics = s.diagnostics :=
  s.advance_frame.1

theorem suppressed_advance (s : ParseState) : s.advance.suppressed = s.suppressed := by
  unfold advance
  split <;> rfl

/-- At any other token than the end of the stream, a parser moves on to the next token. -/
theorem exists_following (wf : s.Wf) (goesOn : s.kind ≠ .endOfStream) :
    ∃ t rest, s.following = t :: rest ∧ s.here < s.current.span.finish.index ∧
      s.current.span.finish.index ≤ t.span.start.index ∧ Stream (t :: rest) := by
  have stream := wf.stream
  unfold ahead at stream
  cases follows : s.following with
  | nil =>
    rw [follows] at stream
    exact absurd stream.kind_eq_endOfStream goesOn
  | cons t rest =>
    rw [follows] at stream
    cases stream with
    | cons _ wide ordered _ rest => exact ⟨t, _, rfl, wide, ordered, rest⟩

theorem limit_advance (wf : s.Wf) (goesOn : s.kind ≠ .endOfStream) :
    s.here < s.advance.limit ∧ s.advance.limit ≤ s.advance.here ∧
      s.advance.remaining < s.remaining := by
  obtain ⟨t, rest, follows, wide, ordered, -⟩ := exists_following wf goesOn
  have behind := wf.behind
  simp only [advance, noteComments, follows, limit, here, remaining, Option.map_some, Option.getD_some,
    List.length_cons] at *
  omega

theorem report_of_suppressed (suppressed : s.suppressed = true) (problem : Problem) (span : Span) :
    s.report problem span = s := by
  simp [report, suppressed]

theorem report_of_not_suppressed (first : s.suppressed = false) (problem : Problem) (span : Span) :
    s.report problem span =
      { s with diagnostics := s.diagnostics ++ [⟨problem, span⟩], suppressed := true } := by
  simp [report, first]

theorem diagnostics_report (wf : s.Wf) (problem : Problem) (span : Span) :
    (s.report problem span).diagnostics ≠ [] := by
  cases suppressed : s.suppressed with
  | true => rw [report_of_suppressed suppressed]; exact wf.reported suppressed
  | false => simp [report_of_not_suppressed suppressed]

theorem ahead_report (s : ParseState) (problem : Problem) (span : Span) :
    (s.report problem span).ahead = s.ahead := by
  unfold report
  split <;> rfl

theorem Act.later (wf : s.Wf) (act : Act s t) : Later s t := by
  cases act with
  | advance guarded =>
    by_cases ends : s.kind = .endOfStream
    · rw [advance_of_nil (List.length_eq_zero_iff.1 ((remaining_eq_zero_iff wf).2 ends))]
      exact .standing rfl (Nat.le_refl _) id
    · obtain ⟨reached, inside, fewer⟩ := limit_advance wf ends
      obtain ⟨k, rest, follows, -⟩ := exists_following wf ends
      have behind := wf.behind
      rw [advance_of_cons follows] at *
      refine ⟨by omega, by omega, by omega, id, ?_, by omega, by omega⟩
      intro none fault member lexical
      rcases List.mem_cons.1 member with rfl | later
      · exact absurd none (guarded lexical)
      · rwa [follows] at later
  | report problem span =>
    cases suppressed : s.suppressed with
    | true =>
      rw [report_of_suppressed suppressed]
      exact .standing rfl (Nat.le_refl _) id
    | false =>
      rw [report_of_not_suppressed suppressed]
      exact .standing rfl (Nat.le_refl _) (by simp)
  | mark =>
    refine .standing rfl ?_ id
    simp only [limit, Location.index_later]
    omega
  | begin | blocks | depth | directives | tables | pending =>
    exact .standing rfl (Nat.le_refl _) id

/-- No step goes back. -/
theorem Act.suffix (act : Act s t) : t.ahead <:+ s.ahead := by
  cases act with
  | advance =>
    unfold ParseState.advance
    split
    next => exact List.suffix_refl _
    next k rest follows =>
      show k :: rest <:+ s.current :: s.following
      rw [follows]
      exact List.suffix_cons _ _
  | report problem span =>
    exact (ahead_report s problem span).symm ▸ List.suffix_refl _
  | begin | mark | blocks | depth | directives | tables | pending => exact List.suffix_refl _

/-- What is left over of a `Next` stays valid when the parser moves on. -/
theorem Holds.later {p : PendingNext} {e : Expression} (holds : s.Holds p e) (later : Later s t)
    (before : t.kind = .word .kwFor → e.span.start.index < t.here) : t.Holds p e where
  start := holds.start
  finish := Nat.le_trans holds.finish later.limit
  before := before
  nests := holds.nests
  inOrder := holds.inOrder
  proper none := holds.proper (later.clean none)

theorem Act.wf (wf : s.Wf) (act : Act s t) : t.Wf := by
  have later := act.later wf
  -- steps that stand still keep the variables of a pending `Next` where they are
  have standing (same : t.current = s.current) (pending : t.pendingNext = s.pendingNext) (p : PendingNext)
      (left : t.pendingNext = some p) (e : Expression) (member : e ∈ p.statement.loopVariables.items) :
      t.Holds p e := by
    have holds := wf.pending p (pending ▸ left) e member
    refine holds.later later fun loop => ?_
    rw [kind, same] at loop
    rw [here, same]
    exact holds.before loop
  cases act with
  | advance guarded =>
    by_cases ends : s.kind = .endOfStream
    · rwa [advance_of_nil (List.length_eq_zero_iff.1 ((remaining_eq_zero_iff wf).2 ends))]
    · obtain ⟨reached, inside, -⟩ := limit_advance wf ends
      obtain ⟨k, rest, follows, -, -, stream⟩ := exists_following wf ends
      refine ⟨?_, inside, ?_, fun p left e member => ?_, ?_⟩
      · rwa [advance_of_cons follows]
      · rw [advance_of_cons follows]
        exact wf.reported
      · have holds := wf.pending p (by rwa [advance_of_cons follows] at left) e member
        refine holds.later later fun _ => ?_
        have order := (Node.everywhere_iff.1 holds.nests).1.order
        have := holds.finish
        have := wf.behind
        simp only [Node.span] at order
        omega
      · rw [advance_of_cons follows]
        exact wf.rest
  | report problem span =>
    cases suppressed : s.suppressed with
    | true => rwa [report_of_suppressed suppressed]
    | false =>
      rw [report_of_not_suppressed suppressed] at standing ⊢
      exact ⟨wf.stream, wf.behind, by simp, standing rfl rfl, wf.rest⟩
  | mark =>
    refine ⟨wf.stream, ?_, wf.reported, standing rfl rfl, wf.rest⟩
    have := wf.behind
    simp only [limit, here, Location.index_later] at *
    omega
  | begin => exact ⟨wf.stream, wf.behind, by simp, standing rfl rfl, wf.rest⟩
  | blocks | depth | directives | tables =>
    exact ⟨wf.stream, wf.behind, wf.reported, standing rfl rfl, wf.rest⟩
  | pending p valid rest =>
    refine ⟨wf.stream, wf.behind, wf.reported, fun q left e member => ?_, rest⟩
    have holds := valid q left e member
    exact holds.later later holds.before

/-- Every span that is kept runs forward. -/
theorem Act.ordered (wf : s.Wf) (act : Act s t) (ordered : s.Ordered) : t.Ordered := by
  have later := act.later wf
  cases act with
  | advance =>
    by_cases ends : s.kind = .endOfStream
    · rwa [advance_of_nil (List.length_eq_zero_iff.1 ((remaining_eq_zero_iff wf).2 ends))]
    · obtain ⟨k, rest, follows, -⟩ := exists_following wf ends
      have limit := later.limit
      rw [advance_of_cons follows] at limit ⊢
      exact { ordered with
        directives := fun span member =>
          (ordered.directives span member).imp_right fun read => Nat.le_trans read limit }
  | report problem span forward =>
    cases suppressed : s.suppressed with
    | true => rwa [report_of_suppressed suppressed]
    | false =>
      rw [report_of_not_suppressed suppressed]
      refine { ordered with diagnostics := fun d member => ?_ }
      rcases List.mem_append.1 member with early | last
      · exact ordered.diagnostics d early
      · obtain rfl := List.mem_singleton.1 last
        exact forward ordered
  | mark =>
    exact { ordered with
      directives := fun span member =>
        (ordered.directives span member).imp_right fun read => Nat.le_trans read later.limit }
  | begin | depth => exact { ordered with }
  | blocks around forward => exact { ordered with blocks := forward ordered }
  | directives d forward => exact { ordered with directives := forward ordered }
  | tables t forward => exact { ordered with tables := forward ordered }
  | pending p _ _ forward => exact { ordered with pending := forward ordered }

namespace Runs

theorem refl (s : ParseState) : Runs s s := Relation.ReflTransGen.refl

theorem trans {u : ParseState} (first : Runs s t) (second : Runs t u) : Runs s u :=
  Relation.ReflTransGen.trans first second

theorem act (step : Act s t) : Runs s t := Relation.ReflTransGen.single step

theorem wf (runs : Runs s t) (wf : s.Wf) : t.Wf := by
  induction runs with
  | refl => exact wf
  | tail _ step ih => exact step.wf ih

theorem later (runs : Runs s t) (wf : s.Wf) : Later s t := by
  induction runs with
  | refl => exact .standing rfl (Nat.le_refl _) id
  | tail before step ih => exact ih.trans (step.later (Runs.wf before wf))

theorem ordered (runs : Runs s t) (wf : s.Wf) (ordered : s.Ordered) : t.Ordered := by
  induction runs with
  | refl => exact ordered
  | tail before step ih => exact step.ordered (Runs.wf before wf) ih

theorem suffix (runs : Runs s t) : t.ahead <:+ s.ahead := by
  induction runs with
  | refl => exact List.suffix_refl _
  | tail _ step ih => exact step.suffix.trans ih

end Runs

end ParseState

end VisualBasic
