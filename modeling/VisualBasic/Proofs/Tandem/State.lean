import VisualBasic.Proofs.Tandem.Seam

/-!
Parsers at the same place of two texts.  They see the same tokens ahead and have the same open ends
behind them, so what a rule asks about its state has one answer.
-/

set_option autoImplicit false

namespace VisualBasic

/-- What has been read last.  A text that has only begun may have a line before it in the second
text. -/
def Seam.Behind (c : Seam) (x y : Option Token) : Prop :=
  (x = none ∧ y = none) ∨
    (∃ t u, x = some t ∧ y = some u ∧ u.kind = t.kind ∧ u.span.finish = c.carry t.span.finish) ∨
    x = none ∧ ∃ u, y = some u ∧ u.kind = .lineTerminator ∧
      u.span.finish.index ≤ (c.carry .origin).index

/-- Where something was missing last.  What is missing from a directive, or was missing before the
first text began, lies behind both parsers. -/
def Seam.Marked (c : Seam) (X Y : ParseState) : Prop :=
  Y.placeholder = c.carry X.placeholder ∨
    (X.placeholder.index = 0 ∧ Y.placeholder.index < (c.carry .origin).index) ∨
    c.drops ∧ ∃ t, X.previous = some t ∧ X.placeholder.index < t.span.finish.index ∧
      Y.placeholder.index < t.span.finish.index

/-- Both parsers have come as far, wherever they look next.  Only texts that end together have the
same diagnostics; those about directives are missing from the second text, as is what they record. -/
structure Kin (c : Seam) (X Y : ParseState) : Prop where
  stream : Stream X.ahead
  limit : X.limit ≤ X.here
  behind : c.Behind X.previous Y.previous
  marked : c.Marked X Y
  blocks : Y.blocks = relocate c.carry X.blocks
  depth : Y.lineIfDepth = X.lineIfDepth
  pending : c.loops → Y.pendingNext = relocate c.carry X.pendingNext
  settled : c.settles → X.pendingNext = none
  directives : ¬ c.drops → Y.directives = relocate c.carry X.directives
  noDirectives : c.drops → Y.directives = .none
  tables : ¬ c.drops → Y.tables = c.recorded.append (relocate c.carry X.tables)
  notes : c.fresh → ¬ c.IsCut → ¬ c.drops → Y.comments = relocate c.carry X.comments ∧
    Y.commentsAhead = relocate c.carry X.commentsAhead
  count : ¬ c.drops → Y.diagnostics.length = c.found.length + X.diagnostics.length
  reports : ¬ c.IsCut → ∃ ds, Y.diagnostics = c.found ++ ds ∧
    ds.Sublist (relocate c.carry X.diagnostics)

/-- Both parsers are at the same place, and not before a directive of the first text only. -/
structure Twin (c : Seam) (X Y : ParseState) : Prop extends Kin c X Y where
  ahead : c.Ahead false X.ahead Y.ahead
  clear : c.drops → X.atLineStart = true → X.kind ≠ .mark .pound

/-- Both parsers are at the same place, perhaps where a line starts. -/
structure Arrived (c : Seam) (X Y : ParseState) : Prop extends Kin c X Y where
  ahead : c.Ahead X.atLineStart X.ahead Y.ahead

theorem Location.later_eq_right {a b : Location} (order : a.index ≤ b.index) : a.later b = b :=
  if_neg (Nat.not_lt.2 order)

theorem Token.isContextual_eq_false {t : Token} {k : Keyword} (ends : t.kind.endsLine = true) :
    t.isContextual k = false := by
  have other : (t.kind == .identifier) = false := by
    rw [beq_eq_false_iff_ne]
    intro named
    rw [named] at ends
    cases ends
  rw [isContextual, other]
  rfl

namespace ParseState

variable {s : ParseState}

theorem remaining_advance_lt {t : Token} {rest : List Token} (follows : s.following = t :: rest) :
    s.advance.remaining < s.remaining := by
  rw [advance_of_cons follows, remaining, remaining, follows]
  exact Nat.lt_succ_self _

/-- The mark counts from the start on. -/
theorem le_mark (s : ParseState) (start : Location) :
    start.index ≤ (if s.placeholder < start then start else s.placeholder).index := by
  split
  next => exact Nat.le_refl _
  next notBefore => exact Nat.not_lt.1 notBefore

/-- What is missing before the last token does not matter. -/
theorem finishSince_of_passed {t : Token} {l : Location} (s : ParseState)
    (read : s.previous = some t) (early : s.placeholder.index < t.span.finish.index) :
    s.finishSince l = if l < t.span.finish then t.span.finish else l := by
  have lt_iff (a b : Location) : a < b ↔ a.index < b.index := Iff.rfl
  unfold finishSince Location.later
  simp only [read, Option.map_some, Option.getD_some, lt_iff]
  grind

end ParseState

/-- The comments before a token are the same in both texts. -/
theorem ParseState.noteComments_relocate {c : Seam} {X Y : ParseState}
    (noted : Y.comments = relocate c.carry X.comments ∧
      Y.commentsAhead = relocate c.carry X.commentsAhead)
    (start : Y.current.span.start = c.carry X.current.span.start) :
    Y.noteComments.comments = relocate c.carry X.noteComments.comments ∧
      Y.noteComments.commentsAhead = relocate c.carry X.noteComments.commentsAhead := by
  have passed : (fun n : Comment => decide (n.span.start < Y.current.span.start)) ∘
      relocate c.carry = fun n : Comment => decide (n.span.start < X.current.span.start) := by
    funext n
    rw [start]
    exact decide_eq_decide.2 Seam.lt_carry
  simp only [noteComments, noted]
  constructor
  · rw [relocate_append]
    refine congrArg (relocate c.carry X.comments ++ ·) ?_
    show List.takeWhile _ (List.map _ _) = List.map _ _
    rw [List.takeWhile_map, passed]
  · show List.dropWhile _ (List.map _ _) = List.map _ _
    rw [List.dropWhile_map, passed]

namespace Kin

open Seam

variable {c : Seam} {X Y : ParseState}

theorem atLineStart (kin : Kin c X Y) : Y.atLineStart = X.atLineStart := by
  unfold ParseState.atLineStart
  rcases kin.behind with ⟨none, none'⟩ | ⟨t, u, read, read', kind, -⟩ | ⟨none, u, read, breaks, -⟩
  · rw [none, none']
  · simp [read, read', kind]
  · simp [none, read, breaks]

/-- Both parsers agree on what was missing last, or it lies behind the last token in both. -/
theorem mark_cases (kin : Kin c X Y) (l : Location) :
    (if Y.placeholder < c.carry l then c.carry l else Y.placeholder) =
        c.carry (if X.placeholder < l then l else X.placeholder) ∨
      c.drops ∧ ∃ t u, X.previous = some t ∧ Y.previous = some u ∧ u.span.finish = t.span.finish ∧
        X.placeholder.index < t.span.finish.index ∧
        Y.placeholder.index < t.span.finish.index := by
  rcases kin.marked with same | ⟨initial, before⟩ | ⟨drops, t, read, early, early'⟩
  · left
    rw [apply_ite c.carry, same]
    exact if_congr lt_carry rfl rfl
  · left
    have after : Y.placeholder < c.carry l :=
      Nat.lt_of_lt_of_le before (Nat.not_lt.1 (not_before_origin l))
    rw [apply_ite c.carry, if_pos after]
    split
    next => rfl
    next atStart =>
      have zero : l.index = 0 := by
        have : ¬ X.placeholder.index < l.index := atStart
        omega
      have moved := Nat.zero_lt_of_lt before
      rw [c.anchored moved _ initial, c.anchored moved _ zero]
  · right
    rcases kin.behind with ⟨none, -⟩ | ⟨t', u, read', read'', -, finish⟩ | ⟨none, -⟩
    · rw [read] at none
      cases none
    · obtain rfl : t = t' := Option.some.inj (read.symm.trans read')
      rw [c.inPlace drops] at finish
      exact ⟨drops, t, u, read, read'', finish, early, early'⟩
    · rw [read] at none
      cases none

theorem outerAccepts (kin : Kin c X Y) (t : Terminator) : Y.outerAccepts t = X.outerAccepts t := by
  unfold ParseState.outerAccepts
  rw [kin.blocks]
  show (List.map _ X.blocks).tail.any _ = _
  rw [← List.map_tail, List.any_map]
  rfl

theorem any_blocks (kin : Kin c X Y) {test : OpenBlock → Bool}
    (same : ∀ b, test (relocate c.carry b) = test b) : Y.blocks.any test = X.blocks.any test := by
  rw [kin.blocks]
  exact any_relocate _ _ same

theorem inProcedure (kin : Kin c X Y) : Y.inProcedure = X.inProcedure :=
  kin.any_blocks fun _ => rfl

theorem finishSince (kin : Kin c X Y) (l : Location) :
    Y.finishSince (c.carry l) = c.carry (X.finishSince l) := by
  rcases kin.mark_cases l with mark | ⟨drops, t, u, read, read', same, early, early'⟩
  · unfold ParseState.finishSince
    dsimp only
    rcases kin.behind with
      ⟨none, none'⟩ | ⟨t, u, read, read', -, finish⟩ | ⟨none, u, read, -, upTo⟩
    · rw [none, none', mark]
      simp only [Option.map_none, Option.getD_none]
      rw [later_carry, later_carry]
    · rw [read, read', mark]
      simp only [Option.map_some, Option.getD_some]
      rw [finish, later_carry, later_carry]
    · have early : u.span.finish.index ≤ (c.carry l).index :=
        Nat.le_trans upTo (Nat.not_lt.1 (not_before_origin l))
      have here := X.le_mark l
      have there := Y.le_mark (c.carry l)
      simp only [none, read, Option.map_none, Option.getD_none, Option.map_some, Option.getD_some]
      rw [Location.later_eq_right (Nat.le_refl l.index), Location.later_eq_right here, ← mark]
      refine Location.later_eq_right ?_
      rw [Location.index_later]
      omega
  · rw [X.finishSince_of_passed read early, Y.finishSince_of_passed read' (same ▸ early'), same,
      c.inPlace drops]
    rfl

theorem spanSince (kin : Kin c X Y) (l : Location) :
    Y.spanSince (c.carry l) = relocate c.carry (X.spanSince l) :=
  congrArg (Span.mk (c.carry l)) (kin.finishSince l)

-- Steps that both parsers take

theorem enter (kin : Kin c X Y) (block : OpenBlock) :
    Kin c { X with blocks := block :: X.blocks }
      { Y with blocks := relocate c.carry block :: Y.blocks } :=
  { kin with blocks := congrArg (relocate c.carry block :: ·) kin.blocks }

theorem leave (kin : Kin c X Y) :
    Kin c { X with blocks := X.blocks.tail } { Y with blocks := Y.blocks.tail } := by
  refine { kin with blocks := ?_ }
  show Y.blocks.tail = relocate c.carry X.blocks.tail
  rw [kin.blocks]
  exact List.map_tail.symm

theorem mark (kin : Kin c X Y) (start : Y.current.span.start = c.carry X.current.span.start) :
    Kin c { X with placeholder := X.placeholder.later X.current.span.start }
      { Y with placeholder := Y.placeholder.later Y.current.span.start } := by
  have limit := kin.limit
  refine { kin with limit := ?_, marked := .inl ?_ }
  · simp only [ParseState.limit, ParseState.here, Location.index_later] at limit ⊢
    omega
  · show Y.placeholder.later Y.current.span.start =
      c.carry (X.placeholder.later X.current.span.start)
    rw [start]
    rcases kin.marked with same | ⟨initial, before⟩ | ⟨drops, t, read, early, early'⟩
    · rw [same, later_carry]
    · have late := Nat.not_lt.1 (not_before_origin (c := c) X.current.span.start)
      rw [Location.later_eq_right (by omega), Location.later_eq_right (by omega)]
    · have late : t.span.finish.index ≤ X.current.span.start.index := by
        simp only [ParseState.limit, ParseState.here, read, Option.map_some, Option.getD_some]
          at limit
        omega
      rw [c.inPlace drops]
      show Y.placeholder.later X.current.span.start = X.placeholder.later X.current.span.start
      rw [Location.later_eq_right (by omega), Location.later_eq_right (by omega)]

end Kin

namespace Arrived

variable {c : Seam} {X Y : ParseState}

theorem twin (arrived : Arrived c X Y)
    (clear : c.drops → X.atLineStart = true → X.kind ≠ .mark .pound) : Twin c X Y where
  toKin := arrived.toKin
  ahead := by
    refine arrived.ahead.within fun t first fresh drops => ?_
    obtain rfl : X.current = t := Option.some.inj first
    exact clear drops fresh
  clear := clear

end Arrived

namespace Twin

open Seam

variable {c : Seam} {X Y : ParseState}

theorem arrived (twin : Twin c X Y) : Arrived c X Y where
  toKin := twin.toKin
  ahead := by
    have ahead := twin.ahead
    unfold ParseState.ahead at ahead ⊢
    generalize fresh : X.atLineStart = isFresh
    rcases ahead.cons_cases with ⟨here, none, there, rest⟩ | ⟨goesOn, plain, same, behind⟩
    · rw [here, none, there, rest]
      exact .last
    · rw [same]
      exact .cons goesOn plain (fun drops starts => twin.clear drops (fresh.trans starts)) behind

-- What both parsers see

/-- Both parsers stand before the same token, or where the first text ends. -/
theorem cases (twin : Twin c X Y) :
    (X.current = c.last ∧ X.following = [] ∧ Y.current = c.first ∧ Y.following = c.rest) ∨
      X.kind ≠ .endOfStream ∧ Y.current = relocate c.carry X.current ∧
        c.Ahead (X.kind == .lineTerminator) X.following Y.following :=
  twin.ahead.cons_cases.imp_right fun facts => ⟨facts.1, facts.2.2⟩

/-- A line ends at no comment: there are none among the tokens ahead. -/
theorem kind_cases (twin : Twin c X Y) :
    X.kind.endsLine = false ∨ X.kind = .endOfStream ∨ X.kind = .lineTerminator := by
  have plain : X.kind ≠ .comment := by
    rcases twin.ahead.cons_cases with ⟨here, -⟩ | ⟨-, plain, -⟩
    · rw [ParseState.kind, here, c.ends]
      simp
    · exact plain
  cases kind : X.kind <;> simp [kind, TokenKind.endsLine] at plain ⊢

theorem current (twin : Twin c X Y) :
    Y.current = relocate c.carry X.current ∨
      c.IsCut ∧ X.current = c.last ∧ Y.current = c.first := by
  rcases twin.cases with ⟨here, -, there, -⟩ | ⟨-, same, -⟩
  · by_cases cut : c.IsCut
    · exact .inr ⟨cut, here, there⟩
    · exact .inl (by rw [here, there, (whole cut).1])
  · exact .inl same

theorem kind (twin : Twin c X Y) : c.Alike X.kind Y.kind := twin.ahead.kindAt_zero

theorem kind_eq (twin : Twin c X Y) (inside : X.kind.endsLine = false) : Y.kind = X.kind :=
  twin.kind.resolve_right fun ends => by simp [ends.2.1, TokenKind.endsLine] at inside

theorem kind_eq_of_break (twin : Twin c X Y) (breaks : X.kind = .lineTerminator) :
    Y.kind = X.kind :=
  twin.kind.resolve_right fun ends => by simp [breaks] at ends

theorem start (twin : Twin c X Y) : Y.current.span.start = c.carry X.current.span.start := by
  rcases twin.cases with ⟨here, -, there, -⟩ | ⟨-, same, -⟩
  · rw [here, there, c.meets]
  · rw [same]
    rfl

theorem remaining_eq_zero_iff (twin : Twin c X Y) : X.remaining = 0 ↔ X.kind = .endOfStream := by
  unfold ParseState.remaining
  rw [List.length_eq_zero_iff]
  rcases twin.cases with ⟨here, none, -⟩ | ⟨goesOn, -, ahead⟩
  · exact iff_of_true none (by rw [ParseState.kind, here, c.ends])
  · exact iff_of_false ahead.ne_nil goesOn

/-- Where the first text ends, a line ends in both. -/
theorem endsToo (twin : Twin c X Y) (ends : X.kind = .endOfStream) :
    Y.kind = .endOfStream ∨ Y.kind = .lineTerminator := by
  rcases twin.kind with same | ⟨-, -, breaks⟩
  · exact .inl (same.trans ends)
  · exact .inr breaks

/-- Both parsers can move on where the first text does not end. -/
theorem follows (twin : Twin c X Y) (goesOn : X.kind ≠ .endOfStream) :
    ∃ x xs y ys, X.following = x :: xs ∧ Y.following = y :: ys ∧
      Y.current = relocate c.carry X.current ∧
      c.Ahead (X.kind == .lineTerminator) (x :: xs) (y :: ys) := by
  rcases twin.cases with ⟨here, -⟩ | ⟨-, same, ahead⟩
  · exact absurd (by rw [ParseState.kind, here, c.ends]) goesOn
  · obtain ⟨x, xs, follows⟩ := List.exists_cons_of_ne_nil ahead.ne_nil
    obtain ⟨y, ys, follows'⟩ := List.exists_cons_of_ne_nil ahead.ne_nil'
    exact ⟨x, xs, y, ys, follows, follows', same, follows ▸ follows' ▸ ahead⟩

theorem kindAfter (twin : Twin c X Y) (inside : X.kind.endsLine = false) :
    c.Alike X.kindAfter Y.kindAfter := by
  have goesOn : X.kind ≠ .endOfStream := fun ends => by simp [ends, TokenKind.endsLine] at inside
  obtain ⟨x, xs, y, ys, follows, follows', -, ahead⟩ := twin.follows goesOn
  unfold ParseState.kindAfter
  rw [follows, follows']
  exact (ahead.tail (t := X.current) inside).kindAt_zero

/-- A test of the next two tokens. -/
theorem kinds (twin : Twin c X Y) {first second : TokenKind} (solid : first.endsLine = false)
    (after : second.endsLine = false) :
    (Y.kind == first && Y.kindAfter == second) = (X.kind == first && X.kindAfter == second) := by
  rw [twin.kind.beq solid]
  by_cases starts : X.kind = first
  · rw [(twin.kindAfter (starts ▸ solid)).beq after]
  · rw [beq_eq_false_iff_ne.2 starts]
    rfl

theorem isContextual (twin : Twin c X Y) (k : Keyword) :
    Y.current.isContextual k = X.current.isContextual k := by
  rcases twin.current with same | ⟨cut, here, there⟩
  · rw [same]
    rfl
  · rw [here, there, Token.isContextual_eq_false first_endsLine,
      Token.isContextual_eq_false last_endsLine]

theorem atStatementEnd (twin : Twin c X Y) : Y.atStatementEnd = X.atStatementEnd := by
  unfold ParseState.atStatementEnd
  rcases twin.kind_cases with inside | ends | breaks
  · rw [twin.kind_eq inside, twin.depth, (twin.kindAfter inside).beq rfl]
  · rcases twin.endsToo ends with ends' | breaks <;> simp [*]
  · simp [twin.kind_eq_of_break breaks, breaks]

theorem terminator (twin : Twin c X Y) : Y.terminator? = X.terminator? := by
  unfold ParseState.terminator?
  by_cases inside : X.kind.endsLine = false
  · rw [twin.kind_eq inside]
    refine (twin.kindAfter inside).apply _ ?_
    unfold Lookahead.terminator?
    split <;> rfl
  · have none (kind after : TokenKind) (ends : kind.endsLine = true) :
        Lookahead.terminator? kind after = none := by
      cases kind <;> simp [TokenKind.endsLine] at ends <;> rfl
    have here : X.kind.endsLine = true := by simpa using inside
    rw [none _ _ here, none _ _ (twin.kind.endsLine.trans here)]

theorem lineStart (twin : Twin c X Y) : Y.lineStart = X.lineStart := twin.ahead.ofTokens

theorem atTypeArguments (twin : Twin c X Y) : Y.atTypeArguments = X.atTypeArguments :=
  twin.kinds rfl rfl

theorem atArraySize (twin : Twin c X Y) : Y.atArraySize = X.atArraySize := by
  unfold ParseState.atArraySize
  rw [twin.atTypeArguments]
  rcases twin.ahead.kindBehindGroup with same | ⟨here, there⟩
  · rw [same]
  · rw [here, there]

theorem atMidAssignment (twin : Twin c X Y) : Y.atMidAssignment = X.atMidAssignment := by
  unfold ParseState.atMidAssignment
  rw [twin.isContextual]
  by_cases named : X.kind = .identifier
  · have goesOn : X.kind ≠ .endOfStream := by simp [named]
    obtain ⟨x, xs, y, ys, follows, follows', same, ahead⟩ := twin.follows goesOn
    have ahead := ahead.tail (t := X.current) (by rw [show X.current.kind = _ from named]; rfl)
    have behind : (Lookahead.kindBehindGroup? (y :: ys) == some (.mark .equals)) =
        (Lookahead.kindBehindGroup? (x :: xs) == some (.mark .equals)) := by
      rcases ahead.kindBehindGroup with same | ⟨here, there⟩
      · rw [same]
      · rw [here, there]
        rfl
    rw [same, follows, follows', behind]
    rfl
  · have other : X.current.isContextual .kwMid = false := by
      simp [Token.isContextual, show X.current.kind ≠ .identifier from named]
    rw [other]
    rfl

/-- A line starts an accessor in both texts, unless the first text leaves its attributes open. -/
theorem atSiblingAccessor (twin : Twin c X Y)
    (closed : c.IsCut → Lookahead.behindAttributes none X.ahead ≠ (false, [])) :
    Y.atSiblingAccessor = X.atSiblingAccessor := by
  unfold ParseState.atSiblingAccessor
  rw [twin.any_blocks fun _ => rfl]
  congr 1
  rcases (twin.ahead.behindAttributes rfl none).2 with behind | ⟨unclosed, rest⟩
  · rcases Ahead.accessor behind with same | ⟨k, here, there⟩
    · rw [same]
    · rw [here, there]
      by_cases isGet : k = .word .kwGet
      · rw [isGet]
      · split <;> simp_all
  · have uncut : ¬ c.IsCut := fun cut => closed cut unclosed
    unfold Lookahead.accessor?
    rw [rest, unclosed, (whole uncut).2]

-- Moving on

/-- Both parsers move on, perhaps to the next line. -/
theorem step (twin : Twin c X Y) (goesOn : X.kind ≠ .endOfStream) :
    Arrived c X.advance Y.advance ∧ X.advance.remaining < X.remaining ∧
      Y.advance.remaining < Y.remaining := by
  obtain ⟨x, xs, y, ys, follows, follows', same, ahead⟩ := twin.follows goesOn
  have stream := twin.stream
  rw [ParseState.ahead, follows] at stream
  obtain ⟨-, wide, order, -, behind⟩ : X.current.kind ≠ .endOfStream ∧
      X.current.span.start.index < X.current.span.finish.index ∧
      X.current.span.finish.index ≤ x.span.start.index ∧ X.current.IsNamed ∧ Stream (x :: xs) := by
    cases stream with
    | cons goesOn wide order named behind => exact ⟨goesOn, wide, order, named, behind⟩
  refine ⟨?_, ParseState.remaining_advance_lt follows, ParseState.remaining_advance_lt follows'⟩
  have limit := twin.limit
  have fresh := ParseState.atLineStart_advance follows
  rw [ParseState.advance_of_cons follows] at fresh ⊢
  rw [ParseState.advance_of_cons follows']
  refine
    { twin.toKin with
      stream := behind
      limit := ?_
      behind := ?_
      marked := ?_
      notes := fun fresh uncut keeps => ?_
      ahead := ?_ }
  · simp only [ParseState.limit, ParseState.here, ParseState.noteComments, Option.map_some,
      Option.getD_some] at limit ⊢
    omega
  · refine .inr (.inl ⟨X.current, Y.current, rfl, rfl, ?_, ?_⟩)
    · rw [same]
      rfl
    · rw [same]
      rfl
  · rcases twin.marked with same | initial | ⟨drops, t, read, early, early'⟩
    · exact .inl same
    · exact .inr (.inl initial)
    · have later : t.span.finish.index ≤ X.current.span.finish.index := by
        simp only [ParseState.limit, ParseState.here, read, Option.map_some, Option.getD_some]
          at limit
        omega
      exact .inr (.inr ⟨drops, X.current, rfl, Nat.lt_of_lt_of_le early later,
        Nat.lt_of_lt_of_le early' later⟩)
  · exact ParseState.noteComments_relocate (twin.notes fresh uncut keeps) (ahead.start keeps)
  · rw [fresh]
    exact ahead

theorem advance (twin : Twin c X Y) (inside : X.kind.endsLine = false) :
    Twin c X.advance Y.advance ∧ X.advance.remaining < X.remaining ∧
      Y.advance.remaining < Y.remaining := by
  have goesOn : X.kind ≠ .endOfStream := fun ends => by simp [ends, TokenKind.endsLine] at inside
  obtain ⟨x, xs, y, ys, follows, -⟩ := twin.follows goesOn
  have fresh : X.advance.atLineStart = false := by
    rw [ParseState.atLineStart_advance follows, beq_eq_false_iff_ne]
    intro breaks
    simp [breaks, TokenKind.endsLine] at inside
  refine (twin.step goesOn).imp_left fun arrived => arrived.twin fun _ starts => ?_
  rw [fresh] at starts
  cases starts

theorem kind_advance (twin : Twin c X Y) (goesOn : X.kind ≠ .endOfStream) :
    X.advance.kind = X.kindAfter := by
  obtain ⟨x, xs, y, ys, follows, -⟩ := twin.follows goesOn
  rw [ParseState.advance_of_cons follows, ParseState.kindAfter, follows]
  rfl

/-- Both parsers pass the tokens that they test, and stop where a line ends. -/
theorem advanceWhile (test : ParseState → Bool) (same : ∀ X Y, Twin c X Y → test Y = test X)
    (stops : ∀ X : ParseState, X.kind = .endOfStream ∨ X.kind = .lineTerminator → test X = false)
    (twin : Twin c X Y) {n m : Nat} (fuel : X.remaining ≤ n) (fuel' : Y.remaining ≤ m) :
    Twin c (X.advanceWhile test n) (Y.advanceWhile test m) := by
  have halts {s : ParseState} (k : Nat) (ends : test s = false) : s.advanceWhile test k = s := by
    cases k <;> simp [ParseState.advanceWhile, ends]
  induction n generalizing m X Y with
  | zero =>
    have ends := stops X (.inl (twin.remaining_eq_zero_iff.1 (Nat.le_zero.1 fuel)))
    rw [halts m ((same X Y twin).trans ends)]
    exact twin
  | succ n ih =>
    by_cases holds : test X = true
    · have inside : X.kind.endsLine = false := by
        refine twin.kind_cases.resolve_right fun ends => ?_
        rw [stops X ends] at holds
        cases holds
      obtain ⟨next, fewer, fewer'⟩ := twin.advance inside
      cases m with
      | zero => omega
      | succ m =>
        unfold ParseState.advanceWhile
        rw [same X Y twin, if_pos holds, if_pos holds]
        exact ih (m := m) next (by omega) (by omega)
    · have off : test X = false := by simpa using holds
      rw [halts _ off, halts m ((same X Y twin).trans off)]
      exact twin

end Twin

end VisualBasic
