import Mathlib.Data.List.Chain
import VisualBasic.Proofs.Parse.Statement

/-!
What stands between the items of a list.  Behind an item a statement ends, and the list goes on
behind a separator: an item that starts with a terminator is reported.
-/

set_option autoImplicit false

namespace VisualBasic

/-- Behind a node that has been read without a diagnostic a statement ends, unless the node runs
on. -/
def Node.Followed (n : Node) (t : ParseState) : Prop :=
  t.diagnostics = [] → n.RunsOn ∨ t.Ended

/-- Between the place where a statement ends and the node there is a separator. -/
def Node.Parted (n : Node) (s t : ParseState) : Prop :=
  t.diagnostics = [] → s.Ended → ∃ k ∈ s.ahead, k.isSeparator = true ∧
    s.here ≤ k.span.start.index ∧ k.span.finish.index ≤ n.span.start.index

namespace ParseState

theorem Ended.along {s t : ParseState} (ahead : t.ahead = s.ahead) (ended : s.Ended) : t.Ended := by
  unfold Ended
  rwa [(List.cons.inj ahead).1, (Parse.kinds_of_ahead ahead).1, Parse.terminator?_of_ahead ahead]

/-- What stands between two items has been passed: all separators, and nothing where there are
none. -/
structure Gap (s t : ParseState) : Prop where
  passed : s.current.isSeparator = true → s.current.span.finish.index ≤ t.here
  stands : s.current.isSeparator = false → s.kind ≠ .mark .pound → t.ahead = s.ahead
  arrived : t.current.isSeparator = false

variable {s t u v : ParseState} {n : Node}

theorem Gap.refl (arrived : s.current.isSeparator = false) : Gap s s :=
  ⟨fun separator => by simp [arrived] at separator, fun _ _ => rfl, arrived⟩

theorem Gap.along (gap : Gap s t) (ahead : u.ahead = t.ahead) : Gap s u := by
  obtain ⟨current, -⟩ := List.cons.inj ahead
  refine ⟨fun separator => ?_, fun other mark => ahead.trans (gap.stands other mark), ?_⟩
  · rw [ParseState.here, current]
    exact gap.passed separator
  · rw [current]
    exact gap.arrived

theorem isSeparator_of_terminator (starts : s.terminator?.isSome = true) :
    s.current.isSeparator = false ∧ s.kind ≠ .mark .pound := by
  cases kind : s.current.kind with
  | word => simp [Token.isSeparator, ParseState.kind, kind]
  | _ => simp [terminator?, Lookahead.terminator?, ParseState.kind, kind] at starts

/-- An item behind a gap is parted from what stands before it. -/
theorem Gap.parted (gap : Gap s t) (goesOn : t.kind ≠ .endOfStream)
    (read : Stretch t.here t u [n] [])
    (refused : t.terminator?.isSome = true → u.diagnostics ≠ []) (later : u.Later v) :
    n.Parted s v := by
  intro none ended
  rcases ended with separator | ends | starts
  · have start := (read.fits n (List.mem_singleton.2 rfl)).start
    exact ⟨s.current, List.mem_cons_self, separator, Nat.le_refl _,
      Nat.le_trans (gap.passed separator) start⟩
  · have ahead := gap.stands (by simp [Token.isSeparator, show s.current.kind = _ from ends])
      (by simp [ends])
    exact absurd ((Parse.kinds_of_ahead ahead).1.trans ends) goesOn
  · obtain ⟨other, mark⟩ := isSeparator_of_terminator starts
    have ahead := gap.stands other mark
    exact absurd (later.clean none) (refused (Parse.terminator?_of_ahead ahead ▸ starts))

end ParseState

variable {s t u v : ParseState} {n m : Node} {ns : List Node}

/-- A separator stands between a node and the first one behind it. -/
theorem Node.Followed.apart (followed : n.Followed u) (read : Stretch t.here t u [n] [])
    (parted : m.Parted u v) (later : u.Later v) (none : v.diagnostics = []) :
    Node.Apart t.ahead n m := by
  refine (followed (later.clean none)).imp_right fun ended => ?_
  obtain ⟨k, member, separator, after, before⟩ := parted none ended
  have finish := (read.fits n (List.mem_singleton.2 rfl)).finish
  have behind := read.wf.behind
  exact ⟨k, read.runs.suffix.subset member, separator, by omega, before⟩

/-- A node that is not closed has been reported. -/
theorem Stretch.unclosed_eq_nil (so : Stretch s.here s t [n] []) (none : t.diagnostics = []) :
    n.unclosed = [] := by
  have ledger := so.ledger
  simp only [ParseState.unclosed, none, List.filterMap_nil, List.flatMap_singleton] at ledger
  have closed := (List.append_eq_nil_iff.1 ledger.nil_eq.symm).2
  exact (List.append_eq_nil_iff.1 (List.append_eq_nil_iff.1 closed).1).1

theorem Node.followed_of_ends (so : Stretch s.here s t [n] []) (ends : n.IsLoose ∨ t.Ends) :
    n.Followed t := by
  intro none
  rcases ends with (opened | runsOn) | ends
  · exact absurd (so.unclosed_eq_nil none) opened
  · exact .inl runsOn
  · exact .inr (ends.ended so.wf none)

/-- An item of a list has been tried. -/
structure Tried (s t : ParseState) (n : Node) : Prop where
  attempt : Attempt s t n
  ends : n.IsLoose ∨ t.Ends
  refused : s.terminator?.isSome = true → t.diagnostics ≠ []

/-- An item of a list has been read. -/
structure Item (s t : ParseState) (n : Node) : Prop where
  so : Stretch s.here s t [n] []
  moved : t.remaining < s.remaining
  followed : n.Followed t
  refused : s.terminator?.isSome = true → t.diagnostics ≠ []

/-- A rule that has not moved has left a diagnostic: no statement ends where an item starts. -/
theorem Tried.dirty (tried : Tried s t n) (wf : s.Wf) (still : t.remaining = s.remaining)
    (goesOn : s.kind ≠ .endOfStream) (arrived : s.current.isSeparator = false)
    (closed : n.unclosed = []) : n.RunsOn ∨ t.diagnostics ≠ [] := by
  have ahead := (tried.attempt.runs.later wf).still still
  rcases tried.ends with (opened | runsOn) | suppressed | ended
  · exact absurd closed opened
  · exact .inl runsOn
  · exact .inr (tried.attempt.wf.reported suppressed)
  · refine .inr ?_
    rcases ended with separator | ends | starts
    · rw [(List.cons.inj ahead).1, arrived] at separator
      cases separator
    · exact absurd ((Parse.kinds_of_ahead ahead).1.symm.trans ends) goesOn
    · exact tried.refused (Parse.terminator?_of_ahead ahead ▸ starts)

/-- The items of a list are set apart, and the first of them from what stands before it. -/
structure Spaced (s t : ParseState) (ns : List Node) : Prop where
  apart : t.diagnostics = [] → ns.IsChain (Node.Apart s.ahead)
  parted : ∀ n ∈ ns.head?, n.Parted s t

namespace Spaced

theorem nil : Spaced s t [] := ⟨fun _ => .nil, by simp⟩

theorem cons (before : Stretch s.here s t [] []) (gap : s.Gap t) (goesOn : t.kind ≠ .endOfStream)
    (first : Item t u n) (later : u.Later v) (rest : Spaced u v ns) : Spaced s v (n :: ns) := by
  have long := before.append first.so
  refine ⟨fun none => List.isChain_cons.2 ⟨fun m member => ?_, ?_⟩, ?_⟩
  · have apart := first.followed.apart first.so (rest.parted m member) later none
    exact apart.mono before.runs.suffix.subset
  · exact Node.isChain_apart_mono (rest.apart none) long.runs.suffix.subset
  · simpa using gap.parted goesOn first.so first.refused later

/-- A separator that is passed sets apart what comes behind it. -/
theorem behind {owed : List (BlockKind × Nat)} (separator : s.current.isSeparator = true)
    (passed : s.current.span.finish.index ≤ t.here) (before : Stretch s.here s t [] [])
    (so : Stretch t.here t v ns owed) (rest : Spaced t v ns) : Spaced s v ns where
  apart none := Node.isChain_apart_mono (rest.apart none) before.runs.suffix.subset
  parted n member _ _ := by
    have start := (so.fits n (List.mem_of_mem_head? member)).start
    exact ⟨s.current, List.mem_cons_self, separator, Nat.le_refl _, Nat.le_trans passed start⟩

end Spaced

namespace Parse

variable {α : Type} {r : Rules} {b : Bodies} {depth : Nat} {s : ParseState}

/-- A rule for an item is run so that it moves on. -/
theorem moving_item {p : Parse α} {node : α → Node} (wf : s.Wf) (goesOn : s.kind ≠ .endOfStream)
    (arrived : s.current.isSeparator = false)
    (tries : Ensures p s fun a t => Tried s t (node a)) :
    Ensures (moving p) s fun a t => Item s t (node a) := by
  have inside := kind_ne_of_arrived rfl arrived
  have moves := Ensures.moving goesOn inside (tries.mono fun _ _ tried => tried.attempt)
  have closes : Ensures (moving p) s fun a t =>
      Stretch s.here s t [node a] [] → (node a).Followed t ∧
        (s.terminator?.isSome = true → t.diagnostics ≠ []) := by
    refine .get (tries.bind fun a t tried => .get ?_)
    split
    next still =>
      intro so
      refine ⟨fun none => ?_, fun starts => t.diagnostics_advance ▸ tried.refused starts⟩
      have dirty := tried.dirty wf still goesOn arrived (so.unclosed_eq_nil none)
      exact .inl (dirty.resolve_right fun dirty => dirty (t.diagnostics_advance ▸ none))
    next => exact fun so => ⟨Node.followed_of_ends so tried.ends, tried.refused⟩
  exact (moves.and closes).mono fun _ _ ⟨⟨so, moved⟩, closes⟩ =>
    ⟨so, moved, (closes so).1, (closes so).2⟩

/-- What has been passed shows at the first token. -/
theorem separatorsWithin_first (sound : r.Sound) (n : Nat) (wf : s.Wf) (fuel : s.remaining ≤ n) :
    Ensures (separatorsWithin r n) s fun _ t =>
      (s.current.isSeparator = true → s.current.span.finish.index ≤ t.here) ∧
        (s.current.isSeparator = false → s.kind ≠ .mark .pound → t.ahead = s.ahead) := by
  have passes {n : Nat} (separator : s.current.isSeparator = true) (fuel : s.remaining ≤ n + 1) :
      Ensures (separatorsWithin r n) s.advance fun _ t =>
        (s.current.isSeparator = true → s.current.span.finish.index ≤ t.here) ∧
          (s.current.isSeparator = false → s.kind ≠ .mark .pound → t.ahead = s.ahead) := by
    have passed := pass_separator wf separator
    have goesOn : s.kind ≠ .endOfStream := kind_ne_of_isSeparator separator (by simp)
    have fewer := (ParseState.limit_advance wf goesOn).2.2
    have token := ParseState.finish_le_limit_advance wf goesOn
    have behind := passed.wf.behind
    refine (separatorsWithin_silent sound n passed.wf (by omega)).mono fun _ t so =>
      ⟨fun _ => ?_, fun other => ?_⟩
    · have := so.later.here
      omega
    · rw [separator] at other
      cases other
  cases n with
  | zero =>
    have ends := (ParseState.remaining_eq_zero_iff wf).1 (Nat.le_zero.1 fuel)
    refine ⟨fun separator => ?_, fun _ _ => rfl⟩
    simp [Token.isSeparator, show s.current.kind = _ from ends] at separator
  | succ n =>
    refine .peek ?_
    split
    next kind =>
      exact passes (by simp [Token.isSeparator, kind]) fuel
    next kind =>
      have read := passes (by simp [Token.isSeparator, kind]) fuel
      exact .skip (read.bind fun _ _ facts => facts)
    next kind =>
      exact Ensures.any.mono fun _ _ _ =>
        ⟨fun separator => by simp [Token.isSeparator, kind] at separator,
          fun _ mark => absurd kind mark⟩
    next noLine noColon _ =>
      refine ⟨fun separator => ?_, fun _ _ => rfl⟩
      simp only [Token.isSeparator, Bool.or_eq_true, beq_iff_eq] at separator
      exact absurd separator (not_or.2 ⟨noColon, noLine⟩)

theorem separators_gap (sound : r.Sound) (wf : s.Wf) :
    Ensures (separators r) s fun _ t => s.Gap t := by
  have first := separatorsWithin_first sound _ wf (Nat.le_refl _)
  refine .get ((first.and (separatorsWithin_passes sound _ wf (Nat.le_refl _))).mono
    fun _ _ ⟨⟨passed, stands⟩, _, _, arrived⟩ => ⟨passed, stands, arrived⟩)

-- Statements and declarations as items

theorem declaration_tried (phrases : r.Sound) (sound : b.Sound depth) (container : Container)
    (wf : s.Wf) (bound : s.remaining ≤ depth) :
    Ensures (declaration r b container) s fun d t => Tried s t (.declaration d) := by
  have refused : Ensures (declaration r b container) s fun _ t =>
      s.terminator?.isSome = true → t.diagnostics ≠ [] := by
    refine .peek (.get ?_)
    have so := Stretch.refl wf
    split
    next kind ends =>
      refine (so.report _ rfl fun _ => wf.stream.order).bind fun _ t ⟨so, dirty, ahead⟩ => ?_
      refine (endBlock_line so.wf ((terminator?_of_ahead ahead).trans ends)).bind fun _ u line _ => ?_
      exact fun none => dirty (line.so.later.clean none)
    next =>
      refine (so.reportUnexpected rfl).bind fun _ t ⟨so, dirty, _⟩ => ?_
      exact (so.discard [] dirty).bind fun _ u ⟨_, dirty⟩ _ => dirty
    next none => exact Ensures.any.mono fun _ _ _ starts => by simp [none] at starts
  refine ((declaration_attempt phrases sound container wf bound).and
    ((declaration_concludes container s).and refused)).mono fun _ _ ⟨attempt, ends, refused⟩ => ?_
  exact ⟨attempt, ends.imp_left .inl, refused⟩

theorem keywordStatement_ends (phrases : r.Sound) (sound : b.Sound depth) (wf : s.Wf)
    {keyword : Keyword} (word : s.kind = .word keyword) (bound : s.remaining ≤ depth) :
    Ensures (keywordStatement r b keyword) s fun st t => (Node.ofStatement st).IsLoose ∨ t.Ends := by
  have solid : s.kind.isSolid = true := by rw [word]; rfl
  have ends {p : Parse Statement} (concludes : Concludes p Statement.IsOpen) :
      Ensures p s fun st t => (Node.ofStatement st).IsLoose ∨ t.Ends :=
    (concludes s).mono fun _ _ ends => ends.imp_left .inl
  unfold keywordStatement
  split
  · exact ends localDeclaration_concludes
  · exact ends localDeclaration_concludes
  · exact ends localDeclaration_concludes
  · exact ends callStatement_concludes
  · exact ends keywordAssignment_concludes
  · exact ends keywordAssignment_concludes
  · exact ends goToStatement_concludes
  · exact ends obsoleteJump_concludes
  · exact ends exitStatement_concludes
  · exact ends continueStatement_concludes
  · exact ends stopStatement_concludes
  · exact ends endProgram_concludes
  · exact ends (optionalOperand_concludes _)
  · exact ends (optionalOperand_concludes _)
  · exact ends raiseError_concludes
  · exact ends raiseEvent_concludes
  · exact ends (handlerStatement_concludes true)
  · exact ends (handlerStatement_concludes false)
  · exact ends onErrorStatement_concludes
  · exact ends resumeStatement_concludes
  · exact ends reDimStatement_concludes
  · exact ends eraseStatement_concludes
  · exact (ifStatement_ensures phrases sound wf solid bound).mono fun _ _ facts => facts.2
  · exact ends doBlock_concludes
  · exact (forStatement_ensures phrases sound wf word bound).mono fun _ _ facts => facts.2
  · exact ends whileBlock_concludes
  · exact ends (objectBlock_concludes .withObject)
  · exact ends (objectBlock_concludes .syncLock)
  · exact ends usingBlock_concludes
  · exact ends tryBlock_concludes
  · exact ends selectBlock_concludes
  · exact ends operandStatement_concludes

theorem plainStatement_ends (phrases : r.Sound) (sound : b.Sound depth) (wf : s.Wf)
    (bound : s.remaining ≤ depth) :
    Ensures (plainStatement r b) s fun st t => (Node.ofStatement st).IsLoose ∨ t.Ends := by
  have ends {p : Parse Statement} (concludes : Concludes p Statement.IsOpen) :
      Ensures p s fun st t => (Node.ofStatement st).IsLoose ∨ t.Ends :=
    (concludes s).mono fun _ _ ends => ends.imp_left .inl
  refine .get ?_
  split
  next named =>
    split
    · exact .inl (.inr (.inl rfl))
    · split
      · exact ends midAssignment_concludes
      · exact ends assignmentOrCall_concludes
  next =>
    refine .peek (.get ?_)
    extract_lets rest
    have isLabel (t : ParseState) :
        Ensures (rest ()) t fun st u => (Node.ofStatement st).IsLoose ∨ u.Ends :=
      Ensures.any.bind fun _ _ _ => .inl (.inr (.inl rfl))
    split
    · exact isLabel s
    · exact Ensures.any.bind fun _ t _ => isLabel t
  next keyword word => exact keywordStatement_ends phrases sound wf word bound
  next => exact ends operandStatement_concludes

theorem statement_tried (phrases : r.Sound) (sound : b.Sound depth) (wf : s.Wf)
    (bound : s.remaining ≤ depth) :
    Ensures (statement r b) s fun st t => Tried s t (Node.ofStatement st) := by
  have begun := (ParseState.Act.begin (s := s)).wf wf
  have facts : Ensures (statement r b) s fun st t =>
      ((Node.ofStatement st).IsLoose ∨ t.Ends) ∧
        (s.terminator?.isSome = true → t.diagnostics ≠ []) := by
    refine .beginConstruct (.get ?_)
    split
    next x starts =>
      have stray : Concludes (strayTerminator r x) Statement.IsOpen := strayTerminator_concludes x
      refine ((stray _).and (strayTerminator_ensures phrases begun starts)).mono
        fun _ _ ⟨ends, _, dirty⟩ => ?_
      exact ⟨ends.imp_left .inl, fun _ => dirty⟩
    next plain =>
      have plain : s.terminator? = none := plain
      have unasked {t : ParseState} (starts : s.terminator?.isSome = true) : t.diagnostics ≠ [] := by
        simp [plain] at starts
      split
      · refine (declaration_concludes .script _).bind fun d t ends => ⟨?_, unasked⟩
        exact ends.imp_left .inl
      · exact (plainStatement_ends phrases sound begun bound).mono fun _ _ ends => ⟨ends, unasked⟩
  exact ((statement_attempt phrases sound wf bound).and facts).mono
    fun _ _ ⟨attempt, ends, refused⟩ => ⟨attempt, ends, refused⟩

theorem listedStatement_item (phrases : r.Sound) (sound : b.Sound depth) (wf : s.Wf)
    (goesOn : s.kind ≠ .endOfStream) (arrived : s.current.isSeparator = false)
    (bound : s.remaining ≤ depth) :
    Ensures (listedStatement r b) s fun st t => Item s t (Node.ofStatement st) := by
  refine .get ?_
  split
  next misplaced =>
    have heading := beq_iff_eq.1 (Bool.and_eq_true_iff.1 misplaced).2
    exact (misplacedHeading_moves wf heading).mono fun _ _ ⟨so, moved, dirty⟩ =>
      ⟨so, moved, fun none => absurd none dirty, fun _ => dirty⟩
  next => exact moving_item wf goesOn arrived (statement_tried phrases sound wf bound)

end Parse

end VisualBasic
