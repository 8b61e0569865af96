import VisualBasic.Proofs.Loop.Phrase

/-!
Loops that share a `Next`.  What is left over of a `Next` is taken up by the loops around the one that
it closes; while it is, nothing is read.
-/

set_option autoImplicit false

namespace VisualBasic

namespace Parse

variable {version : Version} {r : Rules} {b : Bodies} {s : ParseState} {l : Lexeme}
  {rest : List Lexeme} {blocks : List OpenBlock} {left : Option PendingNext} {k : Nat}

-- Between statements

theorem separators_none (solid : s.kind ∉ [.lineTerminator, .mark .colon, .mark .pound]) :
    Ensures (separators r) s fun colons t => colons = [] ∧ t = s := by
  simp only [List.mem_cons, not_or] at solid
  have run := run_separatorsWithin_other (r := r) solid.1 solid.2.1
    (fun _ => solid.2.2.1) s.remaining
  refine .get ?_
  rw [Ensures, run]
  exact ⟨rfl, rfl⟩

theorem separators_lineEnd (solid : l.kind ∉ [.lineTerminator, .mark .colon, .mark .pound])
    (stands : s.Stands (.lineTerminator :: l :: rest) blocks left) :
    Ensures (separators r) s fun colons t => colons = [] ∧ t = s.advance := by
  obtain ⟨behind, -⟩ := stands.advance
  rw [← behind.kind] at solid
  simp only [List.mem_cons, not_or] at solid
  obtain ⟨n, length⟩ : ∃ n, s.remaining = n + 1 := by
    have length := stands.remaining
    exact ⟨rest.length, by simpa using length⟩
  have run := run_separatorsWithin_other (r := r) solid.1 solid.2.1
    (fun _ => solid.2.2.1) n
  refine .get ?_
  rw [Ensures, length, run_separatorsWithin_break stands.kind, run]
  exact ⟨rfl, rfl⟩

/-- A list goes on at a statement that is no terminator, outside procedures. -/
theorem firstStop_goesOn (settled : s.pendingNext = none) (starts : s.terminator? = none)
    (more : s.kind ≠ .endOfStream) (outside : s.inProcedure = false) :
    Ensures (firstStop [stopAtPendingNext, stopAtTerminator, stopAtMember]) s fun step t =>
      step = .goOn ∧ t = s := by
  have pending := (run_stopAtPendingNext s).2 settled
  have terminator : stopAtTerminator.run s = (.goOn, s) := by
    unfold stopAtTerminator
    rw [Paired.run_get, if_neg more, starts]
    rfl
  have member : stopAtMember.run s = (.goOn, s) := by
    unfold stopAtMember
    rw [Paired.run_get, outside]
    rfl
  rw [Ensures, firstStop_goOn pending (firstStop_goOn terminator (firstStop_goOn member rfl))]
  exact ⟨rfl, rfl⟩

/-- The statements of a loop end at a `Next`, and at once where one is left over. -/
theorem firstStop_next {block : OpenBlock} (innermost : s.blocks.head? = some block)
    (accepts : block.kind.accepts .next = true)
    (closing : s.pendingNext.isSome = true ∨ s.kind = .word .kwNext) :
    Ensures (firstStop [stopAtPendingNext, stopAtTerminator, stopAtMember]) s fun step t =>
      step = .stop (some .next) ∧ t = s := by
  cases pending : s.pendingNext with
  | some p =>
    have stops : stopAtPendingNext.run s = (.stop (some .next), s) := by
      unfold stopAtPendingNext
      rw [Paired.run_get, pending, innermost]
      simp only [accepts, if_true]
      rfl
    rw [Ensures, firstStop, Paired.run_bind, stops]
    exact ⟨rfl, rfl⟩
  | none =>
    have kind : s.kind = .word .kwNext := by simpa [pending] using closing
    have stops : stopAtTerminator.run s = (.stop (some .next), s) := by
      have terminator : s.terminator? = some .next := by
        rw [ParseState.terminator?, kind]
        rfl
      unfold stopAtTerminator
      rw [Paired.run_get, if_neg (by simp [kind]), terminator, innermost]
      simp only [accepts, if_true]
      rfl
    rw [Ensures, firstStop, Paired.run_bind, (run_stopAtPendingNext s).2 pending, firstStop,
      Paired.run_bind, stops]
    exact ⟨rfl, rfl⟩

end Parse

-- The ends of loops

/-- The end of a loop with the variable that it names. -/
abbrev LoopEnd : Type := Option NextStatement × Option Expression

/-- What is left of a `Next` once some loops are closed. -/
def NextStatement.leftOver (shared : NextStatement) (closed : Nat) : Option PendingNext :=
  if closed < shared.loopVariables.items.length then some ⟨shared, closed⟩ else none

/-- The ends of the loops that are closed, innermost first: the variables of one `Next` close a loop
each, further loops have a `Next` of their own. -/
def loopEnds (shared : NextStatement) (owns : List NextStatement) (closed : Nat) : List LoopEnd :=
  (shared.loopVariables.items.take closed).map (fun x => (some shared, some x)) ++
    owns.map fun own => (some own, none)

/-- So many further lines with a `Next` that names no variable. -/
def laterLexemes (version : Version) (count : Nat) : List Lexeme :=
  (List.replicate count (.lineTerminator :: nextLexemes version [])).flatten ++ [.endOfStream]

theorem laterLexemes_succ (version : Version) (count : Nat) :
    laterLexemes version (count + 1) =
      .lineTerminator :: (nextLexemes version [] ++ laterLexemes version count) := by
  simp [laterLexemes, List.replicate_succ]

theorem exists_laterLexemes (version : Version) (count : Nat) :
    ∃ l rest, laterLexemes version count = l :: rest ∧ l.EndsLine := by
  cases count with
  | zero => exact ⟨_, _, rfl, .inr rfl⟩
  | succ count => exact ⟨_, _, laterLexemes_succ version count, .inl rfl⟩

/-- The `Next` statements that have been read: one with the given variables and some without, each
behind the one before. -/
structure LoopNexts (closing : List SimpleName) (shared : NextStatement) (owns : List NextStatement)
    (here : Nat) : Prop where
  named : List.Forall₂ Expression.Alike shared.loopVariables.items
    (closing.map SimpleName.expression)
  bare : ∀ own ∈ owns, own.loopVariables.items = []
  order : (shared :: owns).Pairwise fun x y => x.span.start.index < y.span.start.index
  passed : ∀ x ∈ shared :: owns, x.span.start.index < here

/-- The lines for the ends of loops that are still to be read, and what is left over, once some loops
are closed. -/
inductive Closings (version : Version) (closing : List SimpleName) (loops here : Nat) :
    List Lexeme → Option PendingNext → List LoopEnd → Prop where
  | start : Closings version closing loops here
      (.lineTerminator :: (nextLexemes version closing ++
        laterLexemes version (loops - closing.length))) none []
  | goOn {shared : NextStatement} {owns : List NextStatement} {closed : Nat} :
      LoopNexts closing shared owns here → owns.length = closed - closing.length →
      Closings version closing loops here
        (laterLexemes version (loops - closing.length - owns.length)) (shared.leftOver closed)
        (loopEnds shared owns closed)

/-- A parser before such lines; the end of the line before them may have been passed. -/
def ParseState.AtClosings (s : ParseState) (version : Version) (closing : List SimpleName)
    (loops : Nat) (blocks : List OpenBlock) (ends : List LoopEnd) : Prop :=
  ∃ lines ls left, Closings version closing loops s.here lines left ends ∧
    (ls = lines ∨ .lineTerminator :: ls = lines) ∧ s.Stands ls blocks left

/-- The next loop can be closed here. -/
def ParseState.ClosesNext (s : ParseState) : Prop :=
  s.pendingNext.isSome = true ∨ s.kind = .word .kwNext

namespace LoopNexts

variable {closing : List SimpleName} {shared own : NextStatement} {owns : List NextStatement}
  {here there : Nat}

theorem length (nexts : LoopNexts closing shared owns here) :
    shared.loopVariables.items.length = closing.length := by
  simpa using nexts.named.length_eq

theorem mono (nexts : LoopNexts closing shared owns here) (later : here ≤ there) :
    LoopNexts closing shared owns there :=
  { nexts with passed := fun x member => Nat.lt_of_lt_of_le (nexts.passed x member) later }

/-- One more `Next` has been read. -/
theorem concat (nexts : LoopNexts closing shared owns here) (bare : own.loopVariables.items = [])
    (start : own.span.start.index = here) (later : here < there) :
    LoopNexts closing shared (owns ++ [own]) there where
  named := nexts.named
  bare := by
    intro x member
    obtain before | rfl := List.mem_append.1 member |>.imp_right List.mem_singleton.1
    · exact nexts.bare x before
    · exact bare
  order := by
    rw [← List.cons_append, List.pairwise_append]
    refine ⟨nexts.order, List.pairwise_singleton .., fun x before y last => ?_⟩
    obtain rfl := List.mem_singleton.1 last
    rw [start]
    exact nexts.passed x before
  passed := by
    intro x member
    rw [← List.cons_append] at member
    obtain before | rfl := List.mem_append.1 member |>.imp_right List.mem_singleton.1
    · exact Nat.lt_trans (nexts.passed x before) later
    · omega

end LoopNexts

theorem length_loopEnds {closing : List SimpleName} {shared : NextStatement}
    {owns : List NextStatement} {here closed : Nat} (nexts : LoopNexts closing shared owns here)
    (count : owns.length = closed - closing.length) :
    (loopEnds shared owns closed).length = closed := by
  simp only [loopEnds, List.length_append, List.length_map, List.length_take, nexts.length, count]
  omega

namespace Closings

variable {version : Version} {closing : List SimpleName} {loops here there : Nat}
  {lines : List Lexeme} {left : Option PendingNext} {ends : List LoopEnd}

theorem mono (closings : Closings version closing loops here lines left ends)
    (later : here ≤ there) : Closings version closing loops there lines left ends := by
  cases closings with
  | start => exact .start
  | goOn nexts count => exact .goOn (nexts.mono later) count

/-- One more variable of the `Next` closes a loop. -/
theorem named {shared : NextStatement} {closed : Nat} (nexts : LoopNexts closing shared [] here)
    (unused : closed < closing.length) :
    Closings version closing loops here (laterLexemes version (loops - closing.length))
      (shared.leftOver (closed + 1))
      (loopEnds shared [] closed ++ [(some shared, shared.loopVariables.items[closed]?)]) := by
  have item : closed < shared.loopVariables.items.length := by rwa [nexts.length]
  have ends : loopEnds shared [] closed ++ [(some shared, shared.loopVariables.items[closed]?)] =
      loopEnds shared [] (closed + 1) := by
    unfold loopEnds
    simp only [List.take_add_one, List.getElem?_eq_getElem item, Option.toList_some, List.map_append,
      List.map_cons, List.map_nil, List.append_nil]
  rw [ends]
  exact .goOn nexts (by simp; omega)

/-- Once its variables are used up, the next loop takes a `Next` of its own. -/
theorem own {shared own : NextStatement} {owns : List NextStatement} {closed : Nat}
    (nexts : LoopNexts closing shared (owns ++ [own]) here)
    (count : owns.length = closed - closing.length) (used : closing.length ≤ closed) :
    Closings version closing loops here
      (laterLexemes version (loops - closing.length - (owns.length + 1))) none
      (loopEnds shared owns closed ++ [(some own, none)]) := by
  have all : shared.loopVariables.items.length ≤ closed := by rwa [nexts.length]
  have ends : loopEnds shared owns closed ++ [(some own, none)] =
      loopEnds shared (owns ++ [own]) (closed + 1) := by
    simp [loopEnds, List.take_of_length_le, all, Nat.le_succ_of_le all]
  have nothing : shared.leftOver (closed + 1) = none := if_neg (by omega)
  have length : (owns ++ [own]).length = owns.length + 1 := List.length_append
  rw [ends, ← nothing, ← length]
  exact .goOn nexts (by simp; omega)

/-- Either no line is left to be read or the next one closes loops. -/
theorem lines_eq (closings : Closings version closing loops here lines left ends) :
    lines = [.endOfStream] ∨
      ∃ names rest, lines = .lineTerminator :: (nextLexemes version names ++ rest) := by
  cases closings with
  | start => exact .inr ⟨closing, _, rfl⟩
  | goOn =>
    cases loops - closing.length - _ with
    | zero => exact .inl rfl
    | succ m => exact .inr ⟨[], _, laterLexemes_succ version m⟩

/-- A `Next` is left over where no line is left to be read, as long as loops are open. -/
theorem isSome_left (closings : Closings version closing loops here [.endOfStream] left ends)
    (more : ends.length < loops) : left.isSome = true := by
  generalize ended : [Lexeme.endOfStream] = lines at closings
  cases closings with
  | start => cases ended
  | @goOn shared owns closed nexts count =>
    rw [length_loopEnds nexts count] at more
    by_cases unused : closed < closing.length
    · simp [NextStatement.leftOver, nexts.length, unused]
    · obtain ⟨m, lines⟩ : ∃ m, loops - closing.length - owns.length = m + 1 :=
        ⟨loops - closing.length - owns.length - 1, by omega⟩
      rw [lines, laterLexemes_succ] at ended
      cases ended

end Closings

namespace Parse

variable {version : Version} {r : Rules} {s : ParseState} {blocks : List OpenBlock} {k loops : Nat}
  {closing : List SimpleName} {ends : List LoopEnd}

theorem separators_closings (more : ends.length < loops)
    (before : s.AtClosings version closing loops blocks ends) :
    Ensures (separators r) s fun colons t =>
      colons = [] ∧ t.AtClosings version closing loops blocks ends ∧ t.ClosesNext := by
  obtain ⟨lines, ls, left, closings, place, stands⟩ := before
  obtain rfl | ⟨names, rest, rfl⟩ := closings.lines_eq
  · have unused := closings.isSome_left more
    obtain rfl : ls = [.endOfStream] := by simpa using place
    refine (separators_none (by simp [stands.kind, Lexeme.kind])).mono fun colons t stays => ?_
    obtain ⟨rfl, rfl⟩ := stays
    have waits : t.pendingNext.isSome = true := by rwa [stands.pending]
    exact ⟨rfl, ⟨_, _, left, closings, .inl rfl, stands⟩, .inl waits⟩
  · obtain rfl | same := place
    · have word : (Lexeme.keyword .kwNext "Next").kind ∉
          [.lineTerminator, .mark .colon, .mark .pound] := by simp [Lexeme.kind]
      obtain ⟨behind, later⟩ := stands.advance
      refine (separators_lineEnd word stands).mono fun colons t moves => ?_
      obtain ⟨rfl, rfl⟩ := moves
      exact ⟨rfl, ⟨_, _, left, closings.mono (Nat.le_of_lt later), .inr rfl, behind⟩,
        .inr behind.kind⟩
    · obtain rfl : ls = nextLexemes version names ++ rest := List.tail_eq_of_cons_eq same
      refine (separators_none (by simp [stands.kind, Lexeme.kind])).mono fun colons t stays => ?_
      obtain ⟨rfl, rfl⟩ := stays
      exact ⟨rfl, ⟨_, _, left, closings, .inr rfl, stands⟩, .inr stands.kind⟩

theorem leftOver_eq (shared : NextStatement) (index : Nat) :
    (if shared.loopVariables.items.length ≤ index + 1 then none else some ⟨shared, index + 1⟩) =
      shared.leftOver (index + 1) := by
  unfold NextStatement.leftOver
  split <;> split <;> first | rfl | omega

theorem next_pending {pending : PendingNext} (left : s.pendingNext = some pending) :
    Ensures (next r) s fun found t =>
      found = (pending.statement, pending.statement.loopVariables.items[pending.index]?) ∧
        t = { s with pendingNext := pending.statement.leftOver (pending.index + 1) } := by
  refine .get ?_
  rw [left]
  exact ⟨rfl, by rw [← leftOver_eq]; rfl⟩

/-- Where nothing is left over, the line that stands here is read. -/
theorem next_reads {names : List SimpleName} {l : Lexeme} {rest : List Lexeme} (atEnd : l.EndsLine)
    (stands : s.Stands (nextLexemes version names ++ l :: rest) blocks none) :
    Ensures (next (.ofDepth version (k + 1))) s fun found t =>
      ∃ line : NextStatement, found = (line, line.loopVariables.items[0]?) ∧
        List.Forall₂ Expression.Alike line.loopVariables.items (names.map SimpleName.expression) ∧
        line.span.start.index = s.here ∧ t.Stands (l :: rest) blocks (line.leftOver 1) ∧
        s.here < t.here := by
  have settled : s.pendingNext = none := stands.pending
  refine .get ?_
  rw [settled]
  refine .beginConstruct ((nextLine_reads (k := k) atEnd stands.begin).bind fun line t read => ?_)
  obtain ⟨⟨alike, start⟩, after, moved⟩ := read
  refine ⟨line, rfl, alike, congrArg Location.index start, ?_, moved⟩
  rw [← leftOver_eq]
  exact { after with pending := rfl }

/-- The end of the line before a `Next` has been passed where it closes a loop. -/
theorem stands_next {names : List SimpleName} {ls rest : List Lexeme}
    (place : ls = .lineTerminator :: (nextLexemes version names ++ rest) ∨
      .lineTerminator :: ls = .lineTerminator :: (nextLexemes version names ++ rest))
    (stands : s.Stands ls blocks none) (closes : s.ClosesNext) :
    s.Stands (nextLexemes version names ++ rest) blocks none := by
  obtain rfl | same := place
  · obtain pending | word := closes
    · simp [stands.pending] at pending
    · simp [stands.kind, Lexeme.kind] at word
  · rwa [← List.tail_eq_of_cons_eq same]

/-- A loop is closed by what is left over of a `Next` or by the `Next` that stands here. -/
theorem next_closings (more : ends.length < loops) (named : closing ≠ [])
    (before : s.AtClosings version closing loops blocks ends) (closes : s.ClosesNext) :
    Ensures (next (.ofDepth version (k + 1))) s fun found t =>
      t.AtClosings version closing loops blocks (ends ++ [(some found.1, found.2)]) := by
  obtain ⟨lines, ls, left, closings, place, stands⟩ := before
  cases closings with
  | start =>
    -- the first loop is closed by the line that stands here
    obtain ⟨l, rest, later, atEnd⟩ := exists_laterLexemes version (loops - closing.length)
    rw [later] at place
    refine (next_reads atEnd (stands_next place stands closes)).mono fun found t read => ?_
    obtain ⟨shared, rfl, alike, start, after, moved⟩ := read
    have nexts : LoopNexts closing shared [] t.here := by
      refine ⟨alike, by simp, List.pairwise_singleton .., fun x member => ?_⟩
      obtain rfl := List.mem_singleton.1 member
      rwa [start]
    exact ⟨_, l :: rest, _, .named nexts (List.length_pos_iff.2 named), .inl later.symm, after⟩
  | @goOn shared owns closed nexts count =>
    by_cases unused : closed < closing.length
    · have pending : s.pendingNext = some ⟨shared, closed⟩ := by
        rw [stands.pending]
        exact if_pos (nexts.length ▸ unused)
      refine (next_pending pending).mono fun found t taken => ?_
      obtain ⟨rfl, rfl⟩ := taken
      obtain rfl : owns = [] := List.length_eq_zero_iff.1 (by omega)
      exact ⟨_, ls, _, .named nexts unused, place, { stands with pending := rfl }⟩
    · have nothing : shared.leftOver closed = none := if_neg (nexts.length ▸ unused)
      rw [length_loopEnds nexts count] at more
      obtain ⟨m, lines⟩ : ∃ m, loops - closing.length - owns.length = m + 1 :=
        ⟨loops - closing.length - owns.length - 1, by omega⟩
      obtain ⟨l, rest, later, atEnd⟩ := exists_laterLexemes version m
      rw [lines, laterLexemes_succ, later] at place
      rw [nothing] at stands
      refine (next_reads atEnd (stands_next place stands closes)).mono fun found t read => ?_
      obtain ⟨own, rfl, alike, start, after, moved⟩ := read
      have bare : own.loopVariables.items = [] := List.forall₂_nil_right_iff.1 alike
      have one : own.leftOver 1 = none := if_neg (by simp [bare])
      have fewer : loops - closing.length - (owns.length + 1) = m := by omega
      have nexts' := nexts.concat bare start moved
      have closings : Closings version closing loops t.here _ _ _ :=
        .own nexts' count (Nat.le_of_not_lt unused)
      rw [fewer, later] at closings
      rw [one] at after
      simp only [bare, List.getElem?_nil]
      exact ⟨_, _, _, closings, .inl rfl, after⟩

end Parse

end VisualBasic
