import VisualBasic.Proofs.Loop.Closing

/-!
Loops within loops.  The lines that open them are read on the way in; on the way out every loop takes
its end from the `Next` statements behind the innermost body.
-/

set_option autoImplicit false

namespace VisualBasic

/-- Loops within each other, the outermost first.  Each holds the next and nothing else, the last one
a statement. -/
inductive Nested (core : Statement) : List (ForBlock Statement) → Statement → Prop where
  | nil : Nested core [] core
  | cons {d : ForBlock Statement} {loops : List (ForBlock Statement)} {inner : Statement} :
      d.body.statements = [inner] → Nested core loops inner →
      Nested core (d :: loops) (.forBlock d)

def ForBlock.loopEnd (d : ForBlock Statement) : LoopEnd := (d.ending, d.endingVariable)

namespace Parse

variable {version : Version} {r : Rules} {b : Bodies} {s : ParseState} {l : Lexeme}
  {rest : List Lexeme} {blocks : List OpenBlock} {k loops : Nat} {closing : List SimpleName}
  {ends : List LoopEnd}

theorem ensures_within {α : Type} {p : Parse α} {block : OpenBlock} {Q : α → ParseState → Prop}
    (inside : Ensures p { s with blocks := block :: s.blocks } fun a t =>
      Q a { t with blocks := t.blocks.tail }) : Ensures (within block p) s Q := inside

theorem ensures_moving {α : Type} {p : Parse α} {Q : α → ParseState → Prop}
    (moves : Ensures p s fun a t => Q a t ∧ t.remaining < s.remaining) :
    Ensures (moving p) s Q := by
  refine .get (moves.bind fun a t moved => ?_)
  obtain ⟨holds, fewer⟩ := moved
  refine .get ?_
  rw [if_neg (Nat.ne_of_lt fewer)]
  exact holds

/-- The statements of a loop are the one that stands there, up to the end of the loop. -/
theorem statements_single {P Q : Statement → ParseState → Prop}
    (starts : l.kind = .identifier ∨ l.kind = .word .kwFor)
    (stands : s.Stands (.lineTerminator :: l :: rest) blocks none)
    (outside : blocks.any OpenBlock.isProcedureBody = false)
    (first : Ensures (statement r b) s.advance fun found t =>
      P found t ∧ t.remaining < s.advance.remaining)
    (behind : ∀ found t, P found t → Ensures (separators r) t fun _ u =>
      Q found u ∧ u.ClosesNext ∧
        ∃ block, u.blocks.head? = some block ∧ block.kind.accepts .next = true) :
    Ensures (statements r b) s fun found t =>
      ∃ inner, found.1.statements = [inner] ∧ found.2 = some .next ∧ Q inner t ∧
        t.ClosesNext := by
  obtain ⟨n, length⟩ : ∃ n, s.remaining = n + 1 := by
    have length := stands.remaining
    exact ⟨rest.length, by simpa using length⟩
  have solid : l.kind ∉ [.lineTerminator, .mark .colon, .mark .pound] := by
    rcases starts with starts | starts <;> simp [starts]
  obtain ⟨inside, -⟩ := stands.advance
  have away : s.advance.inProcedure = false := by
    unfold ParseState.inProcedure
    rw [inside.blocks, outside]
  have opens : s.advance.terminator? = none := by
    unfold ParseState.terminator?
    rw [inside.kind]
    rcases starts with starts | starts <;> rw [starts] <;> rfl
  have more : s.advance.kind ≠ .endOfStream := by
    rw [inside.kind]
    rcases starts with starts | starts <;> simp [starts]
  -- one round reads the statement, the next one stops behind it
  have stops (m : Nat) (found : Statement) (t : ParseState) (holds : P found t) :
      Ensures (statementsWithin r b (m + 1)) t fun list u =>
        list.1 = [] ∧ list.2.2 = some .next ∧ Q found u ∧ u.ClosesNext := by
    rw [statementsWithin]
    refine (behind found t holds).bind fun colons u read => ?_
    obtain ⟨holds, closes, block, innermost, accepts⟩ := read
    refine (firstStop_next innermost accepts closes).bind fun step v stays => ?_
    obtain ⟨rfl, rfl⟩ := stays
    exact ⟨rfl, rfl, holds, closes⟩
  have listed : Ensures (statementsWithin r b (n + 2)) s fun list t =>
      ∃ inner, list.1 = [inner] ∧ list.2.2 = some .next ∧ Q inner t ∧ t.ClosesNext := by
    rw [statementsWithin]
    refine (separators_lineEnd solid stands).bind fun colons t moves => ?_
    obtain ⟨-, rfl⟩ := moves
    refine (firstStop_goesOn inside.pending opens more away).bind fun step t stays => ?_
    obtain ⟨rfl, rfl⟩ := stays
    have item : Ensures (listedStatement r b) s.advance P := by
      refine .get ?_
      rw [away]
      exact ensures_moving first
    refine item.bind fun found t holds => (stops n found t holds).bind fun list u read => ?_
    obtain ⟨list, colons', stop⟩ := list
    obtain ⟨rfl, rfl, holds⟩ := read
    exact ⟨found, rfl, rfl, holds⟩
  refine .get ?_
  rw [length]
  refine listed.bind fun list t read => ?_
  obtain ⟨list, colons, stop⟩ := list
  obtain ⟨inner, rfl, rfl, holds⟩ := read
  exact ⟨inner, rfl, rfl, holds⟩

end Parse

/-- The line with the assignment in the innermost loop. -/
def assignmentLexemes (version : Version) (target source : SimpleName) : List Lexeme :=
  [target.lexeme version, .punctuator .equals, source.lexeme version]

/-- The lines for the ends of some loops. -/
def endLexemes (version : Version) (closing : List SimpleName) (loops : Nat) : List Lexeme :=
  .lineTerminator :: (nextLexemes version closing ++ laterLexemes version (loops - closing.length))

/-- The lines from the head of a loop on. -/
def nestLexemes (version : Version) (heads : List LoopHead) (target source : SimpleName)
    (closing : List SimpleName) (loops : Nat) : List Lexeme :=
  (heads.flatMap fun h => h.lexemes version ++ [.lineTerminator]) ++
    (assignmentLexemes version target source ++ endLexemes version closing loops)

theorem exists_nestLexemes (version : Version) (heads : List LoopHead) (target source : SimpleName)
    (closing : List SimpleName) (loops : Nat) :
    ∃ l rest, nestLexemes version heads target source closing loops = l :: rest ∧
      (l.kind = .identifier ∨ l.kind = .word .kwFor) := by
  cases heads with
  | nil => exact ⟨_, _, rfl, .inl rfl⟩
  | cons h heads => exact ⟨_, _, rfl, .inr rfl⟩

theorem length_le_nestLexemes (version : Version) (heads : List LoopHead) (target source : SimpleName)
    (closing : List SimpleName) (loops : Nat) :
    heads.length ≤ (nestLexemes version heads target source closing loops).length := by
  induction heads with
  | nil => exact Nat.zero_le _
  | cons h heads ih =>
    simp only [nestLexemes, List.flatMap_cons, List.length_append, List.length_cons] at ih ⊢
    omega

theorem length_laterLexemes_le {version : Version} {m n : Nat} (fewer : m ≤ n) :
    (laterLexemes version m).length ≤ (laterLexemes version n).length := by
  induction fewer with
  | refl => exact Nat.le_refl _
  | step _ ih =>
    rw [laterLexemes_succ, List.length_cons, List.length_append]
    omega

namespace ParseState.AtClosings

variable {s : ParseState} {version : Version} {closing : List SimpleName} {loops : Nat}
  {block : OpenBlock} {blocks : List OpenBlock} {ends : List LoopEnd}

theorem innermost (before : s.AtClosings version closing loops (block :: blocks) ends) :
    s.blocks.head? = some block := by
  obtain ⟨lines, ls, left, closings, place, stands⟩ := before
  rw [stands.blocks]
  rfl

theorem leave (before : s.AtClosings version closing loops (block :: blocks) ends) :
    { s with blocks := s.blocks.tail }.AtClosings version closing loops blocks ends := by
  obtain ⟨lines, ls, left, closings, place, stands⟩ := before
  exact ⟨lines, ls, left, closings, place, { stands with blocks := by rw [stands.blocks]; rfl }⟩

/-- The lines that are left are among those behind the innermost body. -/
theorem remaining_lt (before : s.AtClosings version closing loops blocks ends) :
    s.remaining < (endLexemes version closing loops).length := by
  obtain ⟨lines, ls, left, closings, place, stands⟩ := before
  have ahead := stands.remaining
  have line : ls.length ≤ lines.length := by
    obtain rfl | rfl := place
    · exact Nat.le_refl _
    · exact Nat.le_succ _
  have all : lines.length ≤ (endLexemes version closing loops).length := by
    cases closings with
    | start => exact Nat.le_refl _
    | goOn nexts count =>
      refine Nat.le_trans (length_laterLexemes_le (Nat.sub_le _ _)) ?_
      rw [endLexemes, List.length_cons, List.length_append]
      omega
  omega

end ParseState.AtClosings

namespace Parse

variable {version : Version} {b : Bodies} {s : ParseState} {blocks : List OpenBlock} {k loops : Nat}
  {heads : List LoopHead} {closing : List SimpleName} {target source : SimpleName}

/-- Loops have been read, each with its end, as far as it stands within them. -/
def ReadsNest (version : Version) (heads : List LoopHead) (target source : SimpleName)
    (closing : List SimpleName) (loops : Nat) (blocks : List OpenBlock) (found : Statement)
    (t : ParseState) : Prop :=
  ∃ ds core, Nested core ds found ∧ List.Forall₂ ForBlock.OpensWith ds heads ∧
    core.Assigns target source ∧
    t.AtClosings version closing loops blocks (ds.reverse.map ForBlock.loopEnd)

/-- A loop with the loops in it: its body ends where it can be closed. -/
theorem forBody_nest {inner : Bodies} (named : closing ≠ []) (more : heads.length < loops)
    (within : b.statements = statements (.ofDepth version (k + 1)) inner) (header : Span)
    (outside : blocks.any OpenBlock.isProcedureBody = false)
    (stands : s.Stands (.lineTerminator :: nestLexemes version heads target source closing loops)
      blocks none)
    (first : ∀ {t : ParseState} {blocks : List OpenBlock},
      blocks.any OpenBlock.isProcedureBody = false →
      t.Stands (nestLexemes version heads target source closing loops) blocks none →
      Ensures (statement (.ofDepth version (k + 1)) inner) t
        (ReadsNest version heads target source closing loops blocks)) :
    Ensures (forBody (.ofDepth version (k + 1)) b header) s fun found t =>
      ∃ ds core body, found.1.statements = [body] ∧ Nested core ds body ∧
        List.Forall₂ ForBlock.OpensWith ds heads ∧ core.Assigns target source ∧
        t.AtClosings version closing loops blocks
          (ds.reverse.map ForBlock.loopEnd ++ [found.2]) := by
  obtain ⟨l, rest, lexemes, starts⟩ :=
    exists_nestLexemes version heads target source closing loops
  have outside' : (⟨.forBlock, header, true⟩ :: blocks).any OpenBlock.isProcedureBody = false := by
    simpa [OpenBlock.isProcedureBody, BlockKind.isProcedure] using outside
  have stands' : { s with blocks := ⟨.forBlock, header, true⟩ :: s.blocks }.Stands
      (.lineTerminator :: nestLexemes version heads target source closing loops)
      (⟨.forBlock, header, true⟩ :: blocks) none :=
    { stands with blocks := congrArg _ stands.blocks }
  refine ensures_within ?_
  generalize { s with blocks := ⟨.forBlock, header, true⟩ :: s.blocks } = u at stands' ⊢
  have behind : u.advance.Stands (nestLexemes version heads target source closing loops)
      (⟨.forBlock, header, true⟩ :: blocks) none :=
    (stands'.advance_of_ne_nil (by simp [lexemes])).1
  have item : Ensures (statement (.ofDepth version (k + 1)) inner) u.advance fun found t =>
      ReadsNest version heads target source closing loops (⟨.forBlock, header, true⟩ :: blocks)
        found t ∧ t.remaining < u.advance.remaining := by
    refine (first outside' behind).mono fun found t read => ⟨read, ?_⟩
    obtain ⟨ds, core, nested, opens, assigns, closings⟩ := read
    have left := closings.remaining_lt
    have before := behind.remaining
    have short : (assignmentLexemes version target source).length = 3 := rfl
    simp only [nestLexemes, List.length_append] at before
    omega
  rw [within]
  rw [lexemes] at stands'
  have body := statements_single (Q := ReadsNest version heads target source closing loops
    (⟨.forBlock, header, true⟩ :: blocks)) starts stands' outside' item fun found t read => ?_
  · refine body.bind fun found t read => ?_
    obtain ⟨body, terminator⟩ := found
    obtain ⟨found, single, rfl, ⟨ds, core, nested, opens, assigns, closings⟩, closes⟩ := read
    have fewer : (ds.reverse.map ForBlock.loopEnd).length < loops := by
      simpa [opens.length_eq] using more
    refine (next_closings fewer named closings closes).bind fun closed t closings => ?_
    exact ⟨ds, core, found, single, nested, opens, assigns, closings.leave⟩
  · obtain ⟨ds, core, nested, opens, assigns, closings⟩ := read
    have fewer : (ds.reverse.map ForBlock.loopEnd).length < loops := by
      simpa [opens.length_eq] using more
    refine (separators_closings fewer closings).mono fun colons t passed => ?_
    obtain ⟨-, closings, closes⟩ := passed
    exact ⟨⟨ds, core, nested, opens, assigns, closings⟩, closes, _, closings.innermost, rfl⟩

theorem statement_nest (named : closing ≠ []) {depth : Nat} (deep : heads.length ≤ depth)
    (few : heads.length ≤ loops) (outside : blocks.any OpenBlock.isProcedureBody = false)
    (stands : s.Stands (nestLexemes version heads target source closing loops) blocks none) :
    Ensures (statement (.ofDepth version (k + 1)) (.ofDepth false (.ofDepth version (k + 1)) depth)) s
      (ReadsNest version heads target source closing loops blocks) := by
  have compiled (depth : Nat) :
      (Bodies.ofDepth false (.ofDepth version (k + 1)) depth).isScript = false := by
    cases depth <;> rfl
  induction heads generalizing s depth blocks with
  | nil =>
    refine (statement_assigns (compiled depth) (.inl rfl) stands).mono fun found t read => ?_
    exact ⟨[], found, .nil, .nil, read.1, _, _, none, .start, .inl rfl, read.2⟩
  | cons h heads ih =>
    obtain ⟨depth, rfl⟩ : ∃ d, depth = d + 1 := ⟨depth - 1, by simp at deep; omega⟩
    simp only [List.length_cons, Nat.add_le_add_iff_right] at deep
    have kind : s.kind = .word .kwFor := stands.kind
    have starts : s.terminator? = none := by
      rw [ParseState.terminator?, kind]
      rfl
    have line : { s with suppressed := false }.Stands (h.lexemes version ++ Lexeme.lineTerminator ::
        nestLexemes version heads target source closing loops) blocks none := by
      simpa [nestLexemes] using stands.begin
    have word : { s with suppressed := false }.kind = .word .kwFor := kind
    refine statement_plain (compiled _) starts (.get ?_)
    rw [word]
    refine (forStatement_opens (.inl rfl) line fun header t behind =>
      forBody_nest named few rfl header outside behind fun outside stands =>
        ih deep (Nat.le_of_lt few) outside stands).mono fun found t read => ?_
    obtain ⟨d, rfl, opens, ds, core, inner, single, nested, heads, assigns, closings⟩ := read
    refine ⟨d :: ds, core, .cons single nested, .cons opens heads, assigns, ?_⟩
    rw [List.reverse_cons, List.map_append]
    exact closings

end Parse

end VisualBasic
