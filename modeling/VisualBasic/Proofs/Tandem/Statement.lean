import VisualBasic.Parse.SimpleStatement
import VisualBasic.Proofs.Tandem.Signature

/-!
Statements of one line, and the lines that end a block or start its next part, are read alike in
two texts.
-/

set_option autoImplicit false

namespace VisualBasic

namespace Paired

open Parse

variable {β : Type} [Relocate β] {c : Seam} {m : Option ParseState} {k : Bound} {X Y : ParseState}
  {g : β → TokenKind → Prop} {R : ParseState → ParseState → Prop}

/-- A rule looks at a token within a line. -/
theorem peekInside {f f' : Token → Parse β} (near : Paired c m k X Y)
    (inside : X.kind.endsLine = false)
    (next : Tracked c g R (f X.current) (f' (relocate c.carry X.current)) X Y) :
    Tracked c g R (Parse.peek >>= f) (Parse.peek >>= f') X Y := by
  rw [← near.current_eq inside] at next
  exact .step rfl rfl (.refl X Y) next

theorem eatContextual {word : Keyword} {f f' : Option Token → Parse β}
    (near : Paired c m (k + 1) X Y)
    (without : Tracked c g R (f none) (f' none) X Y)
    (eaten : ∀ X' Y', Paired c m k X' Y' →
      Tracked c g R (f (some X.current)) (f' (some (relocate c.carry X.current))) X' Y') :
    Tracked c g R (Parse.eatContextual word >>= f) (Parse.eatContextual word >>= f') X Y := by
  have run (s : ParseState) : (Parse.eatContextual word).run s =
      if s.current.isContextual word then (some s.current, s.advance) else (none, s) := by
    show (ite (s.current.isContextual word = true) _ _ : Parse (Option Token)).run s = _
    split <;> rfl
  have same := near.isContextual word
  by_cases present : X.current.isContextual word = true
  · have inside : X.kind.endsLine = false := by
      cases ends : X.kind.endsLine with
      | false => rfl
      | true => rw [Token.isContextual_eq_false ends] at present; cases present
    obtain ⟨after, paced, -⟩ := near.advanced inside
    have next := eaten _ _ after
    rw [← near.current_eq inside] at next
    refine .step ((run X).trans (if_pos present)) ((run Y).trans (if_pos ?_)) paced next
    rw [same, present]
  · refine .step ((run X).trans (if_neg present)) ((run Y).trans (if_neg ?_)) (.refl X Y) without
    rwa [same]

end Paired

namespace Twin

open Parse

variable {c : Seam} {X Y : ParseState}

theorem integerOf? (twin : Twin c X Y) :
    Parse.integerOf? Y.current = Parse.integerOf? X.current := by
  rcases twin.current with same | ⟨cut, here, there⟩
  · rw [same]
    rfl
  · unfold Parse.integerOf?
    rw [here, there, Lexeme.eq_endOfStream c.ends, Lexeme.eq_lineTerminator cut]

/-- The number behind a token. -/
theorem integerAfter (twin : Twin c X Y) (inside : X.kind.endsLine = false) :
    Y.following.head?.bind Parse.integerOf? = X.following.head?.bind Parse.integerOf? := by
  have goesOn : X.kind ≠ .endOfStream := fun ends => by simp [ends, TokenKind.endsLine] at inside
  obtain ⟨x, xs, y, ys, follows, follows', -, ahead⟩ := twin.follows goesOn
  have ahead := ahead.tail (t := X.current) inside
  rw [follows, follows']
  show Parse.integerOf? y = Parse.integerOf? x
  rcases ahead.cons_cases with ⟨here, -, there, -⟩ | ⟨-, -, same, -⟩
  · rcases c.joint with cut | ⟨same, -⟩
    · unfold Parse.integerOf?
      rw [here, there, Lexeme.eq_endOfStream c.ends, Lexeme.eq_lineTerminator cut]
    · rw [here, there, same]
      rfl
  · rw [same]
    rfl

theorem startsOperand (twin : Twin c X Y) : Parse.startsOperand Y = Parse.startsOperand X := by
  unfold Parse.startsOperand
  rcases twin.kind_cases with inside | ends | breaks
  · rw [twin.kind_eq inside, (twin.kindAfter inside).beq rfl]
  · rcases twin.endsToo ends with ends' | breaks
    · rw [ends, ends']
      rfl
    · rw [ends, breaks]
      rfl
  · rw [twin.kind_eq_of_break breaks, breaks]
    rfl

end Twin

namespace Parse

variable {c : Seam} {o : ParseState} {k : Bound} {r r' : Rules} {X Y : ParseState}

-- Labels and jumps

theorem lineNumber_tracks (near : Near c o k X Y) (inside : X.kind.endsLine = false) :
    Tracks c o k lineNumber lineNumber X Y := by
  refine near.peekInside inside (Paired.get ?_)
  rw [near.toKin.atLineStart]
  split
  · exact (label_tracks near).bind fun label X Y near => near.pure rfl
  · refine near.report (fun _ => rfl) fun X Y _ near => ?_
    exact (label_tracks near).bind fun label X Y near => near.pure rfl

theorem goToStatement_tracks (near : Near c o k X Y) (inside : X.kind.endsLine = false) :
    Tracks c o k goToStatement goToStatement X Y := by
  refine near.up.read inside fun X Y near => ?_
  refine (label_tracks near).bind fun target X Y near => ?_
  exact (near.endStatement rfl).bind fun span X Y near => near.pure rfl

theorem namedBlock_tracks {ofKind? : TokenKind → Option BlockKind} {problem : Problem}
    (near : Near c o k X Y) (breaks : ofKind? .lineTerminator = none)
    (ends : ofKind? .endOfStream = none) (remark : ofKind? .comment = none) :
    Tracks c o k (namedBlock ofKind? problem) (namedBlock ofKind? problem) X Y := by
  refine near.peekKind (by rw [ends, breaks]) ?_
  split
  next block word =>
    exact near.up.skip (TokenKind.inside_of word breaks ends remark) fun X Y near => near.pure rfl
  next => exact near.reportUnexpected fun X Y _ near => near.pure rfl

theorem exitStatement_tracks (near : Near c o k X Y) (inside : X.kind.endsLine = false) :
    Tracks c o k exitStatement exitStatement X Y := by
  refine near.up.read inside fun X Y near => ?_
  refine (namedBlock_tracks near rfl rfl rfl).bind fun block X Y near => ?_
  refine (near.endStatement rfl).bind fun span X Y near => near.pure ?_
  cases block <;> rfl

theorem continueStatement_tracks (near : Near c o k X Y) (inside : X.kind.endsLine = false) :
    Tracks c o k continueStatement continueStatement X Y := by
  refine near.up.read inside fun X Y near => ?_
  refine (namedBlock_tracks near rfl rfl rfl).bind fun block X Y near => ?_
  refine (near.endStatement rfl).bind fun span X Y near => near.pure ?_
  cases block <;> rfl

theorem stopStatement_tracks (near : Near c o k X Y) (inside : X.kind.endsLine = false) :
    Tracks c o k stopStatement stopStatement X Y := by
  refine near.up.read inside fun X Y near => ?_
  exact (near.endStatement rfl).bind fun span X Y near => near.pure rfl

theorem endProgram_tracks (near : Near c o k X Y) (inside : X.kind.endsLine = false) :
    Tracks c o k endProgram endProgram X Y := by
  refine near.up.read inside fun X Y near => near.atStatementEnd ?_
  cases X.atStatementEnd with
  | true => exact near.pure rfl
  | false =>
    refine near.reportUnexpected fun X Y _ near => ?_
    exact near.resync.bind fun _ X Y near => near.pure rfl

theorem optionalOperand_tracks {build : Option Expression → Span → Statement}
    (agree : r.Agree c k r') (near : Near c o k X Y) (inside : X.kind.endsLine = false)
    (moves : ∀ e s, build (relocate c.carry e) (relocate c.carry s) = relocate c.carry (build e s)) :
    Tracks c o k (optionalOperand r build) (optionalOperand r' build) X Y := by
  refine near.up.read inside fun X Y near => near.atStatementEnd ?_
  refine (near.optionally rfl fun _ => agree.value near).bind fun operand X Y near => ?_
  exact (near.endStatement rfl).bind fun span X Y near => near.pure (moves _ _)

theorem raiseError_tracks (agree : r.Agree c k r') (near : Near c o k X Y)
    (inside : X.kind.endsLine = false) : Tracks c o k (raiseError r) (raiseError r') X Y := by
  refine near.up.read inside fun X Y near => ?_
  refine (agree.value near).bind fun operand X Y near => ?_
  exact (near.endStatement rfl).bind fun span X Y near => near.pure rfl

theorem obsoleteJump_tracks (near : Near c o k X Y) (inside : X.kind.endsLine = false) :
    Tracks c o k obsoleteJump obsoleteJump X Y := by
  refine near.peekInside inside ?_
  refine near.report (fun _ => rfl) fun X' Y' same near => ?_
  refine near.up.skip (ParseState.kind_of_ahead same ▸ inside) fun X Y near => ?_
  refine near.skipStatement.bind fun _ X Y near => ?_
  exact (near.spanFrom rfl).bind fun span X Y near => near.pure rfl

-- Errors

theorem handlerTarget_tracks (near : Near c o k X Y) :
    Tracks c o k handlerTarget handlerTarget X Y := by
  have sign : (Y.kind = .mark .minus ∧ Y.following.head?.bind integerOf? = some 1) ↔
      (X.kind = .mark .minus ∧ X.following.head?.bind integerOf? = some 1) := by
    rw [near.kind.eq_iff rfl]
    refine and_congr_right fun minus => ?_
    rw [near.integerAfter (Paired.endsLine_of rfl minus)]
  refine Paired.get ?_
  rw [near.integerOf?, if_congr sign rfl rfl]
  split
  next zero => exact near.up.skip (inside_of_integerOf? zero) fun X Y near => near.pure rfl
  next =>
    split
    next negative =>
      obtain ⟨minus, one⟩ := negative
      have inside : X.kind.endsLine = false := by
        rw [minus]
        rfl
      refine near.up.skipOver inside fun X' Y' behind near => ?_
      refine near.up.skip ?_ fun X Y near => near.pure rfl
      rw [behind, ParseState.kindAfter]
      cases next : X.following.head? with
      | none => simp [next] at one
      | some t => exact inside_of_integerOf? (by simpa [next] using one)
    next => exact (label_tracks near).bind fun label X Y near => near.pure rfl

theorem onErrorAction_tracks (near : Near c o k X Y) :
    Tracks c o k onErrorAction onErrorAction X Y := by
  refine near.peekKind rfl ?_
  split
  next word => exact near.up.skipSolid word rfl fun X Y near => handlerTarget_tracks near
  next word =>
    refine near.up.skipSolid word rfl fun X Y near => ?_
    refine (near.expect rfl).bind fun found X Y near => ?_
    cases found with
    | some token => exact near.pure rfl
    | none => exact near.pure rfl
  next => exact near.reportUnexpected fun X Y _ near => near.pure rfl

theorem onErrorStatement_tracks (near : Near c o k X Y) (inside : X.kind.endsLine = false) :
    Tracks c o k onErrorStatement onErrorStatement X Y := by
  refine near.up.read inside fun X Y near => ?_
  refine (near.expect rfl).bind fun found X Y near => ?_
  cases found with
  | none =>
    refine near.resync.bind fun _ X Y near => ?_
    exact (near.spanFrom rfl).bind fun span X Y near => near.pure rfl
  | some token =>
    refine (onErrorAction_tracks near).bind fun action X Y near => ?_
    exact (near.endStatement rfl).bind fun span X Y near => near.pure rfl

theorem resumeTarget_tracks (near : Near c o k X Y) :
    Tracks c o k resumeTarget resumeTarget X Y := by
  refine near.up.eat rfl (fun _ => near.atStatementEnd ?_) fun _ X Y near => near.pure rfl
  cases X.atStatementEnd with
  | true => exact near.pure rfl
  | false => exact (label_tracks near).bind fun label X Y near => near.pure rfl

theorem resumeStatement_tracks (near : Near c o k X Y) (inside : X.kind.endsLine = false) :
    Tracks c o k resumeStatement resumeStatement X Y := by
  refine near.up.read inside fun X Y near => ?_
  refine (resumeTarget_tracks near).bind fun target X Y near => ?_
  exact (near.endStatement rfl).bind fun span X Y near => near.pure rfl

-- Assignments and calls

theorem regroup?_relocate (g : Location → Location) (e : Expression) :
    regroup? (relocate g e) = relocate g (regroup? e) := by
  cases e with
  | callOrIndex target arguments span =>
    rw [relocate_callOrIndex]
    obtain ⟨openParen, ⟨items, separators, list⟩, close, own⟩ := arguments
    rcases items with _ | ⟨⟨name, colonEquals, value, place⟩, _ | ⟨second, rest⟩⟩
    · rfl
    · cases name <;> cases value <;> rfl
    · cases name <;> cases value <;> rfl
  | newObject t a s => cases a <;> rfl
  | _ => rfl

theorem callArguments_tracks (agree : r.Agree c k r') (near : Near c o k X Y)
    (target : Expression) :
    Tracks c o k (callArguments r target) (callArguments r' (relocate c.carry target)) X Y := by
  have bare {X Y : ParseState} (near : Near c o k X Y) :
      Tracks c o k
        (bareArguments r >>= fun arguments => pure (target, some arguments))
        (bareArguments r' >>= fun arguments => pure (relocate c.carry target, some arguments))
        X Y :=
    (bareArguments_tracks agree near).bind fun arguments X Y near => near.pure rfl
  unfold callArguments
  rw [regroup?_relocate]
  refine near.check rfl (fun _ => ?_) fun _ => ?_
  · cases regroup? target with
    | none => exact bare near
    | some found =>
      obtain ⟨callee, first⟩ := found
      refine (bareArgumentsFrom_tracks agree near first).bind fun arguments X Y near => ?_
      exact near.pure rfl
  · cases regroup? target <;> exact bare near

/-- A call, from the end of its target. -/
theorem called_tracks (agree : r.Agree c k r') (near : Near c o k X Y) (target : Expression)
    (start : Location) :
    Tracks c o k
      (do
        let (target, arguments) ←
          if (← atStatementEnd) || target.isBad then pure (target, none)
          else callArguments r target
        return Statement.call ⟨none, target, arguments, ← endStatement start⟩)
      (do
        let (target, arguments) ←
          if (← atStatementEnd) || target.isBad then pure (relocate c.carry target, none)
          else callArguments r' (relocate c.carry target)
        return Statement.call ⟨none, target, arguments, ← endStatement (c.carry start)⟩)
      X Y := by
  refine near.atStatementEnd ?_
  split
  · refine (near.pure rfl).bind ?_
    rintro ⟨target, arguments⟩ X Y near
    exact (near.endStatement rfl).bind fun span X Y near => near.pure rfl
  · refine (callArguments_tracks agree near target).bind ?_
    rintro ⟨target, arguments⟩ X Y near
    exact (near.endStatement rfl).bind fun span X Y near => near.pure rfl

theorem assignmentOrCall_tracks (agree : r.Agree c k r') (near : Near c o k X Y) :
    Tracks c o k (assignmentOrCall r) (assignmentOrCall r') X Y := by
  refine ((operand_tracks agree near.up).within near).bind fun target X Y near => ?_
  rw [Expression.span_relocate, Expression.isBad_relocate]
  refine near.peek ?_ fun x y ends breaks _ _ => ?_
  · rw [Token.kind_relocate]
    split
    next equals =>
      refine near.up.skipSolid equals rfl fun X Y near => ?_
      refine (agree.value near).bind fun source X Y near => ?_
      exact (near.endStatement rfl).bind fun span X Y near => near.pure rfl
    next =>
      split
      next op sign =>
        refine near.up.skip (TokenKind.inside_of sign rfl rfl rfl) fun X Y near => ?_
        refine (agree.value near).bind fun source X Y near => ?_
        exact (near.endStatement rfl).bind fun span X Y near => near.pure rfl
      next => exact called_tracks agree near target _
  · simp only [Token.kind, Lexeme.kind, ends, breaks]
    exact called_tracks agree near target _

theorem callStatement_tracks (agree : r.Agree c k r') (near : Near c o k X Y)
    (inside : X.kind.endsLine = false) : Tracks c o k (callStatement r) (callStatement r') X Y := by
  refine near.up.read inside fun X Y near => ?_
  refine ((operand_tracks agree near.up).within near).bind fun target X Y near => ?_
  exact (near.endStatement rfl).bind fun span X Y near => near.pure rfl

theorem keywordAssignment_tracks (agree : r.Agree c k r') (near : Near c o k X Y)
    (inside : X.kind.endsLine = false) :
    Tracks c o k (keywordAssignment r) (keywordAssignment r') X Y := by
  refine near.up.read inside fun X Y near => ?_
  refine ((operand_tracks agree near.up).within near).bind fun target X Y near => ?_
  refine (near.expectPlace rfl).bind fun found X Y near => ?_
  extract_lets rest rest'
  have assigned (equals : Location) (X Y : ParseState) (near : Near c o k X Y) :
      Tracks c o k (rest equals) (rest' (c.carry equals)) X Y := by
    refine (agree.value near).bind fun source X Y near => ?_
    exact (near.endStatement rfl).bind fun span X Y near => near.pure rfl
  cases found with
  | some place => exact (near.pure rfl).bind assigned
  | none => exact near.placeholder.bind assigned

theorem midAssignment_tracks (agree : r.Agree c k r') (near : Near c o k X Y)
    (starts : X.atMidAssignment = true) :
    Tracks c o k (midAssignment r) (midAssignment r') X Y := by
  obtain ⟨named, behind⟩ := Bool.and_eq_true_iff.1 starts
  have named := (Bool.and_eq_true_iff.1 named).1
  have inside : X.kind.endsLine = false := by
    cases ends : X.kind.endsLine with
    | false => rfl
    | true => rw [Token.isContextual_eq_false ends] at named; cases named
  have parenthesis : X.kindAfter = .mark .leftParenthesis := by
    unfold ParseState.kindAfter
    cases follows : X.following with
    | nil => simp [follows, Lookahead.kindBehindGroup?] at behind
    | cons t rest =>
      by_contra other
      have other : t.kind ≠ .mark .leftParenthesis := other
      simp [follows, Lookahead.kindBehindGroup?, other] at behind
  have symbol : (relocate c.carry X.current).typeCharacter = X.current.typeCharacter := rfl
  refine near.up.readOver inside fun X' Y' kind near => ?_
  refine near.up.skip (Paired.endsLine_of rfl (kind.trans parenthesis)) fun X Y near => ?_
  refine (agree.value near).bind fun target X Y near => ?_
  refine (near.expect rfl).bind fun _ X Y near => ?_
  refine (agree.value near).bind fun start X Y near => ?_
  refine (near.whenEaten rfl fun X Y near => agree.value near).bind fun length X Y near => ?_
  refine near.closeParenthesis.bind fun _ X Y near => ?_
  refine (near.expect rfl).bind fun _ X Y near => ?_
  refine (agree.value near).bind fun source X Y near => ?_
  refine (near.endStatement rfl).bind fun span X Y near => near.pure ?_
  rw [symbol]
  rfl

-- Other statements of one line

theorem localDeclaration_tracks (agree : r.Agree c k r') (near : Near c o k X Y) :
    Tracks c o k (localDeclaration r) (localDeclaration r') X Y := by
  refine near.here ?_
  refine (modifiers_tracks near).bind fun modifiers X Y near => ?_
  refine (checkModifiers_tracks near modifiers _).bind fun _ X Y near => ?_
  refine (variableDeclarators_tracks agree near true).bind fun declarators X Y near => ?_
  exact (near.endStatement rfl).bind fun span X Y near => near.pure rfl

theorem raiseEvent_tracks (agree : r.Agree c k r') (near : Near c o k X Y)
    (inside : X.kind.endsLine = false) : Tracks c o k (raiseEvent r) (raiseEvent r') X Y := by
  refine near.up.read inside fun X Y near => ?_
  refine (identifier_tracks near).bind fun name X Y near => ?_
  refine near.optionallyAt rfl (fun parenthesis => argumentList_tracks agree near.up
    (Paired.endsLine_of rfl parenthesis)) fun arguments X Y near => ?_
  exact (near.endStatement rfl).bind fun span X Y near => near.pure rfl

theorem handlerStatement_tracks (agree : r.Agree c k r') (near : Near c o k X Y)
    (inside : X.kind.endsLine = false) (adds : Bool) :
    Tracks c o k (handlerStatement r adds) (handlerStatement r' adds) X Y := by
  refine near.up.read inside fun X Y near => ?_
  refine (agree.value near).bind fun event X Y near => ?_
  refine (near.expectPlace rfl).bind fun comma X Y near => ?_
  refine (agree.value near).bind fun handler X Y near => ?_
  exact (near.endStatement rfl).bind fun span X Y near => near.pure rfl

theorem values_tracks (agree : r.Agree c k r') (near : Near c o k X Y) :
    Tracks c o k (values r) (values r') X Y :=
  near.commaList (Expression.span_relocate _) fun _ _ near => agree.value near

theorem reDimStatement_tracks (agree : r.Agree c k r') (near : Near c o k X Y)
    (inside : X.kind.endsLine = false) :
    Tracks c o k (reDimStatement r) (reDimStatement r') X Y := by
  refine near.up.read inside fun X Y near => ?_
  refine near.up.eatContextual ?_ fun X Y near => ?_
  all_goals
    refine (values_tracks agree near).bind fun arrays X Y near => ?_
    exact (near.endStatement rfl).bind fun span X Y near => near.pure rfl

theorem eraseStatement_tracks (agree : r.Agree c k r') (near : Near c o k X Y)
    (inside : X.kind.endsLine = false) :
    Tracks c o k (eraseStatement r) (eraseStatement r') X Y := by
  refine near.up.read inside fun X Y near => ?_
  refine (values_tracks agree near).bind fun arrays X Y near => ?_
  exact (near.endStatement rfl).bind fun span X Y near => near.pure rfl

-- The ends and parts of blocks

-- The tokens of a terminator stand on one line.

theorem inside_of_terminator? {t : Terminator} (starts : X.terminator? = some t) :
    X.kind.endsLine = false := by
  unfold ParseState.terminator? at starts
  generalize X.kind = kind at starts ⊢
  cases kind with
  | lineTerminator | endOfStream | comment => cases starts
  | _ => rfl

theorem inside_behind_end {kind : BlockKind} (starts : X.terminator? = some (.endOf kind))
    (other : X.kind ≠ .word .kwWend) : X.kindAfter.endsLine = false := by
  unfold ParseState.terminator? Lookahead.terminator? at starts
  split at starts
  next =>
    obtain ⟨block, found, -⟩ := Option.map_eq_some_iff.1 starts
    exact TokenKind.inside_of found rfl rfl rfl
  next wend => exact absurd wend other
  all_goals first | cases starts | (split at starts <;> cases starts)

theorem inside_behind_else (starts : X.terminator? = some .elseIf) (word : X.kind = .word .kwElse) :
    X.kindAfter.endsLine = false := by
  unfold ParseState.terminator? at starts
  rw [word] at starts
  unfold Lookahead.terminator? at starts
  dsimp only at starts
  split at starts
  next isIf => rw [isIf]; rfl
  next => cases starts

theorem inside_behind_case (starts : X.terminator? = some .caseElse) :
    X.kindAfter.endsLine = false := by
  unfold ParseState.terminator? Lookahead.terminator? at starts
  split at starts
  next =>
    obtain ⟨block, -, same⟩ := Option.map_eq_some_iff.1 starts
    cases same
  all_goals try cases starts
  · split at starts <;> cases starts
  · split at starts
    next isElse => rw [isElse]; rfl
    next => cases starts

theorem endBlock_tracks (near : Near c o (k + 1) X Y) {kind : BlockKind}
    (starts : X.terminator? = some (.endOf kind)) :
    Tracks c o k (endBlock kind) (endBlock kind) X Y := by
  refine near.readOver (inside_of_terminator? starts) fun X' Y' after near => ?_
  rw [Token.kind_relocate]
  split
  · exact (near.endStatement rfl).bind fun span X Y near => near.pure rfl
  next other =>
    refine near.up.skip (after ▸ inside_behind_end starts other) fun X Y near => ?_
    exact (near.endStatement rfl).bind fun span X Y near => near.pure rfl

theorem wordLine_tracks (near : Near c o (k + 1) X Y) (inside : X.kind.endsLine = false) :
    Tracks c o k wordLine wordLine X Y :=
  near.read inside fun _ _ near => near.endStatement rfl

theorem expectThen_tracks (near : Near c o k X Y) (thenKeyword : Option Location) :
    Tracks c o k (expectThen thenKeyword) (expectThen (relocate c.carry thenKeyword)) X Y := by
  have absent : (relocate c.carry thenKeyword).isNone = thenKeyword.isNone := by
    cases thenKeyword <;> rfl
  unfold expectThen
  rw [absent]
  refine near.atStatementEnd ?_
  split
  · refine near.reportUnexpected fun X Y _ near => ?_
    exact near.resync
  · exact near.pure rfl

theorem elseIfLine_tracks (agree : r.Agree c k r') (near : Near c o (k + 1) X Y)
    (starts : X.terminator? = some .elseIf) :
    Tracks c o k (elseIfLine r) (elseIfLine r') X Y := by
  refine near.readOver (inside_of_terminator? starts) fun X' Y' after near => ?_
  rw [Token.kind_relocate]
  extract_lets rest rest'
  have condition {X Y : ParseState} (near : Near c o k X Y) :
      Tracks c o k (rest ()) (rest' ()) X Y := by
    refine (agree.value near).bind fun condition X Y near => ?_
    refine (near.eatenPlace rfl).bind fun thenKeyword X Y near => ?_
    refine (expectThen_tracks near thenKeyword).bind fun _ X Y near => ?_
    exact (near.endStatement rfl).bind fun span X Y near => near.pure rfl
  split
  next word =>
    exact near.up.skip (after ▸ inside_behind_else starts word) fun X Y near => condition near
  next => exact condition near

theorem loopCondition_tracks (agree : r.Agree c k r') (near : Near c o k X Y) :
    Tracks c o k (loopCondition r) (loopCondition r') X Y := by
  have missing {X Y : ParseState} (near : Near c o k X Y) :
      Tracks c o k
        (do
          unless ← atStatementEnd do
            reportUnexpected .expectedWhileOrUntil
            resync []
          return (none : Option LoopCondition))
        (do
          unless ← atStatementEnd do
            reportUnexpected .expectedWhileOrUntil
            resync []
          return none) X Y := by
    refine near.atStatementEnd ?_
    cases X.atStatementEnd with
    | true => exact near.pure rfl
    | false =>
      refine near.reportUnexpected fun X Y _ near => ?_
      exact near.resync.bind fun _ X Y near => near.pure rfl
  refine near.peek ?_ fun x y ends breaks _ _ => ?_
  · have word : (relocate c.carry X.current).isContextual .kwUntil =
        X.current.isContextual .kwUntil := rfl
    rw [Token.kind_relocate, word]
    dsimp only
    split
    next starts =>
      have inside : X.kind.endsLine = false := by
        cases ends : X.kind.endsLine with
        | false => rfl
        | true =>
          have ends : X.current.kind.endsLine = true := ends
          rw [Token.isContextual_eq_false ends, Bool.or_false] at starts
          rw [beq_iff_eq.1 starts] at ends
          cases ends
      refine near.up.skip inside fun X Y near => ?_
      refine (agree.value near).bind fun condition X Y near => ?_
      exact (near.spanFrom rfl).bind fun span X Y near => near.pure rfl
    next => exact missing near
  · have none {t : Token} (ends : t.kind.endsLine = true) (other : t.kind ≠ .word .kwWhile) :
        (t.kind == .word .kwWhile || t.isContextual .kwUntil) = false := by
      rw [Token.isContextual_eq_false ends, Bool.or_false]
      exact beq_eq_false_iff_ne.2 other
    have here : x.kind = .endOfStream := by rw [Token.kind, ends]; rfl
    have there : y.kind = .lineTerminator := by rw [Token.kind, breaks]; rfl
    dsimp only
    rw [none (t := x) (by rw [here]; rfl) (by simp [here]),
      none (t := y) (by rw [there]; rfl) (by simp [there])]
    exact missing near

theorem loopLine_tracks (agree : r.Agree c k r') (near : Near c o (k + 1) X Y)
    (inside : X.kind.endsLine = false) : Tracks c o k (loopLine r) (loopLine r') X Y := by
  refine near.read inside fun X Y near => ?_
  refine (loopCondition_tracks agree near).bind fun condition X Y near => ?_
  exact (near.endStatement rfl).bind fun span X Y near => near.pure rfl

theorem nextLine_tracks (agree : r.Agree c k r') (near : Near c o (k + 1) X Y)
    (inside : X.kind.endsLine = false) : Tracks c o k (nextLine r) (nextLine r') X Y := by
  refine near.read inside fun X Y near => near.atStatementEnd ?_
  extract_lets rest rest'
  have ends (named : CommaList Expression) (X Y : ParseState) (near : Near c o k X Y) :
      Tracks c o k (rest named) (rest' (relocate c.carry named)) X Y :=
    (near.endStatement rfl).bind fun span X Y near => near.pure rfl
  split
  · exact near.here ((near.pure rfl).bind ends)
  · exact (values_tracks agree near).bind ends

theorem catchLine_tracks (agree : r.Agree c k r') (near : Near c o (k + 1) X Y)
    (inside : X.kind.endsLine = false) : Tracks c o k (catchLine r) (catchLine r') X Y := by
  refine near.read inside fun X Y near => ?_
  have check (X Y : ParseState) (near : Near c o k X Y) :
      Tracks c o k (check .identifier) (check .identifier) X Y :=
    fun _ => ⟨near.kind.beq rfl, near, .refl X Y⟩
  refine (check X Y near).bind fun named X Y near => ?_
  refine (near.optionally rfl fun _ => identifier_tracks near).bind fun name X Y near => ?_
  extract_lets rest rest'
  have filtered (type : Option TypeName) (X Y : ParseState) (near : Near c o k X Y) :
      Tracks c o k (rest type) (rest' (relocate c.carry type)) X Y := by
    refine (near.whenEaten rfl fun X Y near => agree.value near).bind fun filter X Y near => ?_
    exact (near.endStatement rfl).bind fun span X Y near => near.pure rfl
  cases name with
  | some name =>
    exact (near.whenEaten rfl fun X Y near =>
      (elementType_tracks agree near.up).within near).bind filtered
  | none => exact (near.pure rfl).bind filtered

theorem caseClause_tracks (agree : r.Agree c k r') (near : Near c o k X Y) :
    Tracks c o k (caseClause r) (caseClause r') X Y := by
  refine near.here ?_
  generalize X.current.span.start = start
  refine (near.eatenPlace rfl).bind fun isKeyword X Y near => ?_
  refine near.peekKind rfl ?_
  generalize found : (BinaryOperator.ofKind? X.kind).filter BinaryOperator.isComparison = comparison
  cases comparison with
  | some op =>
    have sign := (Option.filter_eq_some_iff.1 found).1
    refine near.up.skip (TokenKind.inside_of sign rfl rfl rfl) fun X Y near => ?_
    refine (agree.value near).bind fun operand X Y near => ?_
    exact (near.spanFrom rfl).bind fun span X Y near => near.pure rfl
  | none =>
    cases isKeyword with
    | some place =>
      refine near.reportUnexpected fun X Y _ near => ?_
      refine near.placeholder.bind fun place X Y near => ?_
      exact (near.spanFrom rfl).bind fun span X Y near => near.pure rfl
    | none =>
      refine (agree.value near).bind fun lower X Y near => ?_
      refine (near.eatenPlace rfl).bind fun toKeyword X Y near => ?_
      cases toKeyword with
      | none => exact near.pure rfl
      | some place =>
        refine (agree.value near).bind fun upper X Y near => ?_
        exact (near.spanFrom rfl).bind fun span X Y near => near.pure rfl

theorem caseLine_tracks (agree : r.Agree c k r') (near : Near c o (k + 1) X Y)
    (inside : X.kind.endsLine = false) : Tracks c o k (caseLine r) (caseLine r') X Y := by
  refine near.read inside fun X Y near => ?_
  refine (near.commaList (CaseClause.span_relocate _) fun X Y near =>
    caseClause_tracks agree near).bind fun clauses X Y near => ?_
  exact (near.endStatement rfl).bind fun span X Y near => near.pure rfl

theorem caseElseLine_tracks (near : Near c o (k + 1) X Y) (starts : X.terminator? = some .caseElse) :
    Tracks c o k caseElseLine caseElseLine X Y := by
  refine near.readOver (inside_of_terminator? starts) fun X' Y' after near => ?_
  exact near.up.skip (after ▸ inside_behind_case starts) fun _ _ near => near.endStatement rfl

theorem strayTerminator_tracks (agree : r.Agree c k r') (near : Near c o k X Y) {t : Terminator}
    (starts : X.terminator? = some t) :
    Tracks c o k (strayTerminator r t) (strayTerminator r' t) X Y := by
  have inside := inside_of_terminator? starts
  refine near.peekInside inside (near.report (fun _ => rfl) fun X' Y' same near => ?_)
  have starts := (ParseState.terminator?_of_ahead same).trans starts
  have inside := inside_of_terminator? starts
  cases t with
  | endOf kind => exact (endBlock_tracks near.up starts).bind fun _ _ _ near => near.pure rfl
  | loop => exact (loopLine_tracks agree near.up inside).bind fun _ _ _ near => near.pure rfl
  | next => exact (nextLine_tracks agree near.up inside).bind fun _ _ _ near => near.pure rfl
  | elseIf => exact (elseIfLine_tracks agree near.up starts).bind fun _ _ _ near => near.pure rfl
  | elsePart => exact (wordLine_tracks near.up inside).bind fun _ _ _ near => near.pure rfl
  | case => exact (caseLine_tracks agree near.up inside).bind fun _ _ _ near => near.pure rfl
  | caseElse => exact (caseElseLine_tracks near.up starts).bind fun _ _ _ near => near.pure rfl
  | catchPart => exact (catchLine_tracks agree near.up inside).bind fun _ _ _ near => near.pure rfl
  | finallyPart => exact (wordLine_tracks near.up inside).bind fun _ _ _ near => near.pure rfl

end Parse

end VisualBasic
