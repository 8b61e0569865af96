import VisualBasic.Parse.Source
import VisualBasic.Proofs.Parse.Rule

/-!
Recovery.  Tokens that are discarded after a problem lie within the statement: discarding stops no
later than the statement ends.  It passes such an end only at the `End If` of a single-line `If`,
where it does not take `End` for one and goes on to the `If` behind it.
-/

set_option autoImplicit false

namespace VisualBasic

namespace ParseState

variable {s : ParseState}

/-- The parser some tokens further. -/
def after (s : ParseState) : Nat → ParseState
  | 0 => s
  | count + 1 => s.advance.after count

theorem remaining_advance (s : ParseState) : s.advance.remaining = s.remaining - 1 := by
  unfold remaining
  cases follows : s.following with
  | nil => simp [advance_of_nil follows, follows]
  | cons t rest => simp [advance_of_cons follows, noteComments]

theorem after_of_nil (last : s.following = []) (count : Nat) : s.after count = s := by
  induction count with
  | zero => rfl
  | succ count ih => rw [after, advance_of_nil last, ih]

/-- The last token is not passed. -/
theorem after_min_remaining (s : ParseState) (count : Nat) :
    s.after (min count s.remaining) = s.after count := by
  induction count generalizing s with
  | zero => rw [Nat.zero_min]
  | succ count ih =>
    cases follows : s.following with
    | nil => rw [after_of_nil follows, after_of_nil follows]
    | cons t rest =>
      have more : s.remaining = s.advance.remaining + 1 := by
        rw [remaining_advance, remaining, follows, List.length_cons, Nat.add_sub_cancel]
      rw [more, Nat.add_min_add_right, after, after, ih]

/-- Advancing while a test holds stops at the first token at which it fails. -/
theorem advanceWhile_stops (test : ParseState → Bool) (bound : Nat) (s : ParseState) :
    ∃ count ≤ bound, s.advanceWhile test bound = s.after count ∧
      (∀ k < count, test (s.after k) = true) ∧
      (count < bound → test (s.after count) = false) := by
  induction bound generalizing s with
  | zero => exact ⟨0, Nat.le_refl 0, rfl, fun _ => by omega, fun _ => by omega⟩
  | succ bound ih =>
    cases holds : test s with
    | false => exact ⟨0, Nat.zero_le _, advanceWhile_of_not holds _, fun _ => by omega, fun _ => holds⟩
    | true =>
      obtain ⟨count, within, stops, goesOn, halts⟩ := ih s.advance
      refine ⟨count + 1, Nat.succ_le_succ within, ?_, fun k before => ?_, fun inside => ?_⟩
      · rw [advanceWhile, if_pos holds, stops, after]
      · cases k with
        | zero => exact holds
        | succ k => exact goesOn k (Nat.lt_of_succ_lt_succ before)
      · exact halts (Nat.lt_of_succ_lt_succ inside)

/-- Discarding that has passed as many tokens stops: a keyword that begins a statement counts only
behind another token. -/
def haltsAfter (s : ParseState) (stops : List TokenKind) (count : Nat) : Bool :=
  stopsDiscarding stops (s.after count) || decide (0 < count) && beginsStatement (s.after count).kind

/-- Discarding passes as many tokens, up to the first place where it halts. -/
structure Discards (s : ParseState) (stops : List TokenKind) (count : Nat) : Prop where
  passes : s.resync stops = s.after count
  within : count ≤ s.remaining
  goesOn : ∀ k < count, s.haltsAfter stops k = false
  halts : count < s.remaining → s.haltsAfter stops count = true

theorem exists_discards (s : ParseState) (stops : List TokenKind) :
    ∃ count, s.Discards stops count := by
  cases here : stopsDiscarding stops s with
  | true =>
    refine ⟨0, by rw [resync, if_pos here, after], Nat.zero_le _, fun _ => by omega, fun _ => ?_⟩
    rw [haltsAfter, after, here, Bool.true_or]
  | false =>
    obtain ⟨count, within, passes, goesOn, halts⟩ := advanceWhile_stops
      (fun s => !(stopsDiscarding stops s || beginsStatement s.kind)) s.remaining s.advance
    refine ⟨min (count + 1) s.remaining, ?_, Nat.min_le_right _ _, fun k before => ?_,
      fun inside => ?_⟩
    · rw [resync, if_neg (by rw [here]; exact Bool.false_ne_true), after_min_remaining, after, passes]
    · cases k with
      | zero => simp [haltsAfter, after, here]
      | succ k => simpa [haltsAfter, after] using goesOn k (by omega)
    · have least : min (count + 1) s.remaining = count + 1 := by omega
      have stop := halts (by omega)
      rw [least, haltsAfter, after, decide_eq_true (Nat.succ_pos count), Bool.true_and]
      simpa only [Bool.not_eq_eq_eq_not, Bool.not_false] using stop

theorem stopsDiscarding_end (stops : List TokenKind) (isEnd : s.kind = .word .kwEnd) :
    stopsDiscarding stops s = decide (TokenKind.word .kwEnd ∈ stops) := by
  simp [stopsDiscarding, isEnd]

/-- Where a statement ends discarding stops, unless it is at an `End If`. -/
theorem stopsDiscarding_of_atStatementEnd (stops : List TokenKind)
    (ended : s.atStatementEnd = true) :
    stopsDiscarding stops s = true ∨
      s.kind = .word .kwEnd ∧ 0 < s.remaining ∧ s.advance.kind = .word .kwIf := by
  unfold atStatementEnd at ended
  split at ended
  next mark => simp [stopsDiscarding, mark]
  next mark => simp [stopsDiscarding, mark]
  next mark => simp [stopsDiscarding, mark]
  next isElse => exact .inl (by simpa [stopsDiscarding, isElse] using ended)
  next isEnd =>
    simp only [Bool.and_eq_true, beq_iff_eq, kindAfter] at ended
    cases follows : s.following with
    | nil => simp [follows] at ended
    | cons t rest =>
      rw [follows] at ended
      refine .inr ⟨isEnd, ?_, ?_⟩
      · rw [remaining, follows, List.length_cons]
        exact Nat.succ_pos _
      · rw [advance_of_cons follows]
        exact ended.2
  next => contradiction

namespace Discards

variable {stops : List TokenKind} {count : Nat}

theorem eq_zero (discards : s.Discards stops count) (here : stopsDiscarding stops s = true) :
    count = 0 := by
  by_contra further
  have goesOn := discards.goesOn 0 (Nat.pos_of_ne_zero further)
  rw [haltsAfter, after, here, Bool.true_or] at goesOn
  contradiction

/-- At the end of a statement nothing is discarded, but for an `End` that is none of the tokens to
stop at. -/
theorem of_ended (discards : s.Discards stops count) (ended : s.atStatementEnd = true) :
    count = if s.kind = .word .kwEnd ∧ TokenKind.word .kwEnd ∉ stops then 1 else 0 := by
  by_cases lost : s.kind = .word .kwEnd ∧ TokenKind.word .kwEnd ∉ stops
  · rw [if_pos lost]
    have goesOn : stopsDiscarding stops s = false := by
      rw [stopsDiscarding_end stops lost.1, decide_eq_false lost.2]
    rcases stopsDiscarding_of_atStatementEnd stops ended with stop | ⟨-, more, isIf⟩
    · rw [goesOn] at stop
      contradiction
    · have some : count ≠ 0 := by
        rintro rfl
        have halts := discards.halts more
        simp [haltsAfter, after, goesOn] at halts
      have one : s.haltsAfter stops 1 = true := by
        simp [haltsAfter, after, isIf, beginsStatement]
      have few : ¬ 1 < count := fun further => by
        rw [discards.goesOn 1 further] at one
        contradiction
      omega
  · rw [if_neg lost]
    rcases stopsDiscarding_of_atStatementEnd stops ended with stop | ⟨isEnd, -, -⟩
    · exact discards.eq_zero stop
    · refine discards.eq_zero ?_
      rw [stopsDiscarding_end stops isEnd, decide_eq_true]
      by_contra other
      exact lost ⟨isEnd, other⟩

/-- Where the statement goes on, discarding stops at its end at the latest. -/
theorem of_within (discards : s.Discards stops count) (inside : s.atStatementEnd = false)
    {k : Nat} (ended : (s.after k).atStatementEnd = true) : count ≤ k := by
  by_contra further
  have goesOn := discards.goesOn k (by omega)
  have positive : 0 < k := by
    rcases Nat.eq_zero_or_pos k with rfl | positive
    · rw [after, inside] at ended
      contradiction
    · exact positive
  simp only [haltsAfter, positive, decide_true, Bool.true_and, Bool.or_eq_false_iff] at goesOn
  rcases stopsDiscarding_of_atStatementEnd stops ended with stop | ⟨isEnd, -, -⟩
  · rw [goesOn.1] at stop
    contradiction
  · rw [isEnd] at goesOn
    exact absurd goesOn.2 (by decide)

end Discards

end ParseState

/-- Whatever the state and the tokens to stop at, discarding passes no end of a statement, with one
exception: the `End` of an `End If` that ends a single-line `If` is passed if discarding starts at it
and `End` is none of the tokens to stop at. -/
theorem discarding_keeps_statement_ends (s : ParseState) (stops : List TokenKind) :
    ∃ count, s.Discards stops count ∧
      (s.atStatementEnd = true →
        count = if s.kind = .word .kwEnd ∧ TokenKind.word .kwEnd ∉ stops then 1 else 0) ∧
      (s.atStatementEnd = false → ∀ k, (s.after k).atStatementEnd = true → count ≤ k) := by
  obtain ⟨count, discards⟩ := s.exists_discards stops
  exact ⟨count, discards, discards.of_ended, fun inside _ => discards.of_within inside⟩

/-- An argument list that is not closed in a single-line `If`, with a statement behind it. -/
def openCall : String := "If a Then f(1 End If : b"

/-- The parser in the single-line `If`, before its `End If`. -/
def beforeEndIf : ParseState :=
  { (ParseState.start [] (ScanOptions.standard.tokenize openCall)).after 6 with lineIfDepth := 1 }

/-- The search for the closing parenthesis passes the end of the statement, so the statement behind
the single-line `If` is taken for a part of it. -/
theorem end_if_is_discarded :
    beforeEndIf.atStatementEnd = true ∧
      (beforeEndIf.resync [.mark .rightParenthesis]).kind = .word .kwIf ∧
      (beforeEndIf.resync [.mark .rightParenthesis]).remaining < beforeEndIf.remaining ∧
      (parseScript .standard openCall).tree.statements.statements.length = 1 := by
  decide +kernel

end VisualBasic
