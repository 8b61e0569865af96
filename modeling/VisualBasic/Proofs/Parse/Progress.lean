import VisualBasic.Proofs.Parse.Comments
import VisualBasic.Proofs.Tandem.Source

/-!
Progress.  A loop of the parser is left, or the round that goes on has read a token.  So each loop
ends by itself, whatever the number of rounds it is given, and how deep phrases may nest is no limit
for a text whose tokens are fewer.
-/

set_option autoImplicit false

namespace VisualBasic

-- Loops

section

variable {σ β : Type}

/-- How a round of a loop ends: the loop is left, or there is another round, to whose result
something is added. -/
inductive Turn (σ β : Type) where
  | leave (result : β)
  | again (state : σ) (add : β → β)

namespace Turn

def goesOn : Turn σ β → Bool
  | leave _ => false
  | again _ _ => true

/-- Goes on with a loop unless it is left. -/
def follow (loop : σ → Parse β) : Turn σ β → Parse β
  | leave result => return result
  | again state add => add <$> loop state

end Turn

/-- The parser has not gone back, and has read a token if it goes on. -/
def ReadsOn (s : ParseState) (turn : Turn σ β) (t : ParseState) : Prop :=
  t.ahead <:+ s.ahead ∧ (turn.goesOn = true → t.remaining < s.remaining)

/-- A loop that is made of rounds.  Each of them leaves the loop or reads on, and the loop never runs
out of rounds: more of them than enough change nothing. -/
structure Loops (round : σ → Parse (Turn σ β)) (loop : Nat → σ → Parse β) (enough : Nat)
    (s : ParseState) : Prop where
  unrolls : ∀ n state, loop (n + 1) state = round state >>= Turn.follow (loop n)
  readsOn : ∀ state, Ensures (round state) s (ReadsOn s)
  ends : ∀ n m state, enough ≤ n → enough ≤ m → (loop n state).run s = (loop m state).run s

namespace Loops

variable {round : σ → Parse (Turn σ β)} {loop : Nat → σ → Parse β} {s : ParseState}

/-- Rounds that read on make a loop that ends: each of them leaves fewer tokens to read.  `extra`
rounds more may be needed, to see that there is nothing left. -/
theorem ofRounds (inv : ParseState → Prop) (extra : Nat)
    (unrolls : ∀ n state, loop (n + 1) state = round state >>= Turn.follow (loop n))
    (rounds : ∀ state s, inv s → Ensures (round state) s fun turn t => inv t ∧ ReadsOn s turn t)
    (idle : ∀ state s, inv s → s.remaining + extra = 0 →
      (loop 0 state).run s = (loop 1 state).run s)
    (holds : inv s) : Loops round loop (s.remaining + extra) s := by
  have more (n : Nat) : ∀ state s, inv s → s.remaining + extra ≤ n →
      (loop (n + 1) state).run s = (loop n state).run s := by
    induction n with
    | zero => exact fun state s holds none => (idle state s holds (Nat.le_zero.1 none)).symm
    | succ n ih =>
      intro state s holds enough
      obtain ⟨after, -, fewer⟩ := rounds state s holds
      rw [unrolls (n + 1), unrolls n]
      show (Turn.follow (loop (n + 1)) ((round state).run s).1).run ((round state).run s).2 =
        (Turn.follow (loop n) ((round state).run s).1).run ((round state).run s).2
      cases turn : ((round state).run s).1 with
      | leave => rfl
      | again next add =>
        have fewer := fewer (by rw [turn]; rfl)
        exact congrArg (Prod.map add id) (ih next _ after (by omega))
  have least (n : Nat) (state : σ) (enough : s.remaining + extra ≤ n) :
      (loop n state).run s = (loop (s.remaining + extra) state).run s := by
    induction n, enough using Nat.le_induction with
    | base => rfl
    | succ n enough ih => rw [more n state s holds enough, ih]
  refine ⟨unrolls, fun state => (rounds state s holds).mono fun _ _ facts => facts.2,
    fun n m state enough enough' => ?_⟩
  rw [least n state enough, least m state enough']

end Loops

/-- A run lies behind. -/
theorem ParseState.Runs.readsOn {s t : ParseState} {turn : Turn σ β} (runs : s.Runs t)
    (moved : turn.goesOn = true → t.remaining < s.remaining) : ReadsOn s turn t :=
  ⟨runs.suffix, moved⟩

end

namespace Parse

variable {r : Rules} {b : Bodies} {depth : Nat} {s t : ParseState}

-- Discarding

def pass (test : ParseState → Bool) (n : Nat) (_ : Unit) : Parse Unit :=
  modify fun s => s.advanceWhile test n

/-- A round of discarding; `skipped` says that there was one before. -/
def discardRound (stops : List TokenKind) (skipped : Bool) : Parse (Turn Bool Unit) := do
  let s ← get
  if s.stopsDiscarding stops || skipped && ParseState.beginsStatement s.kind then return .leave ()
  else
    skip
    return .again true id

def discard (stops : List TokenKind) : Nat → Bool → Parse Unit
  | 0, _ => return
  | n + 1, skipped => discardRound stops skipped >>= Turn.follow (discard stops n)

theorem readsOn_leave {σ β : Type} (s : ParseState) (result : β) :
    ReadsOn s (.leave result : Turn σ β) s :=
  ⟨List.suffix_refl _, by simp [Turn.goesOn]⟩

def separatorRound (r : Rules) (_ : Unit) : Parse (Turn Unit (List Location)) := do
  let token ← peek
  match token.kind with
  | .lineTerminator =>
    skip
    return .again () id
  | .mark .colon =>
    skip
    return .again () fun colons => token.span.start :: colons
  | .mark .pound =>
    if (← get).atLineStart then
      directive r
      return .again () id
    else return .leave []
  | _ => return .leave []

theorem separators_unroll (r : Rules) (n : Nat) (state : Unit) :
    separatorsWithin r (n + 1) =
      separatorRound r state >>= Turn.follow fun _ => separatorsWithin r n := by
  rw [separatorsWithin, separatorRound, bind_assoc]
  refine bind_congr fun token => ?_
  generalize token.kind = kind
  split
  · rfl
  · rfl
  · rw [bind_assoc]
    refine bind_congr fun s => ?_
    split
    · rfl
    · rfl
  · simp [Turn.follow]

theorem separators_loop (phrases : r.Sound) (wf : s.Wf) :
    Loops (separatorRound r) (fun n _ => separatorsWithin r n) s.remaining s := by
  refine .ofRounds ParseState.Wf 0 (separators_unroll r) (fun _ s wf => ?_)
    (fun _ s wf none => ?_) wf
  · have passes {turn : Turn Unit (List Location)} (separator : s.current.isSeparator = true) :
        s.advance.Wf ∧ ReadsOn s turn s.advance := by
      have passed := pass_separator wf separator
      have goesOn : s.kind ≠ .endOfStream := kind_ne_of_isSeparator separator (by simp)
      exact ⟨passed.wf, passed.runs.readsOn fun _ => (ParseState.limit_advance wf goesOn).2.2⟩
    refine .peek ?_
    split
    next kind => exact passes (by simp [Token.isSeparator, kind])
    next kind => exact passes (by simp [Token.isSeparator, kind])
    next kind =>
      refine .get ?_
      split
      · refine (directive_moves phrases wf (by rw [ParseState.kind, kind]; rfl)).bind
          fun _ t facts => ?_
        exact ⟨facts.1.wf, facts.1.runs.readsOn fun _ => facts.2⟩
      · exact ⟨wf, readsOn_leave s []⟩
    next => exact ⟨wf, readsOn_leave s []⟩
  · have ends : s.current.kind = .endOfStream := (ParseState.remaining_eq_zero_iff wf).1 none
    show ([], s) = (separatorsWithin r 1).run s
    rw [separatorsWithin, peek, bind_assoc, Paired.run_get, pure_bind, ends]
    rfl

-- Lists

/-- The rounds of a list go on where enough tokens are left for the rules of its bodies. -/
structure Fitting (depth : Nat) (s : ParseState) : Prop where
  wf : s.Wf
  bound : s.remaining ≤ depth

theorem Fitting.after (fitting : Fitting depth s) (runs : s.Runs t) : Fitting depth t :=
  ⟨runs.wf fitting.wf, Nat.le_trans (runs.later fitting.wf).remaining fitting.bound⟩

def statementRound (r : Rules) (b : Bodies) (_ : Unit) :
    Parse (Turn Unit (List Statement × List Location × Option Terminator)) := do
  let colons ← separators r
  match ← firstStop [stopAtPendingNext, stopAtTerminator, stopAtMember] with
  | .stop terminator => return .leave ([], colons, terminator)
  | .goOn =>
    let first ← listedStatement r b
    return .again () fun (rest, moreColons, terminator) =>
      (first :: rest, colons ++ moreColons, terminator)

theorem statements_unroll (r : Rules) (b : Bodies) (n : Nat) (state : Unit) :
    statementsWithin r b (n + 1) =
      statementRound r b state >>= Turn.follow fun _ => statementsWithin r b n := by
  rw [statementsWithin, statementRound, bind_assoc]
  refine bind_congr fun colons => ?_
  rw [bind_assoc]
  refine bind_congr fun step => ?_
  cases step with
  | goOn => rfl
  | stop => rfl

theorem statements_loop (phrases : r.Sound) (sound : b.Sound depth) (fitting : Fitting depth s) :
    Loops (statementRound r b) (fun n _ => statementsWithin r b n) (s.remaining + 1) s := by
  refine .ofRounds (Fitting depth) 1 (statements_unroll r b) (fun _ s fitting => ?_)
    (fun _ _ _ none => by omega) fitting
  refine ((separators_silent phrases fitting.wf).and (separators_arrive phrases fitting.wf)).bind
    fun colons t ⟨before, arrived⟩ => ?_
  refine (firstStop_decides before.wf statementStops_decide).bind fun step u ⟨decides, goesOn⟩ => ?_
  cases step with
  | stop stop =>
    have so := before.append decides.1
    exact ⟨fitting.after so.runs, so.runs.readsOn (by simp [Turn.goesOn])⟩
  | goOn =>
    have before := before.append decides.1
    have left := before.later.remaining
    have inside := kind_ne_of_arrived decides.2 arrived
    refine (listedStatement_moves phrases sound before.wf (goesOn (by simp) rfl) inside
      (fitting.after before.runs).bound).bind fun first v ⟨read, moved⟩ => ?_
    have so := before.append read
    exact ⟨fitting.after so.runs, so.runs.readsOn fun _ => Nat.lt_of_lt_of_le moved left⟩

/-- Outside of all blocks, there is nothing to report. -/
theorem stopUnclosed_runs (wf : s.Wf) :
    Ensures stopUnclosed s fun step t => s.Runs t ∧ step ≠ .goOn := by
  cases around : s.blocks.head? with
  | none =>
    refine .get ?_
    rw [around]
    exact ⟨.refl s, by simp⟩
  | some =>
    have inside : s.blocks = [] → s.kind = .endOfStream := fun none => by simp [none] at around
    refine (stopUnclosed_decides wf inside).mono fun step t ⟨decides, stops⟩ => ⟨?_, stops⟩
    cases step with
    | goOn => exact absurd rfl stops
    | stop => exact decides.1.runs

/-- A list of declarations goes on where it stands, and not at the end of the stream. -/
theorem declarationStops_run (container : Container) (wf : s.Wf) :
    Ensures (firstStop [stopAtTerminator, stopLeaving container]) s fun step t =>
      s.Runs t ∧ (step = .goOn → t.kind ≠ .endOfStream ∧ t.ahead = s.ahead) := by
  refine (stopAtTerminator_decides wf).bind fun step t ⟨decides, goesOn⟩ => ?_
  cases step with
  | stop => exact ⟨decides.1.runs, by simp⟩
  | goOn =>
    have runs := decides.1.runs
    have leaving : Ensures (stopLeaving container) t fun step u =>
        s.Runs u ∧ (step = .goOn → u.kind ≠ .endOfStream ∧ u.ahead = s.ahead) := by
      refine .get ?_
      split
      next =>
        exact (stopUnclosed_runs decides.1.wf).mono fun step u ⟨more, stops⟩ =>
          ⟨runs.trans more, fun goOn => absurd goOn stops⟩
      next => exact ⟨runs, fun _ => ⟨goesOn rfl, decides.2⟩⟩
    refine leaving.bind fun step u facts => ?_
    cases step with
    | goOn => exact facts
    | stop => exact facts

end Parse

-- Texts

/-- The state of a parser that has read nothing of a text. -/
def ScanOptions.before (o : ScanOptions) (text : String) : ParseState :=
  .start ((o.tokenize text).filterMap Token.comment?)
    ((o.tokenize text).filter fun t => !t.isComment)

/-- The rule comes to an end on the text: allowing phrases to nest deeper than there are tokens
changes nothing. -/
def ScanOptions.Completes {α : Type} (o : ScanOptions) (text : String)
    (rule : Rules → Bodies → Parse α) (isScript : Bool) : Prop :=
  ∀ depth, ((o.tokenize text).filter fun t => !t.isComment).length < depth →
    Findings.none.parseTo depth rule o.version isScript (o.tokenize text) =
      parseTokens rule o.version isScript (o.tokenize text)

/-- The rule comes to the end of the stream, at every depth that is no limit. -/
def ScanOptions.Exhausts {α : Type} (o : ScanOptions) (text : String)
    (rule : Rules → Bodies → Parse α) (isScript : Bool) : Prop :=
  ∀ depth, ((o.tokenize text).filter fun t => !t.isComment).length < depth →
    Ensures (rule (.ofDepth o.version depth) (.ofDepth isScript (.ofDepth o.version depth) depth))
      (o.before text) fun _ t => (o.before text).Runs t ∧ t.kind = .endOfStream

theorem Moves.completes {α : Type} [Relocate α] [LawfulRelocate α]
    {rule : Rules → Bodies → Parse α} (moves : Moves rule) (o : ScanOptions) (text : String)
    (isScript : Bool) : o.Completes text rule isScript := by
  intro depth deep
  have moved := moves.parseTo .none o.version isScript (stream_tokenize o text) (g := id)
    (fun _ _ => Iff.rfl) rfl (Nat.lt_succ_self _) deep
  simp only [relocate_id] at moved
  exact moved

end VisualBasic
