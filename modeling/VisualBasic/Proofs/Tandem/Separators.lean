import VisualBasic.Proofs.Parse.Directive
import VisualBasic.Proofs.Tandem.Directive

/-!
What stands between statements is passed alike in two texts.  A directive that only the first text
has does not leave its line, so behind it both parsers meet again.
-/

set_option autoImplicit false

namespace VisualBasic

/-- A text that ends where a line does, and a text that goes on. -/
def Seam.atBreak (ending : Token) (rest : List Token) (breaks : ending.kind = .lineTerminator) :
    Seam where
  carry := id
  last := ⟨.endOfStream, .point ending.span.start⟩
  first := ending
  rest := rest
  found := []
  recorded := .empty
  drops := False
  loops := False
  settles := False
  fresh := True
  ordered _ _ := Iff.rfl
  anchored moved := absurd moved (Nat.lt_irrefl 0)
  inPlace := False.elim
  ends := rfl
  meets := rfl
  joint := .inl breaks

/-- The tokens up to the end of a line are a stream of their own. -/
theorem Stream.upTo {line rest : List Token} {ending : Token}
    (stream : Stream (line ++ ending :: rest)) :
    Stream (line ++ [⟨.endOfStream, .point ending.span.start⟩]) := by
  induction line with
  | nil => exact .last rfl rfl
  | cons t line ih =>
    cases line with
    | nil =>
      cases stream with
      | cons goesOn wide order named behind => exact .cons goesOn wide order named (ih behind)
    | cons u line =>
      cases stream with
      | cons goesOn wide order named behind => exact .cons goesOn wide order named (ih behind)

/-- The tokens from some token on are a stream of their own. -/
theorem Stream.from {rest : List Token} {t : Token} (line : List Token)
    (stream : Stream (line ++ t :: rest)) :
    Stream (t :: rest) := by
  induction line with
  | nil => exact stream
  | cons u line ih =>
    cases line with
    | nil =>
      cases stream with
      | cons _ _ _ _ behind => exact behind
    | cons v line =>
      cases stream with
      | cons _ _ _ _ behind => exact ih behind

/-- Only the last token ends the stream. -/
theorem Stream.goesOn {line rest : List Token} {t : Token} (stream : Stream (line ++ t :: rest)) :
    ∀ u ∈ line, u.kind ≠ .endOfStream := by
  induction line with
  | nil => simp
  | cons u line ih =>
    obtain ⟨v, tail, behind⟩ := List.exists_cons_of_ne_nil (List.append_ne_nil_of_right_ne_nil line
      (List.cons_ne_nil t rest))
    rw [List.cons_append, behind] at stream
    cases stream with
    | cons goesOn _ _ _ stream => exact List.forall_mem_cons.2 ⟨goesOn, ih (behind ▸ stream)⟩

theorem Stream.before {line rest : List Token} {t u : Token}
    (stream : Stream (t :: (line ++ u :: rest))) :
    t.span.start.index ≤ u.span.start.index := by
  induction line generalizing t with
  | nil =>
    cases stream with
    | cons _ wide order _ _ => exact Nat.le_trans (Nat.le_of_lt wide) order
  | cons v line ih =>
    cases stream with
    | cons _ wide order _ behind =>
      exact Nat.le_trans (Nat.le_of_lt wide) (Nat.le_trans order (ih behind))

theorem Seam.ahead_atBreak {line rest : List Token} {ending : Token}
    (breaks : ending.kind = .lineTerminator) (inside : ∀ t ∈ line, t.kind.endsLine = false) :
    (atBreak ending rest breaks).Ahead false
      (line ++ [⟨.endOfStream, .point ending.span.start⟩]) (line ++ ending :: rest) := by
  have solid {kind : TokenKind} (ends : kind.endsLine = true) : ∀ t ∈ line, t.kind ≠ kind := by
    intro t member same
    rw [← same, inside t member] at ends
    cases ends
  have ahead := Ahead.front (c := atBreak ending rest breaks) id (solid rfl) (solid rfl) false
  rwa [show relocate (atBreak ending rest breaks).carry line = line from relocate_id line] at ahead

namespace Parse

variable {c : Seam} {k : Bound} {r r' : Rules} {s X Y : ParseState}

/-- A directive ends where its line does, or the text does. -/
theorem directive_ends (r : Rules) (s : ParseState) :
    ((directive r).run s).2.kind.endsLine = true ∨ ((directive r).run s).2.remaining = 0 := by
  have stops (n : Nat) (s : ParseState) (fuel : s.remaining ≤ n) :
      (s.advanceWhile (fun s => !s.kind.endsLine) n).kind.endsLine = true ∨
        (s.advanceWhile (fun s => !s.kind.endsLine) n).remaining = 0 := by
    induction n generalizing s with
    | zero => exact .inr (Nat.le_zero.1 fuel)
    | succ n ih =>
      unfold ParseState.advanceWhile
      split
      next =>
        cases follows : s.following with
        | nil =>
          have stuck : s.advance = s := by simp [ParseState.advance, follows]
          rw [stuck]
          exact ih s (by simp [ParseState.remaining, follows])
        | cons t rest =>
          exact ih _ (Nat.le_of_lt_succ
            (Nat.lt_of_lt_of_le (ParseState.remaining_advance_lt follows) fuel))
      next ends => exact .inl (by simpa using ends)
  obtain ⟨u, run⟩ : ∃ u : ParseState, ((directive r).run s).2 =
      u.advanceWhile (fun s => !s.kind.endsLine) u.remaining := by
    unfold directive
    iterate 3 rw [Paired.run_bind]
    rw [Paired.run_bind]
    extract_lets rest
    split
    · exact ⟨_, rfl⟩
    · exact ⟨_, rfl⟩
  rw [run]
  exact stops _ u (Nat.le_refl _)

/-- A directive is read within its line and leaves what is around it as it is. -/
theorem directive_stays {n : Nat} {line rest : List Token} {ending : Token}
    (alone : ∀ c : Seam, r.Agree c ⟨n, n⟩ r) (bound : X.remaining < n) (stream : Stream X.ahead)
    (limit : X.limit ≤ X.here) (sign : X.kind = .mark .pound)
    (follows : X.following = line ++ ending :: rest)
    (inside : ∀ t ∈ line, t.kind.endsLine = false) (breaks : ending.kind = .lineTerminator) :
    Stays X ((directive r).run X).2 ∧ ((directive r).run X).2.ahead = ending :: rest ∧
      ((directive r).run X).2.placeholder.index ≤ ending.span.start.index := by
  -- the same directive in a text that ends with its line
  let cut := Seam.atBreak ending rest breaks
  let last : Token := ⟨.endOfStream, .point ending.span.start⟩
  let W : ParseState := { X with following := line ++ [last] }
  have whole : X.ahead = (X.current :: line) ++ ending :: rest := by
    rw [ParseState.ahead, follows]
    rfl
  have within : ∀ t ∈ X.current :: line, t.kind.endsLine = false := by
    intro t member
    rcases List.mem_cons.1 member with rfl | member
    · rw [show X.current.kind = .mark .pound from sign]
      rfl
    · exact inside t member
  have near : Near cut X ⟨n, n⟩ W X := by
    refine
      { stream := ?_
        limit := limit
        behind := ?_
        marked := .inl rfl
        blocks := (relocate_id X.blocks).symm
        depth := rfl
        pending := False.elim
        settled := False.elim
        directives := fun _ => (relocate_id X.directives).symm
        noDirectives := False.elim
        tables := fun _ => (relocate_id X.tables).symm
        notes := fun _ uncut => absurd breaks uncut
        count := fun _ => (Nat.zero_add _).symm
        reports := fun uncut => absurd breaks uncut
        ahead := ?_
        clear := False.elim
        suppressed := fun _ => rfl
        stays := ?_
        bound := ?_
        bound' := bound }
    · exact Stream.upTo (whole ▸ stream)
    · cases X.previous with
      | none => exact .inl ⟨rfl, rfl⟩
      | some t => exact .inr (.inl ⟨t, t, rfl, rfl, rfl, rfl⟩)
    · rw [whole]
      exact Seam.ahead_atBreak breaks within
    · rintro s ⟨⟩
      exact ⟨rfl, rfl, rfl, List.prefix_refl _⟩
    · have length : X.remaining = line.length + (rest.length + 1) := by
        simp [ParseState.remaining, follows]
      show (line ++ [last]).length < n
      simp only [List.length_append, List.length_singleton]
      omega
  obtain ⟨-, after, paced⟩ := directive_tracks (alone cut) near.up (by exact id) sign
    fun _ => trivial
  have ended : ((directive r).run W).2.kind = .endOfStream := by
    rcases directive_ends r W with ends | none
    · have member : ((directive r).run W).2.current ∈ (X.current :: line) ++ [last] :=
        paced.here.mem List.mem_cons_self
      rcases List.mem_append.1 member with early | isLast
      · have solid := within _ early
        rw [show ((directive r).run W).2.current.kind.endsLine = true from ends] at solid
        cases solid
      · exact congrArg Token.kind (List.mem_singleton.1 isLast)
    · exact after.remaining_eq_zero_iff.1 none
  obtain ⟨here, -, there, behind⟩ := after.cases.resolve_right fun goesOn => goesOn.1 ended
  refine ⟨after.stays X rfl, ?_, ?_⟩
  · rw [ParseState.ahead, there, behind]
    rfl
  · have limit := after.limit
    rw [ParseState.here, here] at limit
    have marked : ((directive r).run W).2.placeholder.index ≤ ((directive r).run W).2.limit :=
      Nat.le_max_right _ _
    rcases after.marked with same | ⟨-, before⟩ | ⟨drops, -⟩
    · rw [same]
      exact Nat.le_trans marked limit
    · cases before
    · exact drops.elim

end Parse

/-- The rules for phrases, as far as whole texts need them: they read both texts alike, and the
first text like any part of it. -/
structure Readers (c : Seam) (k : Bound) (r r' : Rules) : Prop where
  agree : r.Agree c k r'
  alone : ∀ c' : Seam, r.Agree c' ⟨k.here, k.here⟩ r
  sound : r.Sound
  loops : c.loops
  cut : c.IsCut → c.settles

namespace Parse

variable {c : Seam} {k : Bound} {r r' : Rules} {s X Y : ParseState}

-- One step over what stands between statements

theorem run_separatorsWithin_break (breaks : s.kind = .lineTerminator) (n : Nat) :
    (separatorsWithin r (n + 1)).run s = (separatorsWithin r n).run s.advance := by
  rw [separatorsWithin, Paired.run_peek, show s.current.kind = _ from breaks]
  rfl

theorem run_separatorsWithin_colon (colon : s.kind = .mark .colon) (n : Nat) :
    (separatorsWithin r (n + 1)).run s =
      (s.current.span.start :: ((separatorsWithin r n).run s.advance).1,
        ((separatorsWithin r n).run s.advance).2) := by
  rw [separatorsWithin, Paired.run_peek, show s.current.kind = _ from colon]
  rfl

theorem run_separatorsWithin_directive (sign : s.kind = .mark .pound)
    (starts : s.atLineStart = true) (n : Nat) :
    (separatorsWithin r (n + 1)).run s =
      (separatorsWithin r n).run ((directive r).run s).2 := by
  rw [separatorsWithin, Paired.run_peek, show s.current.kind = _ from sign]
  show (ite (s.atLineStart = true) _ _ : Parse (List Location)).run s = _
  rw [if_pos starts]
  rfl

theorem run_separatorsWithin_other (unbroken : s.kind ≠ .lineTerminator)
    (plain : s.kind ≠ .mark .colon) (clear : s.atLineStart = true → s.kind ≠ .mark .pound)
    (n : Nat) : (separatorsWithin r n).run s = ([], s) := by
  cases n with
  | zero => rfl
  | succ n =>
    rw [separatorsWithin, Paired.run_peek]
    split
    next breaks => exact absurd breaks unbroken
    next colon => exact absurd colon plain
    next sign =>
      show (ite (s.atLineStart = true) _ _ : Parse (List Location)).run s = _
      rw [if_neg fun starts => clear starts sign]
      rfl
    next => rfl

/-- Empty lines are passed. -/
theorem run_separatorsWithin_breaks {breaks rest : List Token} {ending : Token} {n : Nat}
    (isBreak : ∀ t ∈ breaks, t.kind = .lineTerminator) (ends : ending.kind = .lineTerminator)
    (ahead : s.ahead = breaks ++ ending :: rest) (more : rest ≠ []) (fuel : s.remaining ≤ n) :
    ∃ t n', (separatorsWithin r n).run s = (separatorsWithin r n').run t ∧ t.remaining ≤ n' ∧
      t.ahead = rest ∧ t.previous = some ending ∧ t.placeholder = s.placeholder ∧ Stays s t ∧
      t.diagnostics = s.diagnostics ∧ t.directives = s.directives := by
  induction breaks generalizing s n with
  | nil =>
    obtain ⟨current, following⟩ := List.cons.inj ahead
    obtain ⟨u, us, rfl⟩ := List.exists_cons_of_ne_nil more
    obtain ⟨n, rfl⟩ : ∃ j, n = j + 1 :=
      ⟨n - 1, by simp only [ParseState.remaining, following, List.length_cons] at fuel; omega⟩
    have fewer := ParseState.remaining_advance_lt following
    refine ⟨s.advance, n, run_separatorsWithin_break (by rw [ParseState.kind, current, ends]) n,
      by omega, ?_, ?_, ?_, ?_, ?_, ?_⟩
    all_goals rw [ParseState.advance_of_cons following]
    · rfl
    · exact congrArg some current
    · rfl
    · exact ⟨rfl, rfl, rfl, List.prefix_refl _⟩
    · rfl
    · rfl
  | cons b breaks ih =>
    obtain ⟨current, following⟩ := List.cons.inj ahead
    have present : s.following ≠ [] := by rw [following]; simp
    obtain ⟨u, us, follows⟩ := List.exists_cons_of_ne_nil present
    obtain ⟨n, rfl⟩ : ∃ j, n = j + 1 :=
      ⟨n - 1, by simp only [ParseState.remaining, follows, List.length_cons] at fuel; omega⟩
    have fewer := ParseState.remaining_advance_lt follows
    have here : s.kind = .lineTerminator := by
      rw [ParseState.kind, current]
      exact isBreak b List.mem_cons_self
    obtain ⟨t, n', run, bound, rest, previous, placeholder, stays, diagnostics, directives⟩ :=
      ih (s := s.advance) (n := n) (fun t member => isBreak t (List.mem_cons_of_mem b member))
        ((ParseState.ahead_advance follows).trans following) (by omega)
    refine ⟨t, n', (run_separatorsWithin_break here n).trans run, bound, rest, previous, ?_, ?_,
      ?_, ?_⟩
    all_goals rw [ParseState.advance_of_cons follows] at *
    · exact placeholder
    · exact ⟨stays.blocks, stays.depth, stays.pending, stays.reports⟩
    · exact diagnostics
    · exact directives

/-- What was missing last in a text without directives lies before the current token. -/
theorem placeholder_of_drops (arrived : Arrived c X Y) (drops : c.drops) :
    Y.placeholder.index ≤ X.here := by
  have limit := arrived.limit
  rcases arrived.marked with same | ⟨-, early⟩ | ⟨-, t, read, -, early⟩
  · rw [same, c.inPlace drops]
    exact Nat.le_trans (Nat.le_max_right _ _) limit
  · rw [c.inPlace drops] at early
    cases early
  · simp only [ParseState.limit, read, Option.map_some, Option.getD_some] at limit
    omega

/-- Both parsers have passed something, and go on alike from there. -/
structure Rejoin (c : Seam) (r r' : Rules) (n m n' m' : Nat) (X Y X' Y' : ParseState) : Prop where
  arrived : Arrived c X' Y'
  fewer : X'.remaining < X.remaining
  fewer' : Y'.remaining < Y.remaining
  suffix : X'.ahead <:+ X.ahead
  suffix' : Y'.ahead <:+ Y.ahead
  fuel : X'.remaining ≤ n'
  fuel' : Y'.remaining ≤ m'
  here : (separatorsWithin r n).run X = (separatorsWithin r n').run X'
  there : (separatorsWithin r' m).run Y = (separatorsWithin r' m').run Y'

/-- A directive that the second text lacks: both parsers meet again on the next line. -/
theorem behindDirective {n m : Nat} {sign ending ending' : Token}
    {line breaks xs ys : List Token} (arrived : Arrived c X Y) (readers : Readers c k r r')
    (bound : X.remaining < k.here) (drops : c.drops) (fresh : X.atLineStart = true)
    (isSign : sign.kind = .mark .pound)
    (inside : ∀ t ∈ line, t.kind.endsLine = false)
    (isBreak : ∀ t ∈ breaks, t.kind = .lineTerminator) (ends : ending.kind = .lineTerminator)
    (ends' : ending'.kind = .lineTerminator) (finish : ending'.span.finish = c.carry ending.span.finish)
    (behind : c.Ahead true xs ys) (here : X.ahead = sign :: (line ++ ending :: xs))
    (there : Y.ahead = breaks ++ ending' :: ys) (fuel : X.remaining ≤ n) (fuel' : Y.remaining ≤ m) :
    ∃ X' Y' n' m', Rejoin c r r' n m n' m' X Y X' Y' := by
  obtain ⟨current, follows⟩ := List.cons.inj here
  have sign : X.kind = .mark .pound := by rw [ParseState.kind, current, isSign]
  obtain ⟨x, xs, rfl⟩ := List.exists_cons_of_ne_nil behind.ne_nil
  obtain ⟨y, ys, rfl⟩ := List.exists_cons_of_ne_nil behind.ne_nil'
  obtain ⟨stays, ahead, marked⟩ := directive_stays readers.alone bound arrived.stream arrived.limit
    sign follows inside ends
  -- the first parser reads the directive and the end of its line
  have length : X.remaining = line.length + (xs.length + 2) := by
    simp [ParseState.remaining, follows]
  obtain ⟨n, rfl⟩ : ∃ j, n = j + 2 := ⟨n - 2, by omega⟩
  have run := run_separatorsWithin_directive (r := r) sign fresh (n + 1)
  generalize ((directive r).run X).2 = D at *
  obtain ⟨current', follows'⟩ := List.cons.inj ahead
  have run := run.trans (run_separatorsWithin_break (by rw [ParseState.kind, current', ends]) n)
  -- the second one passes the empty lines
  obtain ⟨Y', m', run', fuel', ahead', previous, placeholder, stays', diagnostics, directives⟩ :=
    run_separatorsWithin_breaks (r := r') isBreak ends' there (List.cons_ne_nil y ys) fuel'
  have whole : Stream (X.current :: (line ++ ending :: x :: xs)) := by
    rw [← follows]
    exact arrived.stream
  obtain ⟨wide, order, rest⟩ : ending.span.start.index < ending.span.finish.index ∧
      ending.span.finish.index ≤ x.span.start.index ∧ Stream (x :: xs) := by
    cases Stream.from (X.current :: line) whole with
    | cons _ wide order _ rest => exact ⟨wide, order, rest⟩
  have before : X.here < ending.span.finish.index := Nat.lt_of_le_of_lt whole.before wide
  refine ⟨D.advance, Y', n, m', ?_, ?_, ?_, ?_, ?_, ?_, fuel', run, run'⟩
  · rw [ParseState.advance_of_cons follows']
    have early := Nat.lt_of_le_of_lt (placeholder_of_drops arrived drops) before
    refine
      { stream := rest
        limit := ?_
        behind := .inr (.inl ⟨ending, ending', congrArg some current', previous,
          ends'.trans ends.symm, finish⟩)
        marked := .inr (.inr ⟨drops, ending, congrArg some current',
          Nat.lt_of_le_of_lt marked wide, placeholder.symm ▸ early⟩)
        blocks := ?_
        depth := ?_
        pending := fun loops => ?_
        settled := fun settles => ?_
        directives := fun keeps => absurd drops keeps
        noDirectives := fun _ => directives.trans (arrived.noDirectives drops)
        tables := fun keeps => absurd drops keeps
        notes := fun _ _ keeps => absurd drops keeps
        count := fun keeps => absurd drops keeps
        reports := fun uncut => ?_
        ahead := ?_ }
    · simp only [ParseState.limit, ParseState.here, ParseState.noteComments, current',
        Option.map_some, Option.getD_some]
      omega
    · rw [stays'.blocks, arrived.blocks]
      exact congrArg _ stays.blocks.symm
    · exact (stays'.depth.trans arrived.depth).trans stays.depth.symm
    · rw [stays'.pending, arrived.pending loops]
      exact congrArg _ stays.pending.symm
    · exact stays.pending.trans (arrived.settled settles)
    · obtain ⟨ds, all, part⟩ := arrived.reports uncut
      refine ⟨ds, diagnostics.trans all, part.trans (List.IsPrefix.sublist ?_)⟩
      exact stays.reports.map _
    · rw [ahead']
      have fresh : (ending.kind == .lineTerminator) = true := by rw [ends]; rfl
      show c.Ahead (D.current.kind == .lineTerminator) (x :: xs) (y :: ys)
      rw [current', fresh]
      exact behind
  · have fewer := ParseState.remaining_advance_lt follows'
    simp only [ParseState.remaining, follows', List.length_cons] at fewer
    rw [length]
    show (D.advance).following.length < _
    omega
  · have lengths := congrArg List.length ahead'
    have lengths' := congrArg List.length there
    simp only [ParseState.ahead, List.length_cons, List.length_append] at lengths lengths'
    show Y'.following.length < Y.following.length
    omega
  · rw [ParseState.ahead_advance follows', follows', here]
    exact ⟨X.current :: (line ++ [ending]), by simp [current]⟩
  · rw [ahead', there]
    exact ⟨breaks ++ [ending'], by simp⟩
  · have fewer := ParseState.remaining_advance_lt follows'
    simp only [ParseState.remaining, follows', List.length_cons] at fewer
    show (D.advance).following.length ≤ _
    omega

theorem exists_rejoin {n m : Nat} (arrived : Arrived c X Y) (readers : Readers c k r r')
    (bound : X.remaining < k.here) (drops : c.drops) (fresh : X.atLineStart = true)
    (sign : X.kind = .mark .pound) (fuel : X.remaining ≤ n) (fuel' : Y.remaining ≤ m) :
    ∃ X' Y' n' m', Rejoin c r r' n m n' m' X Y X' Y' := by
  have ahead := arrived.ahead
  rw [fresh] at ahead
  generalize here : X.ahead = xs at ahead
  generalize there : Y.ahead = ys at ahead
  have first (t : Token) (rest : List Token) (same : X.ahead = t :: rest) : t.kind = .mark .pound :=
    (List.cons.inj same).1 ▸ sign
  cases ahead with
  | last =>
    have other := first _ _ here
    rw [c.ends] at other
    cases other
  | cons goesOn plain apart behind => exact absurd (first _ _ here) (apart drops rfl)
  | drop drops isSign inside isBreak ends ends' finish behind =>
    exact behindDirective arrived readers bound drops fresh isSign inside isBreak ends ends' finish
      behind here there fuel fuel'

/-- Where both parsers are when the first one has passed what stands before a statement.  Where the
first text ends, the second one may go on passing. -/
structure Meets (c : Seam) (k : Bound) (r r' : Rules) (n m : Nat) (X Y Y' : ParseState)
    (m' : Nat) : Prop where
  near : Loose c k ((separatorsWithin r n).run X).2 Y'
  paced : Paced X Y ((separatorsWithin r n).run X).2 Y'
  unbroken : ((separatorsWithin r n).run X).2.kind ≠ .lineTerminator
  level : ¬ c.drops → Y.suppressed = X.suppressed →
    Y'.suppressed = ((separatorsWithin r n).run X).2.suppressed
  fuel : Y'.remaining ≤ m'
  run : (separatorsWithin r' m).run Y =
    (relocate c.carry ((separatorsWithin r n).run X).1 ++ ((separatorsWithin r' m').run Y').1,
      ((separatorsWithin r' m').run Y').2)
  stops : (c.IsCut → ((separatorsWithin r n).run X).2.kind ≠ .endOfStream) →
    (separatorsWithin r' m').run Y' = ([], Y')
  runs : ¬ c.drops → r'.Sound → Y.Wf → Y.Runs Y'

namespace Meets

variable {n m n' m' j : Nat} {X' Y' Z : ParseState}

/-- Both parsers start with a step that gives nothing. -/
theorem following (meets : Meets c k r r' n' m' X' Y' Z j) (paced : Paced X Y X' Y')
    (level : ¬ c.drops → Y.suppressed = X.suppressed → Y'.suppressed = X'.suppressed)
    (moved : ¬ c.drops → r'.Sound → Y.Wf → Y.Runs Y')
    (here : (separatorsWithin r n).run X = (separatorsWithin r n').run X')
    (there : (separatorsWithin r' m).run Y = (separatorsWithin r' m').run Y') :
    Meets c k r r' n m X Y Z j := by
  obtain ⟨near, more, unbroken, further, fuel, run, stops, runs⟩ := meets
  rw [← here] at near more unbroken further run stops
  exact ⟨near, paced.trans more, unbroken, fun keeps same => further keeps (level keeps same), fuel,
    there.trans run, stops, fun keeps sound wf =>
      (moved keeps sound wf).trans (runs keeps sound ((moved keeps sound wf).wf wf))⟩

/-- Both parsers start by passing a colon. -/
theorem colon {place : Location} (meets : Meets c k r r' n' m' X' Y' Z j) (paced : Paced X Y X' Y')
    (level : ¬ c.drops → Y.suppressed = X.suppressed → Y'.suppressed = X'.suppressed)
    (moved : ¬ c.drops → r'.Sound → Y.Wf → Y.Runs Y')
    (here : (separatorsWithin r n).run X =
      (place :: ((separatorsWithin r n').run X').1, ((separatorsWithin r n').run X').2))
    (there : (separatorsWithin r' m).run Y =
      (c.carry place :: ((separatorsWithin r' m').run Y').1, ((separatorsWithin r' m').run Y').2)) :
    Meets c k r r' n m X Y Z j := by
  obtain ⟨near, more, unbroken, further, fuel, run, stops, runs⟩ := meets
  have after : ((separatorsWithin r n).run X).2 = ((separatorsWithin r n').run X').2 := by rw [here]
  rw [← after] at near more unbroken further stops
  refine ⟨near, paced.trans more, unbroken, fun keeps same => further keeps (level keeps same), fuel,
    ?_, stops, fun keeps sound wf =>
      (moved keeps sound wf).trans (runs keeps sound ((moved keeps sound wf).wf wf))⟩
  rw [there, run, here]
  rfl

/-- Neither parser passes anything, unless the second text goes on where the first one ends. -/
theorem standing (near : Loose c k X Y) (unbroken : X.kind ≠ .lineTerminator)
    (plain : X.kind ≠ .mark .colon) (clear : X.atLineStart = true → X.kind ≠ .mark .pound)
    (fuel : Y.remaining ≤ m) : Meets c k r r' n m X Y Y m := by
  have run := run_separatorsWithin_other (r := r) unbroken plain clear n
  refine ⟨?_, ?_, ?_, ?_, fuel, ?_, fun goesOn => ?_, fun _ _ _ => .refl Y⟩
  · rwa [run]
  · rw [run]
    exact .refl X Y
  · rwa [run]
  · rw [run]
    exact fun _ same => same
  · rw [run]
    rfl
  · rw [run] at goesOn
    have kind : Y.kind = X.kind := near.kind.resolve_right fun ends => goesOn ends.1 ends.2.1
    refine run_separatorsWithin_other (kind ▸ unbroken) (kind ▸ plain) ?_ m
    rw [near.toKin.atLineStart, kind]
    exact clear

end Meets

/-- Both parsers pass what stands before the next statement. -/
theorem separatorsWithin_meets {n m : Nat} (readers : Readers c k r r') (arrived : Arrived c X Y)
    (bound : X.remaining < k.here) (bound' : Y.remaining < k.there) (fuel : X.remaining ≤ n)
    (fuel' : Y.remaining ≤ m) : ∃ Y' m', Meets c k r r' n m X Y Y' m' := by
  generalize size : X.remaining = left
  induction left using Nat.strongRecOn generalizing n m X Y with
  | ind left ih =>
  by_cases isDrop : c.drops ∧ X.atLineStart = true ∧ X.kind = .mark .pound
  · -- only the first text has the directive
    obtain ⟨drops, fresh, sign⟩ := isDrop
    obtain ⟨X', Y', n', m', rejoin⟩ :=
      exists_rejoin arrived readers bound drops fresh sign fuel fuel'
    have fewer := rejoin.fewer
    have fewer' := rejoin.fewer'
    obtain ⟨Z, j, meets⟩ :=
      ih X'.remaining (by omega) rejoin.arrived (by omega) (by omega) rejoin.fuel rejoin.fuel' rfl
    exact ⟨Z, j, meets.following (.moved rejoin.suffix rejoin.suffix' fewer fewer')
      (fun keeps => absurd drops keeps) (fun keeps => absurd drops keeps) rejoin.here rejoin.there⟩
  · have twin := arrived.twin fun drops starts sign => isDrop ⟨drops, starts, sign⟩
    have near : Loose c k X Y :=
      { twin with
        suppressed := fun within => by cases within
        stays := fun _ member => by cases member
        bound := bound
        bound' := bound' }
    have start := twin.toKin.atLineStart
    by_cases ends : X.kind = .endOfStream
    · exact ⟨Y, m, .standing near (by simp [ends]) (by simp [ends]) (by simp [ends]) fuel'⟩
    · obtain ⟨x, xs, y, ys, follows, follows', same, -⟩ := twin.follows ends
      have kind : Y.kind = X.kind := by rw [ParseState.kind, same]; rfl
      obtain ⟨next, fewer, fewer'⟩ := twin.step ends
      have paced : Paced X Y X.advance Y.advance := by
        refine .moved ?_ ?_ fewer fewer'
        · rw [ParseState.ahead_advance follows]
          exact List.suffix_cons _ _
        · rw [ParseState.ahead_advance follows']
          exact List.suffix_cons _ _
      obtain ⟨n, rfl⟩ : ∃ j, n = j + 1 := ⟨n - 1, by omega⟩
      obtain ⟨m, rfl⟩ : ∃ j, m = j + 1 := ⟨m - 1, by omega⟩
      have behind : ∃ Z j, Meets c k r r' n m X.advance Y.advance Z j :=
        ih X.advance.remaining (by omega) next (by omega) (by omega) (by omega) (by omega) rfl
      have level : ¬ c.drops → Y.suppressed = X.suppressed →
          Y.advance.suppressed = X.advance.suppressed := by
        rw [ParseState.advance_of_cons follows, ParseState.advance_of_cons follows']
        exact fun _ same => same
      have moved (known : Y.kind ≠ .lexicalError) : ¬ c.drops → r'.Sound → Y.Wf → Y.Runs Y.advance :=
        fun _ _ _ => .act (.advance fun fault => absurd fault known)
      by_cases breaks : X.kind = .lineTerminator
      · obtain ⟨Z, j, meets⟩ := behind
        exact ⟨Z, j, meets.following paced level (moved (by simp [kind, breaks]))
          (run_separatorsWithin_break breaks n) (run_separatorsWithin_break (kind.trans breaks) m)⟩
      · by_cases colon : X.kind = .mark .colon
        · obtain ⟨Z, j, meets⟩ := behind
          refine ⟨Z, j, meets.colon paced level (moved (by simp [kind, colon]))
            (run_separatorsWithin_colon colon n) ?_⟩
          rw [run_separatorsWithin_colon (kind.trans colon), same]
          rfl
        · by_cases sign : X.atLineStart = true ∧ X.kind = .mark .pound
          · -- both texts have the directive
            obtain ⟨starts, sign⟩ := sign
            have keeps : ¬ c.drops := fun drops => isDrop ⟨drops, starts, sign⟩
            obtain ⟨-, after, paced⟩ := directive_tracks
              (readers.agree.mono (Bound.le_of_succ near.fresh_le)) near.fresh keeps sign
              fun _ => trivial
            have fewer := after.bound
            have fewer' := after.bound'
            dsimp only at fewer fewer'
            obtain ⟨Z, j, meets⟩ : ∃ Z j, Meets c k r r' n m ((directive r).run X).2
                ((directive r').run Y).2 Z j :=
              ih _ (by omega) after.toTwin.arrived (by omega) (by omega) (by omega) (by omega) rfl
            have solid : Y.kind.isSolid = true := by
              rw [kind, sign]
              rfl
            exact ⟨Z, j, meets.following paced (fun _ _ => after.suppressed rfl)
              (fun _ sound wf => (directive_moves sound wf solid).1.runs)
              (run_separatorsWithin_directive sign starts n)
              (run_separatorsWithin_directive (kind.trans sign) (start.trans starts) m)⟩
          · exact ⟨Y, _, .standing near breaks colon (fun starts isSign => sign ⟨starts, isSign⟩) fuel'⟩

/-- The next statement is in the first text, or both texts end together. -/
theorem separators_tracks (readers : Readers c k r r') (before : Before c k X Y)
    (goesOn : c.IsCut → ((separators r).run X).2.kind ≠ .endOfStream) :
    Kept c (Loose c k) (separators r) (separators r') X Y ∧
      ((separators r).run X).2.kind ≠ .lineTerminator ∧
      (¬ c.drops → Y.suppressed = X.suppressed →
        ((separators r').run Y).2.suppressed = ((separators r).run X).2.suppressed) := by
  obtain ⟨Y', m', meets⟩ := separatorsWithin_meets readers before.toArrived before.bound
    before.bound' (Nat.le_refl _) (Nat.le_refl _)
  have run' : (separators r').run Y = (relocate c.carry ((separators r).run X).1, Y') := by
    refine meets.run.trans ?_
    rw [meets.stops goesOn]
    exact congrArg (·, Y') (List.append_nil _)
  refine ⟨⟨?_, ?_, ?_⟩, meets.unbroken, ?_⟩
  · rw [run']
  · rw [run']
    exact meets.near
  · rw [run']
    exact meets.paced
  · rw [run']
    exact meets.level

end Parse

end VisualBasic
