import VisualBasic.Proofs.Parse.Progress
import VisualBasic.Proofs.Scan.Join

/-!
A list of statements and another one behind it.  Outside of all blocks a list goes on to where its
text ends.  If its statements stand by themselves and another text follows on the next line, the list
of both texts has the statements of the first one and goes on from there.  A text without problems
leaves nothing open, so from there the second text is read as if it stood alone.
-/

set_option autoImplicit false

namespace VisualBasic

namespace Seam

/-- A text that ends where a line does, and a text that goes on.  Loops are closed one by one. -/
def joining (ending : Token) (rest : List Token) (breaks : ending.kind = .lineTerminator) : Seam :=
  { atBreak ending rest breaks with loops := True, settles := True }

/-- A text, and the same text behind another one, which ends at `e` and has left some tables. -/
def behind (e : Location) (tables : DirectiveTables) (last : Token)
    (ends : last.kind = .endOfStream) : Seam where
  carry l := e.behind l.rooted
  last := last
  first := relocate (fun l => e.behind l.rooted) last
  rest := []
  found := []
  recorded := tables
  drops := False
  loops := True
  settles := False
  fresh := False
  ordered a b := by
    rw [Location.index_behind, Location.index_behind, Location.index_rooted, Location.index_rooted]
    exact Nat.add_lt_add_iff_left
  anchored _ a zero := by
    rw [Location.rooted, if_pos zero]
    rfl
  inPlace := False.elim
  ends := ends
  meets := rfl
  joint := .inr ⟨rfl, rfl⟩

end Seam

-- Where a text ends

theorem OpenDirectives.eq_none_of_unended {d : OpenDirectives} (closed : d.unended = []) :
    d = .none := by
  obtain ⟨conditionals, regions, mapping⟩ := d
  simp only [unended, List.append_eq_nil_iff, List.map_eq_nil_iff, List.reverse_eq_nil_iff,
    Option.toList_eq_nil_iff, Option.map_eq_none_iff] at closed
  obtain ⟨⟨rfl, rfl⟩, rfl⟩ := closed
  rfl

/-- Nothing is open and nothing has been reported, as at the start of a text. -/
structure ParseState.Idle (s : ParseState) : Prop where
  blocks : s.blocks = []
  depth : s.lineIfDepth = 0
  pending : s.pendingNext = none
  directives : s.directives = .none
  diagnostics : s.diagnostics = []

namespace Parse

variable {c : Seam} {k : Bound} {r r' : Rules} {b b' : Bodies} {depth depth' : Nat}
  {s t u X Y : ParseState}

theorem listSpan_reports {α : Type} (span : α → Span) (items : List α) (s : ParseState) :
    ((listSpan span items).run s).2.diagnostics = s.diagnostics ∧
      ((listSpan span items).run s).2.unended = s.unended := by
  unfold listSpan
  split
  · exact ⟨rfl, rfl⟩
  · exact ⟨rfl, rfl⟩

/-- A script holds what its list does, and its diagnostics are those of the list and what the list
leaves open. -/
theorem wholeScript_found (s : ParseState) :
    let found := (statementsWithin r b (s.remaining + 1)).run s
    ((wholeScript r b).run s).1.statements.statements = found.1.1 ∧
      ((wholeScript r b).run s).1.statements.colons = found.1.2.1 ∧
      ((wholeScript r b).run s).2.diagnostics = found.2.diagnostics ++ found.2.unended := by
  refine ⟨rfl, rfl, ?_⟩
  rw [run_wholeScript, finish_diagnostics]
  -- the span of the list marks a place at most
  obtain ⟨diagnostics, unended⟩ := listSpan_reports Statement.span
    ((statementsWithin r b (s.remaining + 1)).run s).1.1
    ((statementsWithin r b (s.remaining + 1)).run s).2
  exact congrArg₂ (· ++ ·) diagnostics unended

/-- A list that fills a text without problems leaves the parser idle at its end. -/
theorem idle_of_clean (phrases : r.Sound) (sound : b.Sound depth) (fitting : Fitting depth s)
    (outside : s.blocks = []) (plain : s.lineIfDepth = 0)
    (clean : ((wholeScript r b).run s).2.diagnostics = []) :
    let found := (statementsWithin r b (s.remaining + 1)).run s
    found.2.Idle ∧ found.2.kind = .endOfStream := by
  obtain ⟨listed, -⟩ := statementsWithin_listed phrases sound (s.remaining + 1) fitting.wf
    (Nat.lt_succ_self _) fitting.bound
  rw [(wholeScript_found s).2.2, List.append_eq_nil_iff] at clean
  obtain ⟨none, closed⟩ := List.append_eq_nil_iff.1 clean.2
  refine ⟨⟨listed.so.blocks.trans outside, listed.so.depth.trans plain, ?_,
    OpenDirectives.eq_none_of_unended closed, clean.1⟩, listed.ends outside⟩
  simpa using none

-- One text

/-- Two lists whose separators end at the same place go on alike. -/
theorem run_statementsWithin_congr (places : List Location)
    (same : (separators r).run s =
      (places ++ ((separators r).run t).1, ((separators r).run t).2)) (n : Nat) :
    (statementsWithin r b (n + 1)).run s =
      let rest := (statementsWithin r b (n + 1)).run t
      ((rest.1.1, places ++ rest.1.2.1, rest.1.2.2), rest.2) := by
  rcases step : (firstStop [stopAtPendingNext, stopAtTerminator, stopAtMember]).run
      ((separators r).run t).2 with ⟨_ | stop, u⟩
  · rw [run_statementsWithin_goOn step, run_statementsWithin_goOn (by rw [same]; exact step), same]
    simp only [List.append_assoc]
  · rw [run_statementsWithin_stop step, run_statementsWithin_stop (by rw [same]; exact step), same]

/-- A line terminator is passed before a list. -/
theorem run_statementsWithin_break (breaks : s.kind = .lineTerminator) (more : s.following ≠ [])
    (n : Nat) :
    (statementsWithin r b (n + 1)).run s = (statementsWithin r b (n + 1)).run s.advance := by
  obtain ⟨t, rest, follows⟩ := List.exists_cons_of_ne_nil more
  refine run_statementsWithin_congr [] ?_ n
  show (separatorsWithin r s.remaining).run s = (separatorsWithin r s.advance.remaining).run s.advance
  rw [ParseState.remaining, follows, List.length_cons, run_separatorsWithin_break breaks,
    ParseState.advance_of_cons follows]
  rfl

/-- Outside of all blocks nothing is reported where the text ends. -/
theorem statementStops_outside (ends : s.kind = .endOfStream) (outside : s.blocks = [])
    (settled : s.pendingNext = none) :
    (firstStop [stopAtPendingNext, stopAtTerminator, stopAtMember]).run s = (.stop none, s) := by
  have unclosed : stopUnclosed.run s = (.stop none, s) := by
    unfold stopUnclosed
    rw [Paired.run_get, outside]
    rfl
  rw [firstStop, Paired.run_bind, (run_stopAtPendingNext s).2 settled]
  show (firstStop [stopAtTerminator, stopAtMember]).run s = _
  rw [firstStop, Paired.run_bind, run_stopAtTerminator_of_ended ends, unclosed]
  rfl

/-- Outside of all blocks a list stops only where the text ends. -/
theorem kind_of_stopped (wf : s.Wf) (outside : s.blocks = []) {stop : Option Terminator}
    (stops : (firstStop [stopAtPendingNext, stopAtTerminator, stopAtMember]).run s =
      (.stop stop, t)) : t.kind = .endOfStream := by
  have decides := (firstStop_decides wf statementStops_decide).1
  rw [stops] at decides
  exact decides.2.2 outside

/-- A list that goes on has read a statement. -/
theorem listed_stretch (phrases : r.Sound) (sound : b.Sound depth) (fitting : Fitting depth s)
    (goesOn : (firstStop [stopAtPendingNext, stopAtTerminator, stopAtMember]).run
      ((separators r).run s).2 = (.goOn, t)) :
    Stretch s.here s ((listedStatement r b).run t).2
      [Node.ofStatement ((listedStatement r b).run t).1] [] := by
  have before := separators_silent phrases fitting.wf
  have arrived := separators_arrive phrases fitting.wf
  obtain ⟨decides, further⟩ := firstStop_decides before.wf statementStops_decide
  rw [goesOn] at decides further
  have inside := kind_ne_of_arrived decides.2 arrived
  have before := before.append decides.1
  exact before.append (listedStatement_moves phrases sound before.wf (further (by simp) rfl) inside
    (fitting.after before.runs).bound).1

-- Two texts

/-- The list of the second text has what the list of the first one has, and goes on at the state
that it comes to where the first text ends. -/
structure Continues (c : Seam) (r r' : Rules) (b b' : Bodies) (n n' depth' : Nat)
    (X Y Z : ParseState) : Prop where
  near : Loose c ⟨n, n'⟩ ((statementsWithin r b n).run X).2 Z
  fitting : Fitting depth' Z
  run : (statementsWithin r' b' n').run Y =
    let found := ((statementsWithin r b n).run X).1
    let rest := (statementsWithin r' b' (Z.remaining + 1)).run Z
    ((relocate c.carry found.1 ++ rest.1.1, relocate c.carry found.2.1 ++ rest.1.2.1, rest.1.2.2),
      rest.2)

variable {n n' : Nat}

/-- A list outside of all blocks goes on in the second text where the first one ends. -/
theorem continues_at_end (readers : Readers c k r r') (cut : c.IsCut) (keeps : ¬ c.drops)
    (phrases' : r'.Sound) (sound' : b'.Sound depth') (before : Before c k X Y) (wf : X.Wf)
    (fitting' : Fitting depth' Y) (outside : X.blocks = [])
    (bound : X.remaining < n + 1) (bound' : Y.remaining < n' + 1)
    (ends : ((separators r).run X).2.kind = .endOfStream) :
    ∃ Z, Continues c r r' b b' (n + 1) (n' + 1) depth' X Y Z := by
  obtain ⟨Z, j, meets⟩ := separatorsWithin_meets readers before.toArrived before.bound
    before.bound' (Nat.le_refl _) (Nat.le_refl _)
  have fitting : Fitting depth' Z := fitting'.after (meets.runs keeps phrases' fitting'.wf)
  have stops := run_statementsWithin_stop (b := b) (n := n) (statementStops_outside ends
    ((separators_silent readers.sound wf).blocks.trans outside)
    (meets.near.settled (readers.cut cut)))
  have fewer := meets.paced.fewer'
  -- however many rounds are left, they are enough
  have passed : (separatorsWithin r' j).run Z = (separators r').run Z :=
    (separators_loop phrases' fitting.wf).ends j Z.remaining () meets.fuel (Nat.le_refl _)
  have rounds : (statementsWithin r' b' (n' + 1)).run Z =
      (statementsWithin r' b' (Z.remaining + 1)).run Z :=
    (statements_loop phrases' sound' fitting).ends (n' + 1) (Z.remaining + 1) () (by omega)
      (Nat.le_refl _)
  have same := meets.run
  rw [passed] at same
  refine ⟨Z, ?_, fitting, ?_⟩
  · rw [stops]
    exact { meets.near with
      bound := Nat.lt_of_le_of_lt meets.paced.fewer bound
      bound' := Nat.lt_of_le_of_lt fewer bound' }
  · rw [stops, ← rounds]
    exact run_statementsWithin_congr _ same n'

/-- Outside of all blocks both lists go on where there is a statement in the first text. -/
theorem both_goOn (readers : Readers c k r r') (before : Before c k X Y) (wf : X.Wf)
    (outside : X.blocks = []) (more : ((separators r).run X).2.kind ≠ .endOfStream) :
    ∃ s s', (firstStop [stopAtPendingNext, stopAtTerminator, stopAtMember]).run
        ((separators r).run X).2 = (.goOn, s) ∧
      (firstStop [stopAtPendingNext, stopAtTerminator, stopAtMember]).run
        ((separators r').run Y).2 = (.goOn, s') ∧
      Loose c k s s' ∧ s.kind.endsLine = false ∧
      ((separators r').run Y).1 = relocate c.carry ((separators r).run X).1 := by
  obtain ⟨⟨colons, after, -⟩, unbroken, -⟩ := separators_tracks readers before fun _ => more
  have passed := separators_silent readers.sound wf
  have closed : Closed c ((separators r).run X).2 := by
    intro _ inside
    rw [ParseState.inProcedure, passed.blocks, outside] at inside
    cases inside
  obtain ⟨decision, stood, -⟩ := firstStop_tracks ⟨after, rfl, rfl⟩
    (statementStops_track readers.loops (fun _ => more) closed) fun _ => trivial
  rcases here : (firstStop [stopAtPendingNext, stopAtTerminator, stopAtMember]).run
    ((separators r).run X).2 with ⟨step, s⟩
  rcases there : (firstStop [stopAtPendingNext, stopAtTerminator, stopAtMember]).run
    ((separators r').run Y).2 with ⟨step', s'⟩
  rw [here, there] at decision stood
  obtain rfl : step' = step := decision
  have same : s.kind = ((separators r).run X).2.kind := ParseState.kind_of_ahead stood.same
  cases step' with
  | stop stop =>
    have ends := kind_of_stopped passed.wf (passed.blocks.trans outside) here
    exact absurd (same.symm.trans ends) more
  | goOn =>
    refine ⟨s, s', rfl, rfl, stood.toPaired, ?_, colons⟩
    rw [same]
    exact after.kind_cases.resolve_right fun stops => stops.elim more unbroken

/-- One more statement in front. -/
theorem Continues.cons {Z : ParseState}
    (here : (firstStop [stopAtPendingNext, stopAtTerminator, stopAtMember]).run
      ((separators r).run X).2 = (.goOn, s))
    (there : (firstStop [stopAtPendingNext, stopAtTerminator, stopAtMember]).run
      ((separators r').run Y).2 = (.goOn, t))
    (colons : ((separators r').run Y).1 = relocate c.carry ((separators r).run X).1)
    (first : ((listedStatement r' b').run t).1 =
      relocate c.carry ((listedStatement r b).run s).1)
    (continues : Continues c r r' b b' n n' depth' ((listedStatement r b).run s).2
      ((listedStatement r' b').run t).2 Z) :
    Continues c r r' b b' (n + 1) (n' + 1) depth' X Y Z where
  near := by
    rw [run_statementsWithin_goOn here]
    exact continues.near.up
  fitting := continues.fitting
  run := by
    rw [run_statementsWithin_goOn here, run_statementsWithin_goOn there]
    dsimp only
    rw [continues.run, colons, first]
    simp only [List.append_assoc, relocate_append]
    rfl

/-- The induction is on the rounds of the first list; the statements that it has read stand by
themselves, so each of them is read alike in the second text. -/
theorem statementsWithin_continues (readers : Readers c (k + 1) r r') (bodies : b.Agree c k b')
    (cut : c.IsCut) (keeps : ¬ c.drops) (phrases' : r'.Sound) (sound : b.Sound depth)
    (sound' : b'.Sound depth') (before : Before c ⟨n, n'⟩ X Y) (below : Bound.mk n n' ≤ k + 1)
    (fitting : Fitting depth X) (fitting' : Fitting depth' Y) (outside : X.blocks = [])
    (firm : ∀ s ∈ ((statementsWithin r b n).run X).1.1, s.Firm) :
    ∃ Z, Continues c r r' b b' n n' depth' X Y Z := by
  induction n generalizing n' X Y with
  | zero => exact absurd before.bound (Nat.not_lt_zero _)
  | succ n ih =>
    cases n' with
    | zero => exact absurd before.bound' (Nat.not_lt_zero _)
    | succ n' =>
    have fewer := Bound.le_of_succ_le_succ below
    have readers' := readers.mono below
    by_cases ends : ((separators r).run X).2.kind = .endOfStream
    · exact continues_at_end readers' cut keeps phrases' sound' before fitting.wf fitting' outside
        before.bound before.bound' ends
    · obtain ⟨s, s', here, there, near, inside, colons⟩ :=
        both_goOn readers' before fitting.wf outside ends
      rw [run_statementsWithin_goOn here] at firm
      obtain ⟨own, others⟩ := List.forall_mem_cons.1 firm
      obtain ⟨first, next, -⟩ := listedStatement_tracks readers.loops readers'.agree
        (bodies.mono fewer) (k := ⟨n, n'⟩) near inside fun _ => own
      have read := listed_stretch readers.sound sound fitting here
      have read' := listed_stretch phrases' sound' fitting' there
      obtain ⟨Z, continues⟩ := ih next.before (Bound.le_of_succ below)
        (fitting.after read.runs) (fitting'.after read'.runs) (read.blocks.trans outside) others
      exact ⟨Z, continues.cons here there colons first⟩

/-- A script whose list goes on behind a line break with the list of another script. -/
theorem wholeScript_continues {r'' : Rules} {b'' : Bodies} {Z W : ParseState}
    {g : Location → Location} (inPlace : c.carry = id)
    (continues : Continues c r r' b b' (X.remaining + 1) (Y.remaining + 1) depth' X Y Z)
    (breaks : Z.kind = .lineTerminator) (more : Z.following ≠ [])
    (value : ((statementsWithin r' b' (Z.remaining + 1)).run Z.advance).1 =
      relocate g ((statementsWithin r'' b'' (W.remaining + 1)).run W).1)
    (reported : ((statementsWithin r' b' (Z.remaining + 1)).run Z.advance).2.diagnostics ++
        ((statementsWithin r' b' (Z.remaining + 1)).run Z.advance).2.unended =
      relocate g (((statementsWithin r'' b'' (W.remaining + 1)).run W).2.diagnostics ++
        ((statementsWithin r'' b'' (W.remaining + 1)).run W).2.unended)) :
    let first := (wholeScript r b).run X
    let second := (wholeScript r'' b'').run W
    let both := (wholeScript r' b').run Y
    both.1.statements.statements =
        first.1.statements.statements ++ relocate g second.1.statements.statements ∧
      both.1.statements.colons =
        first.1.statements.colons ++ relocate g second.1.statements.colons ∧
      both.2.diagnostics = relocate g second.2.diagnostics := by
  have run := continues.run
  rw [run_statementsWithin_break breaks more, inPlace] at run
  obtain ⟨items, colons, -⟩ := wholeScript_found (r := r) (b := b) X
  obtain ⟨items'', colons'', found''⟩ := wholeScript_found (r := r'') (b := b'') W
  obtain ⟨items', colons', found'⟩ := wholeScript_found (r := r') (b := b') Y
  rw [run] at items' colons' found'
  dsimp only at items' colons' found' ⊢
  rw [value, relocate_id] at items' colons'
  refine ⟨?_, ?_, ?_⟩
  · rw [items', items, items'']
    rfl
  · rw [colons', colons, colons'']
    rfl
  · rw [found', found'', reported]

end Parse

-- Tokens

/-- Where the first text ends, nothing is missing behind the start of the line break. -/
theorem placeholder_joining {ending : Token} {rest : List Token}
    {breaks : ending.kind = .lineTerminator} {k : Bound} {X Z : ParseState}
    (near : Loose (.joining ending rest breaks) k X Z)
    (here : X.current.span.start = ending.span.start) :
    Z.placeholder.index ≤ ending.span.start.index := by
  have limit := near.limit
  have marked : X.placeholder.index ≤ X.limit := Nat.le_max_right _ _
  rw [ParseState.here, here] at limit
  rcases near.marked with same | ⟨-, before⟩ | ⟨drops, -⟩
  · rw [same]
    exact Nat.le_trans marked limit
  · cases before
  · exact drops.elim

/-- Behind an idle parser and the end of the line, another text starts as if it stood alone. -/
theorem ParseState.Idle.before {ending last : Token} {rest tokens : List Token}
    {breaks : ending.kind = .lineTerminator} {ends : last.kind = .endOfStream} {k : Bound}
    {X Z : ParseState} (idle : X.Idle) (near : Loose (.joining ending rest breaks) k X Z)
    (ended : X.kind = .endOfStream)
    (next : ending.span.start.index < ending.span.finish.index) (stream : Stream tokens)
    (ahead : (Seam.behind ending.span.finish Z.tables last ends).Ahead true tokens rest)
    (comments : List Comment) :
    Before (.behind ending.span.finish Z.tables last ends) (Bound.mk tokens.length Z.remaining + 1)
      (.start comments tokens) Z.advance := by
  obtain ⟨here, -, there, follows⟩ := near.cases.resolve_right fun goesOn => goesOn.1 ended
  change Z.current = ending at there
  change Z.following = rest at follows
  obtain ⟨t, ts, rfl⟩ := List.exists_cons_of_ne_nil ahead.ne_nil
  obtain ⟨u, us, rfl⟩ := List.exists_cons_of_ne_nil ahead.ne_nil'
  have wf := ParseState.wf_start comments stream
  have early := Nat.lt_of_le_of_lt (placeholder_joining near (congrArg (·.span.start) here)) next
  have quiet : Z.diagnostics = [] := by
    have count := near.count (by exact id)
    rw [idle.diagnostics] at count
    exact List.length_eq_zero_iff.1 count
  have fewer := ParseState.remaining_advance_lt follows
  rw [ParseState.advance_of_cons follows] at fewer ⊢
  exact
    { stream := wf.stream
      limit := wf.behind
      behind := .inr (.inr ⟨rfl, ending, congrArg some there, breaks, Nat.le_refl _⟩)
      marked := .inr (.inl ⟨rfl, early⟩)
      blocks := near.blocks.trans (by rw [idle.blocks]; rfl)
      depth := near.depth.trans idle.depth
      pending := fun _ => (near.pending trivial).trans (by rw [idle.pending]; rfl)
      settled := False.elim
      directives := fun _ => (near.directives (by exact id)).trans (by rw [idle.directives]; rfl)
      noDirectives := False.elim
      tables := fun _ => (DirectiveTables.append_empty _).symm
      notes := fun fresh => fresh.elim
      count := fun _ => congrArg List.length quiet
      reports := fun _ => ⟨[], quiet, List.nil_sublist _⟩
      ahead := ahead
      bound := Nat.lt_succ_of_lt (Nat.lt_succ_self _)
      bound' := Nat.lt_succ_of_lt fewer }

/-- The rules for phrases of a text with these tokens. -/
def Rules.ofTokens (version : Version) (tokens : List Token) : Rules :=
  .ofDepth version (tokens.length + 1)

/-- The rules for bodies of a script with these tokens. -/
def Bodies.ofTokens (version : Version) (tokens : List Token) : Bodies :=
  .ofDepth true (.ofTokens version tokens) (tokens.length + 1)

/-- The list of a script, and the state behind it. -/
def listRun (version : Version) (comments : List Comment) (tokens : List Token) :
    (List Statement × List Location × Option Terminator) × ParseState :=
  let start := ParseState.start comments tokens
  (Parse.statementsWithin (.ofTokens version tokens) (.ofTokens version tokens)
    (start.remaining + 1)).run start

def scriptRun (version : Version) (comments : List Comment) (tokens : List Token) :
    Script × ParseState :=
  (Parse.wholeScript (.ofTokens version tokens) (.ofTokens version tokens)).run
    (.start comments tokens)

section

variable {version : Version} {front rest tokens : List Token} {ending : Token} {last : Token}

theorem bodies_sound (version : Version) (tokens : List Token) :
    (Rules.ofTokens version tokens).Sound ∧
      (Bodies.ofTokens version tokens).Sound (tokens.length + 1) :=
  have phrases := Rules.ofDepth_sound version (tokens.length + 1)
  ⟨phrases, Bodies.ofDepth_sound phrases true _⟩

theorem fitting_start (comments : List Comment) (stream : Stream tokens) :
    Parse.Fitting (tokens.length + 1) (.start comments tokens) :=
  ⟨ParseState.wf_start comments stream,
    Nat.le_succ_of_le (ParseState.start_frame comments tokens).1⟩

/-- The rules for two texts read alike. -/
theorem readers_ofTokens (version : Version) {c : Seam} (loops : c.loops)
    (cut : c.IsCut → c.settles) (xs ys : List Token) :
    let k := Bound.mk xs.length ys.length
    Readers c (k + 1) (.ofTokens version xs) (.ofTokens version ys) ∧
      (Bodies.ofTokens version xs).Agree c k (.ofTokens version ys) := by
  intro k
  have readers : Readers c (k + 1) (.ofTokens version xs) (.ofTokens version ys) :=
    Readers.ofDepth version loops cut ⟨Nat.le_refl _, Nat.le_refl _⟩
  exact ⟨readers, Bodies.agree_ofDepth (readers.mono k.le_succ) true
    ⟨Nat.le_succ _, Nat.le_succ _⟩⟩

/-- The list of a script goes on where another text follows. -/
theorem list_continues (breaks : ending.kind = .lineTerminator)
    (stream : Stream (front ++ [⟨.endOfStream, .point ending.span.start⟩]))
    (stream' : Stream (front ++ ending :: rest)) (plain : ∀ t ∈ front, t.kind ≠ .comment)
    (comments comments' : List Comment)
    (firm : ∀ s ∈ (listRun version comments
      (front ++ [⟨.endOfStream, .point ending.span.start⟩])).1.1, s.Firm) :
    let first := front ++ [(⟨.endOfStream, .point ending.span.start⟩ : Token)]
    let both := front ++ ending :: rest
    let X := ParseState.start comments first
    let Y := ParseState.start comments' both
    ∃ Z, Parse.Continues (.joining ending rest breaks) (.ofTokens version first)
      (.ofTokens version both) (.ofTokens version first) (.ofTokens version both)
      (X.remaining + 1) (Y.remaining + 1) (both.length + 1) X Y Z := by
  intro first both X Y
  let c := Seam.joining ending rest breaks
  have keeps : ¬ c.drops := id
  have cut : c.IsCut := breaks
  obtain ⟨readers, bodies⟩ :=
    readers_ofTokens version (c := c) trivial (fun _ => trivial) first both
  have ahead : c.Ahead true first both := by
    have ahead := Seam.Ahead.front (c := c) keeps stream'.goesOn plain true
    rwa [show relocate c.carry front = front from relocate_id front] at ahead
  have before := Before.start rfl comments comments' (fun _ uncut => absurd cut uncut) stream ahead
  exact Parse.statementsWithin_continues readers bodies cut keeps (bodies_sound version both).1
    (bodies_sound version first).2 (bodies_sound version both).2 before.fresh before.fresh_le
    (fitting_start comments stream) (fitting_start comments' stream')
    (ParseState.start_frame comments first).2.2 firm

/-- The list of a text that stands behind another one is the list of the text, moved. -/
theorem list_behind {e : Location} {tables : DirectiveTables} {ends : last.kind = .endOfStream}
    {both : List Token} {Z : ParseState} (comments : List Comment)
    (more : Z.remaining ≤ both.length)
    (before : Before (.behind e tables last ends) (Bound.mk tokens.length Z.remaining + 1)
      (.start comments tokens) Z.advance) :
    let g := (Seam.behind e tables last ends).carry
    let found := listRun version comments tokens
    let found' := (Parse.statementsWithin (.ofTokens version both) (.ofTokens version both)
      (Z.remaining + 1)).run Z.advance
    found'.1 = relocate g found.1 ∧ found'.2.diagnostics ++ found'.2.unended =
      relocate g (found.2.diagnostics ++ found.2.unended) := by
  intro g found found'
  let c := Seam.behind e tables last ends
  have uncut : ¬ c.IsCut := Seam.uncut_of_ends ends
  obtain ⟨readers, bodies⟩ :=
    readers_ofTokens version (c := c) trivial (fun cut => absurd cut uncut) tokens both
  have few := (ParseState.start_frame comments tokens).1
  have before : Before c ⟨(ParseState.start comments tokens).remaining + 1, Z.remaining + 1⟩
      (.start comments tokens) Z.advance :=
    { before with bound := Nat.lt_succ_self _, bound' := before.bound' }
  obtain ⟨value, after, -⟩ := Parse.statementsWithin_tracks readers bodies before
    ⟨Nat.succ_le_succ few, Nat.succ_le_succ more⟩ fun settles => settles.elim
  refine ⟨value, ?_⟩
  have ended := (Parse.finish_near trivial after).diagnostics_eq uncut id
  rw [Parse.finish_diagnostics, Parse.finish_diagnostics] at ended
  exact ended

/-- A script behind a script without problems: both have their statements in turn, and what is wrong
is wrong with the second one. -/
theorem script_join (breaks : ending.kind = .lineTerminator)
    (next : ending.span.start.index < ending.span.finish.index)
    (moved : rest = relocate (fun l => ending.span.finish.behind l.rooted) tokens)
    (stream : Stream (front ++ [⟨.endOfStream, .point ending.span.start⟩]))
    (stream' : Stream (front ++ ending :: rest)) (second : Stream tokens)
    (plain : ∀ t ∈ front, t.kind ≠ .comment) (plain' : ∀ t ∈ tokens, t.kind ≠ .comment)
    (comments comments' comments'' : List Comment)
    (clean : (scriptRun version comments
      (front ++ [⟨.endOfStream, .point ending.span.start⟩])).2.diagnostics = [])
    (firm : ∀ s ∈ (scriptRun version comments
      (front ++ [⟨.endOfStream, .point ending.span.start⟩])).1.statements.statements, s.Firm) :
    let carry : Location → Location := fun l => ending.span.finish.behind l.rooted
    let here := scriptRun version comments (front ++ [⟨.endOfStream, .point ending.span.start⟩])
    let there := scriptRun version comments'' tokens
    let both := scriptRun version comments' (front ++ ending :: rest)
    both.1.statements.statements =
        here.1.statements.statements ++ relocate carry there.1.statements.statements ∧
      both.1.statements.colons =
        here.1.statements.colons ++ relocate carry there.1.statements.colons ∧
      both.2.diagnostics = relocate carry there.2.diagnostics := by
  intro carry here there both
  obtain ⟨Z, continues⟩ := list_continues breaks stream stream' plain comments comments' firm
  -- where the first text ends
  have sound := bodies_sound version (front ++ [⟨.endOfStream, .point ending.span.start⟩])
  obtain ⟨idle, ended⟩ := Parse.idle_of_clean sound.1 sound.2 (fitting_start comments stream)
    (ParseState.start_frame _ _).2.2 rfl clean
  obtain ⟨-, -, current, follows⟩ := continues.near.cases.resolve_right fun goesOn => goesOn.1 ended
  change Z.current = ending at current
  change Z.following = rest at follows
  -- the line break is passed, and the second text is read
  obtain ⟨last, isLast, ends⟩ := second.getLast
  have uncut : ¬ (Seam.behind ending.span.finish Z.tables last ends).IsCut :=
    Seam.uncut_of_ends ends
  have ahead : (Seam.behind ending.span.finish Z.tables last ends).Ahead true tokens rest :=
    moved ▸ Seam.ahead_relocate uncut id second isLast plain' true
  have before := idle.before continues.near ended next second ahead comments''
  have few : Z.remaining ≤ (front ++ ending :: rest).length :=
    Nat.le_trans (Nat.le_of_lt_succ continues.near.bound') (ParseState.start_frame _ _).1
  obtain ⟨found, reported⟩ := list_behind comments'' few before
  exact Parse.wholeScript_continues rfl continues
    ((congrArg Token.kind current).trans breaks) (follows ▸ ahead.ne_nil') found reported

end

end VisualBasic
