import VisualBasic.Parse.BlockStatement
import VisualBasic.Proofs.Parse.Bodies

/-!
Statements that hold other statements.  Their bodies are read behind the token that they start
with, so the rules for bodies may be one level less deep than there are tokens left.
-/

set_option autoImplicit false

namespace VisualBasic.Parse

variable {r : Rules} {b : Bodies} {depth : Nat} {s : ParseState}

theorem remaining_pos_of_terminator {x : Terminator} (wf : s.Wf) (starts : s.terminator? = some x) :
    0 < s.remaining := by
  have := remaining_advance wf (isSolid_of_terminator starts)
  omega

-- Objects

theorem whileBlock_yields (phrases : r.Sound) (sound : b.Sound depth) (wf : s.Wf)
    (solid : s.kind.isSolid = true) (bound : s.remaining ≤ depth) :
    Yields (whileBlock r b) s fun st => [Node.ofStatement st] := by
  have fewer := remaining_advance wf solid
  refine .read wf solid fun so reached => ?_
  refine (so.part (value_yields phrases so.wf)).bind fun condition t so => ?_
  refine (so.endLine (so.beyond reached)).bind fun header u line => ?_
  have left := line.so.later.remaining
  refine (statementBody_body sound .whileBlock line.forward line.so.wf (by omega)).bind
    fun found v body => ?_
  refine (end_of_body line.so body rfl).bind fun ending w ⟨so, apart⟩ => ?_
  exact so.finishBlock (so.past reached) line.start rfl rfl rfl apart

theorem objectBlock_yields (phrases : r.Sound) (sound : b.Sound depth) (kind : ObjectBlockKind)
    (wf : s.Wf) (solid : s.kind.isSolid = true) (bound : s.remaining ≤ depth) :
    Yields (objectBlock r b kind) s fun st => [Node.ofStatement st] := by
  have fewer := remaining_advance wf solid
  refine .read wf solid fun so reached => ?_
  refine (so.part (value_yields phrases so.wf)).bind fun object t so => ?_
  refine (so.endLine (so.beyond reached)).bind fun header u line => ?_
  have left := line.so.later.remaining
  refine (statementBody_body sound kind.block line.forward line.so.wf (by omega)).bind
    fun found v body => ?_
  refine (end_of_body line.so body (by cases kind <;> rfl)).bind fun ending w ⟨so, apart⟩ => ?_
  refine so.finishBlockWhen (so.past reached) line.start rfl rfl rfl (fun _ => ?_) apart
  cases kind <;> rfl

theorem usingResource_yields (phrases : r.Sound) (wf : s.Wf) :
    Yields (usingResource r) s Node.ofResource := by
  refine .check (.kindAfter ?_)
  split
  · exact (variableDeclarators_yields phrases false wf).bind fun _ _ facts => facts.1
  · exact (value_yields phrases wf).bind fun _ _ so => so

theorem usingBlock_yields (phrases : r.Sound) (sound : b.Sound depth) (wf : s.Wf)
    (solid : s.kind.isSolid = true) (bound : s.remaining ≤ depth) :
    Yields (usingBlock r b) s fun st => [Node.ofStatement st] := by
  have fewer := remaining_advance wf solid
  refine .read wf solid fun so reached => ?_
  refine (so.part (usingResource_yields phrases so.wf)).bind fun resource t so => ?_
  refine (so.endLine (so.beyond reached)).bind fun header u line => ?_
  have left := line.so.later.remaining
  refine (statementBody_body sound .usingBlock line.forward line.so.wf (by omega)).bind
    fun found v body => ?_
  refine (end_of_body line.so body rfl).bind fun ending w ⟨so, apart⟩ => ?_
  exact so.finishBlock (so.past reached) line.start rfl rfl rfl apart

-- Conditions

/-- Where no further part follows, the block ends. -/
theorem lastPart_stretch {α : Type} {lo : Nat} {o : ParseState} {block : OpenBlock}
    {kind : BlockKind} {stop : Option Terminator} {ns : List Node} (node : α → Node)
    (so : Stretch lo o s ns (block.owing stop.isSome))
    (stands : ∀ x, stop = some x → x = .endOf kind ∧ s.StandsAt x) :
    Ensures (takeEnd kind stop >>= fun ending => pure (([] : List α), ending)) s fun found t =>
      Stretch lo o t (ns ++ found.1.map node) (block.owing found.2.isSome) := by
  refine (takeEnd_stretch so stands).bind fun ending t so => .pure ?_
  simpa using so

/-- Only a loop accepts a `Next`. -/
theorem next_of_accepts {block : OpenBlock} {stop : Option Terminator} {x : Terminator}
    {kind : BlockKind} (isKind : block.kind = kind) (noLoop : kind ≠ .forBlock)
    (accepted : ∀ x, stop = some x → block.kind.accepts x = true) (stops : stop = some x) :
    x ≠ .next := by
  rintro rfl
  have accepts := accepted _ stops
  rw [isKind] at accepts
  cases kind <;> simp [BlockKind.accepts] at accepts noLoop

theorem remaining_of_ahead {t : ParseState} (ahead : t.ahead = s.ahead) :
    t.remaining = s.remaining := by
  obtain ⟨-, following⟩ := List.cons.inj ahead
  rw [ParseState.remaining, ParseState.remaining, following]

section

variable {α : Type} {lo : Nat} {o : ParseState} {block : OpenBlock} {ns : List Node}

/-- The state between two parts of a block: the terminator that ended the first is for the
block. -/
structure Between (block : OpenBlock) (lo : Nat) (o t : ParseState) (ns : List Node)
    (stop : Option Terminator) : Prop where
  so : Stretch lo o t ns (block.owing stop.isSome)
  stands : ∀ x, stop = some x → t.StandsAt x
  accepted : ∀ x, stop = some x → block.kind.accepts x = true

/-- A part begins a construct, which is reported when it comes too late in its block. -/
theorem beginPart_ensures {f : Unit → Parse α} {Q : α → ParseState → Prop} {problem : Problem}
    (so : Stretch lo o s ns []) (late : Bool) (quiet : problem.isQuiet = true)
    (rest : ∀ t, Stretch lo o t ns [] → t.ahead = s.ahead → Ensures (f ()) t Q) :
    Ensures (beginConstruct >>= fun _ =>
      if late then peek >>= fun token => report problem token.span >>= f else f ()) s Q := by
  refine .beginConstruct ?_
  split
  · exact .peek ((so.beginConstruct.report _ quiet fun _ => so.wf.stream.order).bind
      fun _ t ⟨so, _, ahead⟩ => rest t so ahead)
  · exact rest _ so.beginConstruct rfl

/-- The statements of a part, and the parts behind it. -/
theorem nextPart_stretch {t : ParseState} {header : Span} {hs : List Node} (sound : b.Sound depth)
    (node : α → Node) (build : Statements → α)
    (rest : Option Terminator → Parse (List α × Option EndBlock))
    (inside : o.blocks.head? = some block) (so : Stretch lo o s ns [])
    (line : Line s.here s t header hs) (bound : s.remaining ≤ depth)
    (goesOn : ∀ u ms stop, Between block lo o u ms stop → u.remaining < s.remaining →
      Ensures (rest stop) u fun found v =>
        Stretch lo o v (ms ++ found.1.map node) (block.owing found.2.isSome))
    (span : ∀ body, (node (build body)).span = header.merge body.span)
    (children : ∀ body, (node (build body)).children = hs ++ Node.ofStatements body)
    (whole : ∀ body, (node (build body)).isProper = true)
    (owes : ∀ body, (node (build body)).unclosed = [])
    (noLoop : ∀ body, (node (build body)).closing? = none)
    (explicit : ∀ body c, (node (build body)).implies c = false)
    (listed : ∀ body, ((node (build body)).lists, (node (build body)).container)
      = ([Node.ofStatements body], .script)) :
    Ensures (b.statements >>= fun found => rest found.2 >>= fun others =>
        pure (build found.1 :: others.1, others.2)) t fun found u =>
      Stretch lo o u (ns ++ found.1.map node) (block.owing found.2.isSome) := by
  have fewer := line.fewer
  have head : t.blocks.head? = some block := by rw [line.so.blocks, so.blocks, inside]
  refine (sound.statements t line.so.wf (by omega)).bind fun found u body => ?_
  rw [head] at body
  have long := part_stretch so line body (span _) (children _) (whole _) (owes _) (noLoop _)
    (fun c _ => explicit _ c) (listed _)
  have less := body.so.later.remaining
  have accepted (x : Terminator) (stops : found.2 = some x) : block.kind.accepts x = true := by
    obtain ⟨opened, same, accepts⟩ := body.accepted x stops
    cases same
    exact accepts
  refine (goesOn u _ _ ⟨long, body.stands, accepted⟩ (by omega)).bind fun others v so => .pure ?_
  simpa using so

/-- The further parts of a block.  Each is read behind the word it starts with, so the number of
tokens left bounds the number of parts. -/
theorem parts_stretch {kind : BlockKind} (node : α → Node)
    (parts : Nat → Bool → Option Terminator → Parse (List α × Option EndBlock))
    (isKind : block.kind = kind) (noLoop : kind ≠ .forBlock)
    (ends : ∀ n late stop, n = 0 ∨ stop = none ∨ stop = some (.endOf kind) →
      parts n late stop = takeEnd kind stop >>= fun ending => pure ([], ending))
    (step : ∀ n late x (t : ParseState) ms, x ≠ .endOf kind → kind.accepts x = true →
      t.terminator? = some x → Stretch lo o t ms [] → t.remaining ≤ depth →
      (∀ later u ks stop, Between block lo o u ks stop → u.remaining < t.remaining →
        Ensures (parts n later stop) u fun found v =>
          Stretch lo o v (ks ++ found.1.map node) (block.owing found.2.isSome)) →
      Ensures (parts (n + 1) late (some x)) t fun found v =>
        Stretch lo o v (ms ++ found.1.map node) (block.owing found.2.isSome))
    (n : Nat) (late : Bool) {stop : Option Terminator} (between : Between block lo o s ns stop)
    (fuel : s.remaining ≤ n) (bound : s.remaining ≤ depth) :
    Ensures (parts n late stop) s fun found t =>
      Stretch lo o t (ns ++ found.1.map node) (block.owing found.2.isSome) := by
  induction n generalizing s late stop ns with
  | zero =>
    obtain ⟨so, stands, accepted⟩ := between
    rw [ends 0 late stop (.inl rfl)]
    refine lastPart_stretch node so fun x stops => ?_
    have starts := terminator?_of_standsAt (stands x stops) (next_of_accepts isKind noLoop accepted stops)
    have := remaining_pos_of_terminator so.wf starts
    omega
  | succ n ih =>
    obtain ⟨so, stands, accepted⟩ := between
    cases stop with
    | none =>
      rw [ends (n + 1) late none (.inr (.inl rfl))]
      exact lastPart_stretch node so (by simp)
    | some x =>
      by_cases last : x = .endOf kind
      · subst last
        rw [ends (n + 1) late _ (.inr (.inr rfl))]
        exact lastPart_stretch node so fun x stops => ⟨(Option.some.inj stops).symm, stands x stops⟩
      · have starts := terminator?_of_standsAt (stands x rfl) (next_of_accepts isKind noLoop accepted rfl)
        refine step n late x s ns last (isKind ▸ accepted x rfl) starts so bound ?_
        intro later u ks stop between fewer
        exact ih later between (by omega) (by omega)

end

theorem ifParts_stretch {lo : Nat} {o : ParseState} {block : OpenBlock} {ns : List Node}
    {stop : Option Terminator} (phrases : r.Sound) (sound : b.Sound depth)
    (isIf : block.kind = .ifBlock) (inside : o.blocks.head? = some block) (n : Nat)
    (seenElse : Bool) (between : Between block lo o s ns stop) (fuel : s.remaining ≤ n)
    (bound : s.remaining ≤ depth) :
    Ensures (ifParts r b n seenElse stop) s fun found t =>
      Stretch lo o t (ns ++ found.1.map .ifPart) (block.owing found.2.isSome) := by
  refine parts_stretch .ifPart (ifParts r b) isIf (by simp) (fun n late stop last => ?_) ?_ n
    seenElse between fuel bound
  · rcases last with rfl | rfl | rfl <;> first | rfl | (cases n <;> rfl)
  · intro n late x t ms other accepted starts so bound goesOn
    cases x with
    | elseIf =>
      refine beginPart_ensures so late rfl fun u so ahead => ?_
      have left := remaining_of_ahead ahead
      refine (elseIfLine_line phrases so.wf (terminator?_of_ahead ahead ▸ starts)).bind
        fun header v line => ?_
      exact nextPart_stretch sound .ifPart
        (fun body => .elseIf header body (header.span.merge body.span)) (ifParts r b n late) inside
        so line (by omega) (fun u ms stop between fewer => goesOn late u ms stop between (by omega))
        (fun _ => rfl) (fun _ => rfl) (fun _ => rfl) (fun _ => rfl) (fun _ => rfl) (fun _ _ => rfl)
        fun _ => rfl
    | elsePart =>
      refine beginPart_ensures so late rfl fun u so ahead => ?_
      have left := remaining_of_ahead ahead
      have solid := isSolid_of_terminator (terminator?_of_ahead ahead ▸ starts)
      refine (wordLine_line so.wf solid).bind fun header v line => ?_
      exact nextPart_stretch sound .ifPart
        (fun body => .elsePart header body (header.merge body.span)) (ifParts r b n true) inside
        so line (by omega) (fun u ms stop between fewer => goesOn true u ms stop between (by omega))
        (fun _ => rfl) (fun _ => rfl) (fun _ => rfl) (fun _ => rfl) (fun _ => rfl) (fun _ _ => rfl)
        fun _ => rfl
    | _ => simp_all [BlockKind.accepts]

theorem tryParts_stretch {lo : Nat} {o : ParseState} {block : OpenBlock} {ns : List Node}
    {stop : Option Terminator} (phrases : r.Sound) (sound : b.Sound depth)
    (isTry : block.kind = .tryBlock) (inside : o.blocks.head? = some block) (n : Nat)
    (seenFinally : Bool) (between : Between block lo o s ns stop) (fuel : s.remaining ≤ n)
    (bound : s.remaining ≤ depth) :
    Ensures (tryParts r b n seenFinally stop) s fun found t =>
      Stretch lo o t (ns ++ found.1.map .tryPart) (block.owing found.2.isSome) := by
  refine parts_stretch .tryPart (tryParts r b) isTry (by simp) (fun n late stop last => ?_) ?_ n
    seenFinally between fuel bound
  · rcases last with rfl | rfl | rfl <;> first | rfl | (cases n <;> rfl)
  · intro n late x t ms other accepted starts so bound goesOn
    cases x with
    | catchPart =>
      refine beginPart_ensures so late rfl fun u so ahead => ?_
      have left := remaining_of_ahead ahead
      have solid := isSolid_of_terminator (terminator?_of_ahead ahead ▸ starts)
      refine (catchLine_line phrases so.wf solid).bind fun header v line => ?_
      exact nextPart_stretch sound .tryPart
        (fun body => .catchPart header body (header.span.merge body.span)) (tryParts r b n late)
        inside so line (by omega)
        (fun u ms stop between fewer => goesOn late u ms stop between (by omega))
        (fun _ => rfl) (fun _ => rfl) (fun _ => rfl) (fun _ => rfl) (fun _ => rfl) (fun _ _ => rfl)
        fun _ => rfl
    | finallyPart =>
      refine beginPart_ensures so late rfl fun u so ahead => ?_
      have left := remaining_of_ahead ahead
      have solid := isSolid_of_terminator (terminator?_of_ahead ahead ▸ starts)
      refine (wordLine_line so.wf solid).bind fun header v line => ?_
      exact nextPart_stretch sound .tryPart
        (fun body => .finallyPart header body (header.merge body.span)) (tryParts r b n true)
        inside so line (by omega)
        (fun u ms stop between fewer => goesOn true u ms stop between (by omega))
        (fun _ => rfl) (fun _ => rfl) (fun _ => rfl) (fun _ => rfl) (fun _ => rfl) (fun _ _ => rfl)
        fun _ => rfl
    | _ => simp_all [BlockKind.accepts]

theorem caseBlocks_stretch {lo : Nat} {o : ParseState} {block : OpenBlock} {ns : List Node}
    {stop : Option Terminator} (phrases : r.Sound) (sound : b.Sound depth)
    (isSelect : block.kind = .selectBlock) (inside : o.blocks.head? = some block) (n : Nat)
    (seenElse : Bool) (between : Between block lo o s ns stop) (fuel : s.remaining ≤ n)
    (bound : s.remaining ≤ depth) :
    Ensures (caseBlocks r b n seenElse stop) s fun found t =>
      Stretch lo o t (ns ++ found.1.map .caseBlock) (block.owing found.2.isSome) := by
  refine parts_stretch .caseBlock (caseBlocks r b) isSelect (by simp) (fun n late stop last => ?_)
    ?_ n seenElse between fuel bound
  · rcases last with rfl | rfl | rfl <;> first | rfl | (cases n <;> rfl)
  · intro n late x t ms other accepted starts so bound goesOn
    cases x with
    | case =>
      refine beginPart_ensures so late rfl fun u so ahead => ?_
      have left := remaining_of_ahead ahead
      have solid := isSolid_of_terminator (terminator?_of_ahead ahead ▸ starts)
      refine (caseLine_line phrases so.wf solid).bind fun header v line => ?_
      exact nextPart_stretch sound .caseBlock
        (fun body => ⟨.case header, body, header.span.merge body.span⟩) (caseBlocks r b n late)
        inside so line (by omega)
        (fun u ms stop between fewer => goesOn late u ms stop between (by omega))
        (fun _ => rfl) (fun _ => rfl) (fun _ => rfl) (fun _ => rfl) (fun _ => rfl) (fun _ _ => rfl)
        fun _ => rfl
    | caseElse =>
      refine beginPart_ensures so late rfl fun u so ahead => ?_
      have left := remaining_of_ahead ahead
      refine (caseElseLine_line so.wf (terminator?_of_ahead ahead ▸ starts)).bind
        fun header v line => ?_
      exact nextPart_stretch sound .caseBlock
        (fun body => ⟨.caseElse header, body, header.merge body.span⟩) (caseBlocks r b n true)
        inside so line (by omega)
        (fun u ms stop between fewer => goesOn true u ms stop between (by omega))
        (fun _ => rfl) (fun _ => rfl) (fun _ => rfl) (fun _ => rfl) (fun _ => rfl) (fun _ _ => rfl)
        fun _ => rfl
    | _ => simp_all [BlockKind.accepts]

/-- The first part of a block has been read within it. -/
theorem between_of_body {block : OpenBlock} {outer : List OpenBlock} {t : ParseState} {span : Span}
    {ns : List Node} {stop : Option Terminator} (inside : s.blocks = block :: outer)
    (body : Body s.blocks.head? .script s t span ns stop) : Between block s.here s t ns stop := by
  rw [inside] at body
  refine ⟨body.so, body.stands, fun x stops => ?_⟩
  obtain ⟨opened, same, accepts⟩ := body.accepted x stops
  cases same
  exact accepts

/-- Where the first part of a block has stopped, further parts can be read. -/
theorem Between.standing {block : OpenBlock} {lo : Nat} {o : ParseState} {ns : List Node}
    {stop : Option Terminator} (between : Between block lo o s ns stop)
    (stops : stop.isSome = true) : Between block s.here s s [] stop := by
  refine ⟨?_, between.stands, between.accepted⟩
  rw [stops]
  exact .refl between.so.wf

theorem ifBlock_stretch {o : ParseState} {start : Location} {condition : Expression}
    (phrases : r.Sound) (sound : b.Sound depth) (thenKeyword : Option Location)
    (so : Stretch start.index o s [.expression condition] []) (reached : start.index < o.limit)
    (bound : o.remaining < depth) :
    Ensures (ifBlock r b start condition thenKeyword) s fun st t =>
      Stretch start.index o t [Node.ofStatement st] [] := by
  refine (expectThen_stretch thenKeyword so).bind fun _ t so => ?_
  refine (so.endLine (so.beyond reached)).bind fun header u line => ?_
  have left := line.so.later.remaining
  refine (within_stretch (fun found => Node.ofStatements found.1 ++ found.2.1.map .ifPart)
    (fun found => Node.ofStatements found.1) (fun found => found.2.2.isSome) line.so.wf line.forward
    ?_).bind fun found v ⟨more, apart⟩ => ?_
  · have bound : u.remaining < depth := by omega
    refine (sound.statements _ (wf_within _ line.so.wf) bound).bind fun body v read => .get ?_
    have less : v.remaining ≤ u.remaining := read.so.later.remaining
    have rest := after_body (p := ifParts r b v.remaining false body.2)
      (fun found => found.1.map .ifPart) (fun found => found.2.isSome) read.so read.roster
      (fun none => by rw [none]; cases v.remaining <;> exact ⟨rfl, rfl, rfl⟩)
      fun stops => ifParts_stretch phrases sound rfl (by rw [read.so.blocks]; rfl) _ false
        ((between_of_body rfl read).standing stops) (Nat.le_refl _) (by omega)
    exact rest.bind fun _ _ facts => facts
  · have so := line.so.append more
    exact so.finishBlock (so.past reached) line.start rfl rfl rfl fun none =>
      List.forall_mem_singleton.2 ((apart none).mono line.so.runs.suffix.subset)

theorem lineEndIf_stretch {lo : Nat} {o : ParseState} {ns : List Node} (so : Stretch lo o s ns []) :
    Ensures lineEndIf s fun _ t => Stretch lo o t ns [] := by
  refine .check (.kindAfter ?_)
  split
  next ends =>
    simp only [Bool.and_eq_true, beq_iff_eq] at ends
    have solid : s.kind.isSolid = true := by rw [ends.1]; rfl
    have second : s.advance.kind.isSolid = true := by
      rw [ParseState.kind_advance so.wf solid, ends.2]
      rfl
    exact so.read solid fun so => so.skip second fun so => so
  next => exact so

/-- A single line does not show in what has been read. -/
theorem leaveLine_stretch {lo : Nat} {t : ParseState} {ns : List Node} (wf : s.Wf)
    (so : Stretch lo { s with lineIfDepth := s.lineIfDepth + 1 } t ns []) :
    Stretch lo s { t with lineIfDepth := t.lineIfDepth - 1 } ns [] where
  began := wf
  runs := (ParseState.Runs.act (.depth _)).trans (so.runs.trans (.act (.depth _)))
  books := so.books
  lower := so.lower
  fits := so.fits
  ascending := so.ascending
  noOverlap := so.noOverlap
  orderly := so.orderly
  blocks := so.blocks
  depth := by simp [so.depth]
  pending := so.pending
  ledger := so.ledger

theorem withinLineIf_ensures {α : Type} {p : Parse α} (nodes : α → List Node)
    (lists : α → List (List Node)) (wf : s.Wf)
    (inner : Ensures p { s with lineIfDepth := s.lineIfDepth + 1 } fun a t =>
      Stretch s.here { s with lineIfDepth := s.lineIfDepth + 1 } t (nodes a) [] ∧ t.Ended ∧
        (t.diagnostics = [] → ∀ l ∈ lists a, Node.Roster s.ahead .script l)) :
    Ensures (withinLineIf p) s fun a t => Stretch s.here s t (nodes a) [] ∧ t.Ended ∧
      (t.diagnostics = [] → ∀ l ∈ lists a, Node.Roster s.ahead .script l) :=
  ⟨leaveLine_stretch wf (And.left inner), And.right inner⟩

theorem lineEndIf_ended (ended : s.Ended) :
    Ensures lineEndIf s fun ending t => ending.isSome = true ∨ t.Ended := by
  refine .check (.kindAfter ?_)
  split
  · exact .inl rfl
  · exact .inr ended

theorem lineIf_ensures {o : ParseState} {start : Location} {condition : Expression}
    (sound : b.Sound depth) (thenKeyword : Location)
    (so : Stretch start.index o s [.expression condition] []) (reached : start.index < o.limit)
    (bound : o.remaining < depth) :
    Ensures (lineIf b start condition thenKeyword) s fun st t =>
      Stretch start.index o t [Node.ofStatement st] [] ∧
        ((Node.ofStatement st).IsLoose ∨ t.Ends) := by
  have left := so.later.remaining
  refine (withinLineIf_ensures (fun found => Node.ofStatements found.1
    ++ (found.2.2.map Node.ofStatements).getD []) (fun found => Node.ofStatements found.1
    :: (found.2.2.map Node.ofStatements).toList) so.wf ?_).bind fun found t ⟨more, ended, apart⟩ => ?_
  · have wf := (ParseState.Act.depth (s.lineIfDepth + 1)).wf so.wf
    refine (sound.line _ wf (Nat.lt_of_le_of_lt left bound)).bind
      fun statements t ⟨so, ended, apart⟩ => ?_
    refine ((so.eatPlace rfl).and ((Stretch.refl so.wf).eatPlace rfl)).bind fun place u facts => ?_
    obtain ⟨⟨so, cases⟩, ⟨passed, -⟩⟩ := facts
    cases place with
    | none =>
      obtain ⟨-, rfl, -⟩ | ⟨absent, -⟩ := cases
      · rw [← List.append_nil (Node.ofStatements statements)] at so
        exact ⟨so, ended, fun none => List.forall_mem_singleton.2 (apart none)⟩
      · cases absent
    | some place =>
      have less := so.later.remaining
      refine (sound.line _ so.wf (Nat.lt_of_le_of_lt less (Nat.lt_of_le_of_lt left bound))).bind
        fun others v ⟨more, ended, apart'⟩ => ⟨so.append more, ended, fun none => ?_⟩
      refine List.forall_mem_cons.2 ⟨apart (passed.later.clean (more.later.clean none)),
        List.forall_mem_singleton.2 ?_⟩
      exact (apart' none).mono so.runs.suffix.subset
  · refine ((lineEndIf_stretch (so.append more)).and ((lineEndIf_stretch (.refl more.wf)).and
      (lineEndIf_ended ended))).bind fun ending u facts => ?_
    obtain ⟨long, passed, ended⟩ := facts
    refine (long.finishHolding (long.past reached) rfl rfl (fun _ => rfl) fun none l member => ?_).and
      (ended.imp (fun closed => .inr (.inr (.inl closed))) .inr)
    exact (apart (passed.later.clean none) l member).mono so.runs.suffix.subset

/-- A statement that begins by reading a token. -/
theorem read_first {f : Token → Parse Statement} (wf : s.Wf) (solid : s.kind.isSolid = true)
    (rest : Stretch s.here s.advance s.advance [] [] → s.here < s.advance.limit →
      Ensures (f s.current) s.advance fun st t => Stretch s.here s.advance t [Node.ofStatement st] [] ∧
        ((Node.ofStatement st).IsLoose ∨ t.Ends)) :
    Ensures (read >>= f) s fun st t => Stretch s.here s t [Node.ofStatement st] [] ∧
      ((Node.ofStatement st).IsLoose ∨ t.Ends) := by
  have first := (Stretch.refl wf).pass solid
  have reached := (ParseState.limit_advance wf (ParseState.kind_ne_endOfStream solid)).1
  have found := rest ((Stretch.refl first.wf).weaken first.lower) reached
  exact ⟨first.trans found.1, found.2⟩

theorem ifStatement_ensures (phrases : r.Sound) (sound : b.Sound depth) (wf : s.Wf)
    (solid : s.kind.isSolid = true) (bound : s.remaining ≤ depth) :
    Ensures (ifStatement r b) s fun st t => Stretch s.here s t [Node.ofStatement st] [] ∧
      ((Node.ofStatement st).IsLoose ∨ t.Ends) := by
  have fewer := remaining_advance wf solid
  refine read_first wf solid fun so reached => ?_
  refine (so.part (value_yields phrases so.wf)).bind fun condition t so => ?_
  refine (so.eatPlace rfl).bind fun thenKeyword u ⟨so, _⟩ => .peekKind ?_
  split
  · exact lineIf_ensures sound _ so reached (by omega)
  · exact (ifBlock_stretch phrases sound _ so reached (by omega)).and
      ((ifBlock_concludes condition _ u).mono fun _ _ ends => ends.imp_left .inl)

theorem ifStatement_yields (phrases : r.Sound) (sound : b.Sound depth) (wf : s.Wf)
    (solid : s.kind.isSolid = true) (bound : s.remaining ≤ depth) :
    Yields (ifStatement r b) s fun st => [Node.ofStatement st] :=
  (ifStatement_ensures phrases sound wf solid bound).mono fun _ _ facts => facts.1

-- Loops

theorem takeLoop_stretch {lo : Nat} {o : ParseState} {block : OpenBlock} {ns : List Node}
    {stop : Option Terminator} (phrases : r.Sound) (hasCondition : Bool)
    (so : Stretch lo o s ns (block.owing stop.isSome))
    (stands : ∀ x, stop = some x → x = .loop ∧ s.StandsAt x) :
    Ensures (takeLoop r hasCondition stop) s fun ending t =>
      Stretch lo o t (ns ++ Node.ofLoopCondition (ending.bind LoopStatement.condition))
        (block.owing ending.isSome) := by
  cases stop with
  | none =>
    show Stretch lo o s (ns ++ []) _
    rwa [List.append_nil]
  | some x =>
    obtain ⟨rfl, here⟩ := stands x rfl
    have starts := terminator?_of_standsAt here (by simp)
    unfold takeLoop
    rw [if_pos rfl]
    refine .beginConstruct ?_
    have so := so.beginConstruct
    have solid := isSolid_of_terminator starts
    refine ((loopLine_line phrases so.wf solid).and (loopLine_forward r _)).bind
      fun ending t ⟨line, forward⟩ => ?_
    have so := so.append line.so
    split
    next repeated given =>
      exact (so.report _ rfl fun _ => forward repeated given).bind fun _ _ facts => facts.1
    next => exact so

theorem doBlock_yields (phrases : r.Sound) (sound : b.Sound depth) (wf : s.Wf)
    (solid : s.kind.isSolid = true) (bound : s.remaining ≤ depth) :
    Yields (doBlock r b) s fun st => [Node.ofStatement st] := by
  have fewer := remaining_advance wf solid
  refine .read wf solid fun so reached => ?_
  refine (so.part (loopCondition_yields phrases so.wf)).bind fun condition t so => ?_
  refine (so.endLine (so.beyond reached)).bind fun header u line => ?_
  have left := line.so.later.remaining
  refine (statementBody_body sound .doBlock line.forward line.so.wf (by omega)).bind
    fun found v body => ?_
  refine (after_body (fun ending => Node.ofLoopCondition (ending.bind LoopStatement.condition))
    Option.isSome body.so body.roster (fun none => ?_) fun stops => ?_).bind
    fun ending w ⟨more, apart⟩ => ?_
  · rw [none]
    exact ⟨rfl, rfl, rfl⟩
  · have so : Stretch v.here v v [] (OpenBlock.owing ⟨.doBlock, header, true⟩ found.2.isSome) := by
      rw [stops]
      exact .refl body.so.wf
    refine takeLoop_stretch phrases condition.isSome so fun x stops => ?_
    · obtain ⟨opened, same, accepts⟩ := body.accepted x stops
      cases same
      exact ⟨by simpa [BlockKind.accepts] using accepts, body.stands x stops⟩
  · have so := line.so.append more
    rw [← List.append_assoc] at so
    exact so.finishBlock (so.past reached) line.start rfl rfl rfl fun none =>
      List.forall_mem_singleton.2 ((apart none).mono line.so.runs.suffix.subset)

/-- A `Next` that closes a loop: it was left over before, or it has been read behind what the loop
holds. -/
structure Closing (o t : ParseState) (ns : List Node) (closes : NextStatement) : Prop where
  origin : (o.here ≤ closes.span.start.index ∧
      ∀ n ∈ ns, n.span.start.index ≤ closes.span.start.index) ∨
    ∃ q, o.pendingNext = some q ∧ q.statement = closes
  after : ∀ e ∈ closes.loopVariables.items, closes.span.start.index ≤ e.span.start.index
  fits : ∀ e ∈ closes.loopVariables.items,
    (Node.expression e).Fits 0 t.limit (t.diagnostics = [])

/-- What closes a loop behind its statements. -/
theorem Closing.afterBody {lo : Nat} {o t u : ParseState} {ns : List Node}
    {owed : List (BlockKind × Nat)} {closes : NextStatement} (closing : Closing t u [] closes)
    (so : Stretch lo o t ns owed) (leaves : LeavesOver o t ns) : Closing o u ns closes where
  origin := by
    have here := so.later.here
    rcases closing.origin with ⟨fresh, -⟩ | ⟨q, held, rfl⟩
    · exact .inl ⟨Nat.le_trans here fresh, fun n member =>
        Nat.le_trans (so.start_le_here member) fresh⟩
    · exact (leaves q held).imp_right And.right
  after := closing.after
  fits := closing.fits

/-- The first line of a loop leaves no `Next` over. -/
theorem Closing.afterHeader {lo : Nat} {o t u : ParseState} {hs ns : List Node}
    {owed : List (BlockKind × Nat)} {closes : NextStatement} (closing : Closing t u ns closes)
    (so : Stretch lo o t hs owed) (phrases : hs.all Node.isPhrase = true) :
    Closing o u (hs ++ ns) closes where
  origin := by
    have here := so.later.here
    rcases closing.origin with ⟨fresh, behind⟩ | ⟨q, held, same⟩
    · refine .inl ⟨Nat.le_trans here fresh, fun n member => ?_⟩
      rcases List.mem_append.1 member with early | late
      · exact Nat.le_trans (so.start_le_here early) fresh
      · exact behind n late
    · exact .inr (same ▸ so.steady phrases held)
  after := closing.after
  fits := closing.fits

theorem holds_of_line {t : ParseState} {closes : NextStatement} {index : Nat} {e : Expression}
    (line : Line s.here s t closes.span (closes.loopVariables.items.map .expression))
    (member : e ∈ closes.loopVariables.items) : t.Holds ⟨closes, index⟩ e := by
  have member := List.mem_map_of_mem (f := Node.expression) member
  have fits := line.so.fits _ member
  refine ⟨?_, fits.finish, fun loop => ?_, fits.nests, fits.inOrder, fits.proper⟩
  · exact Nat.le_trans (Nat.le_of_eq line.start) fits.start
  · exact Nat.lt_of_le_of_lt (Nat.le_trans fits.order (line.covers _ member)) (line.settled loop)

/-- The `Next` is at the end of its line, or a variable is taken that is not its first. -/
def EndsLoop (t : ParseState) (closes : NextStatement) (named : Option Expression) : Prop :=
  t.Ends ∨ ∃ index e, 0 < index ∧ named = some e ∧ closes.loopVariables.items[index]? = some e

theorem next_ensures (phrases : r.Sound) (wf : s.Wf) (stands : s.StandsAt .next) :
    Ensures (next r) s fun found t => s.Passes t ∧ Closing s t [] found.1 ∧
      (∀ e, found.2 = some e → e ∈ found.1.loopVariables.items) ∧ EndsLoop t found.1 found.2 := by
  refine .get ?_
  extract_lets rest
  have goOn (closes : NextStatement) (index : Nat) (t : ParseState)
      (so : Stretch s.here s t [] []) (origin : s.here ≤ closes.span.start.index ∨
        ∃ q, s.pendingNext = some q ∧ q.statement = closes)
      (holds : ∀ e ∈ closes.loopVariables.items, t.Holds ⟨closes, index + 1⟩ e)
      (forward : t.Ordered → closes.span.Forward)
      (ends : EndsLoop t closes closes.loopVariables.items[index]?) :
      Ensures (rest (closes, index)) t fun found u => s.Passes u ∧ Closing s u [] found.1 ∧
        (∀ e, found.2 = some e → e ∈ found.1.loopVariables.items) ∧ EndsLoop u found.1 found.2 := by
    have left {q : PendingNext}
        (kept : (if closes.loopVariables.items.length ≤ index + 1 then none
          else some (PendingNext.mk closes (index + 1))) = some q) :
        q = ⟨closes, index + 1⟩ ∧ index + 1 < closes.loopVariables.items.length := by
      split at kept
      next => cases kept
      next more => exact ⟨(Option.some.inj kept).symm, Nat.not_le.1 more⟩
    refine ⟨{ so.passes with
      runs := so.runs.trans
        (.act (.pending _ (fun q kept => ?_) (fun q kept => ?_) fun ordered q kept => ?_))
      pending := fun q kept => ?_ }, ⟨origin.imp_left fun fresh => ⟨fresh, by simp⟩,
        fun e member => (holds e member).start, fun e member => ?_⟩,
        fun e named => List.mem_of_getElem? named, ends⟩
    · rw [(left kept).1]
      exact holds
    · obtain ⟨rfl, more⟩ := left kept
      exact ⟨Nat.succ_pos _, more⟩
    · rw [(left kept).1]
      exact forward ordered
    · rw [(left kept).1]
      exact origin
    · obtain ⟨-, finish, -, nests, inOrder, proper⟩ := holds e member
      exact ⟨Nat.zero_le _, finish, nests, inOrder, proper⟩
  split
  next pending left =>
    obtain ⟨later, within⟩ := wf.rest pending left
    refine goOn _ _ s (.refl wf) (.inr ⟨pending, left, rfl⟩) (fun e member => ?_)
      (fun ordered => ordered.pending pending left)
      (.inr ⟨pending.index, _, later, List.getElem?_eq_getElem within, List.getElem?_eq_getElem within⟩)
    obtain ⟨start, finish, before, nests, inOrder, proper⟩ := wf.pending pending left e member
    exact ⟨start, finish, before, nests, inOrder, proper⟩
  next none =>
    have starts : s.terminator? = some .next := by
      rcases stands with here | ⟨-, left⟩
      · exact here
      · simp [none] at left
    refine .beginConstruct ?_
    have so := (Stretch.refl wf).beginConstruct
    have solid := isSolid_of_terminator starts
    refine ((nextLine_line phrases so.wf solid).and (nextLine_concludes _)).bind
      fun closes t ⟨line, ends⟩ => ?_
    exact goOn closes 0 t (so.followed (line.so.forget (by simp [Node.isPhrase])))
      (.inl (Nat.le_of_eq line.start.symm)) (fun e member => holds_of_line line member)
      (fun _ => line.forward) (.inl (ends.resolve_left id))

/-- What closes a loop, and the variable that it names for the loop. -/
structure Looped (o t : ParseState) (ns : List Node) (ending : Option NextStatement)
    (named : Option Expression) : Prop where
  closing : ∀ closes, ending = some closes → Closing o t ns closes
  ends : ∀ closes, ending = some closes → EndsLoop t closes named
  named : ∀ e, named = some e → ∃ closes, ending = some closes ∧ e ∈ closes.loopVariables.items

/-- The variables that were left over when a loop started stand before it. -/
def LeftBefore (start : Nat) (o : ParseState) : Prop :=
  ∀ q, o.pendingNext = some q → ∀ e ∈ q.statement.loopVariables.items, e.span.start.index < start

theorem passes_leave {block : OpenBlock} {t u : ParseState} (forward : block.header.Forward)
    (blocks : t.blocks = block :: s.blocks) (past : t.Passes u) :
    ParseState.Passes { t with blocks := t.blocks.tail } { u with blocks := u.blocks.tail } where
  runs :=
    (ParseState.Runs.act (.blocks t.blocks fun ordered b member => by
      rw [blocks] at member
      rcases List.mem_cons.1 member with rfl | later
      · exact forward
      · exact ordered.blocks b (by simpa [blocks] using later))).trans
    (past.runs.trans (.act (.blocks _ fun ordered b member =>
      ordered.blocks b (List.mem_of_mem_tail member))))
  books := past.books
  blocks := by rw [past.blocks]
  depth := past.depth
  pending := past.pending
  ledger := past.ledger

/-- The body of a loop has been read up to the state in between, where the `Next` of the loop is
taken up. -/
theorem forBody_stretch {lo : Nat} {o : ParseState} {hs : List Node} {header : Span}
    (phrases : r.Sound) (sound : b.Sound depth) (forward : header.Forward)
    (so : Stretch lo o s hs []) (isHeader : hs.all Node.isPhrase = true)
    (bound : s.remaining < depth) :
    Ensures (forBody r b header) s fun found t =>
      (∃ m, Stretch lo o m (hs ++ Node.ofStatements found.1)
          (OpenBlock.owing ⟨.forBlock, header, true⟩ found.2.1.isSome) ∧ m.Passes t) ∧
        Looped o t (hs ++ Node.ofStatements found.1) found.2.1 found.2.2 ∧
        (t.diagnostics = [] → Node.Roster o.ahead .script (Node.ofStatements found.1)) := by
  have inside : ParseState.Wf { s with blocks := ⟨.forBlock, header, true⟩ :: s.blocks } :=
    wf_within _ so.wf
  refine within_ensures (P := fun found t =>
    (∃ m, Stretch s.here { s with blocks := ⟨.forBlock, header, true⟩ :: s.blocks } m
        (Node.ofStatements found.1) (OpenBlock.owing ⟨.forBlock, header, true⟩ found.2.1.isSome) ∧
      m.Passes t) ∧
      Looped s t (Node.ofStatements found.1) found.2.1 found.2.2 ∧
      (t.diagnostics = [] → Node.Roster s.ahead .script (Node.ofStatements found.1))) ?_
    fun found t ⟨⟨m, inner, past⟩, looped, apart⟩ =>
      ⟨⟨{ m with blocks := m.blocks.tail }, ?_, ?_⟩, ?_, fun none => ?_⟩
  · refine ((sound.statements _ inside bound).and (sound.leaves _ inside bound)).bind
      fun (body, stop) t ⟨read, leaves⟩ => ?_
    dsimp only at read leaves ⊢
    split
    next stops =>
      subst stops
      refine (next_ensures phrases read.so.wf (read.stands _ rfl)).bind
        fun found u ⟨past, closing, named, ends⟩ => ⟨⟨t, read.so, past⟩, ⟨?_, ?_, ?_⟩, fun none => ?_⟩
      · intro closes same
        obtain ⟨origin, after, fits⟩ := closing.afterBody read.so leaves
        exact Option.some.inj same ▸ ⟨origin, after, fits⟩
      · exact fun closes same => Option.some.inj same ▸ ends
      · exact fun e names => ⟨found.1, rfl, named e names⟩
      · exact read.roster ((past.runs.later read.so.wf).clean none)
    next other =>
      -- a loop accepts nothing else
      have unclosed : stop = none := by
        cases stop with
        | none => rfl
        | some x =>
          obtain ⟨opened, same, accepts⟩ := read.accepted x rfl
          cases same
          exact absurd (by simpa [BlockKind.accepts] using accepts) other
      subst unclosed
      exact ⟨⟨t, read.so, .refl t⟩, ⟨by simp, by simp, by simp⟩, read.roster⟩
  · exact so.append (leave_stretch so.wf forward inner)
  · exact passes_leave forward inner.blocks past
  · refine ⟨fun closes ends => ?_, looped.ends, looped.named⟩
    obtain ⟨origin, after, fits⟩ := (looped.closing closes ends).afterHeader so isHeader
    exact ⟨origin, after, fits⟩
  · exact (apart none).mono so.runs.suffix.subset

/-- A variable stands before its loop just when the `Next` that names it does. -/
theorem Looped.before_iff {start : Nat} {o t : ParseState} {ns : List Node} {closes : NextStatement}
    {named : Option Expression} {e : Expression} (looped : Looped o t ns (some closes) named)
    (left : LeftBefore start o) (behind : start < o.here) (names : named = some e) :
    e.span.start.index < start ↔ closes.span.start.index < start := by
  obtain ⟨closes', same, member⟩ := looped.named e names
  cases same
  have closing := looped.closing closes rfl
  have after := closing.after e member
  rcases closing.origin with ⟨fresh, -⟩ | ⟨q, held, rfl⟩
  · omega
  · have := left q held e member
    omega

/-- A loop that has been read: its header and its statements, the `Next` that closes it and the
variable that the `Next` names for it. -/
structure IsLoop (n : Node) (start : Location) (o t : ParseState) (ns : List Node)
    (ending : Option NextStatement) (named : Option Expression) : Prop where
  reached : start.index < o.limit
  limit : o.limit ≤ t.limit
  behind : start.index < o.here
  left : LeftBefore start.index o
  looped : Looped o t ns ending named
  span : n.span = t.spanSince start
  children : n.children = ns ++ Node.ofOption .expression named
  closing : n.closing? = ending.map fun closes => (closes, named)

theorem IsLoop.finished {lo : Nat} {n : Node} {start : Location} {o m t : ParseState}
    {ns : List Node} {owed : List (BlockKind × Nat)} {ending : Option NextStatement}
    {named : Option Expression} (so : Stretch lo o m ns owed) (past : m.Passes t)
    (reached : start.index < o.limit) (left : LeftBefore start.index o)
    (looped : Looped o t ns ending named) (span : n.span = t.spanSince start)
    (children : n.children = ns ++ Node.ofOption .expression named)
    (closing : n.closing? = ending.map fun closes => (closes, named)) :
    IsLoop n start o t ns ending named :=
  ⟨reached, Nat.le_trans so.later.limit (past.runs.later so.wf).limit,
    Nat.lt_of_lt_of_le reached so.began.behind, left, looped, span, children, closing⟩

namespace IsLoop

variable {n c : Node} {start : Location} {o t : ParseState} {ns : List Node}
  {ending : Option NextStatement} {named : Option Expression}

theorem start_eq (loop : IsLoop n start o t ns ending named) : n.span.start.index = start.index := by
  rw [loop.span]
  rfl

theorem finish_eq (loop : IsLoop n start o t ns ending named) : n.span.finish.index = t.limit := by
  have reached := loop.reached
  have limit := loop.limit
  rw [loop.span, t.index_finishSince]
  omega

/-- The variable stands before the loop just when the loop is closed before it. -/
theorem closedBefore_iff (loop : IsLoop n start o t ns ending named) :
    n.ClosedBefore c ↔ ∃ e, named = some e ∧ c = .expression e ∧ e.span.start.index < start.index := by
  constructor
  · rintro ⟨closes, e, found, rfl, earlier⟩
    rw [loop.closing] at found
    obtain ⟨closes, rfl, same⟩ := Option.map_eq_some_iff.1 found
    cases same
    exact ⟨e, rfl, rfl,
      (loop.looped.before_iff loop.left loop.behind rfl).2 (loop.start_eq ▸ earlier)⟩
  · rintro ⟨e, rfl, rfl, earlier⟩
    obtain ⟨closes, rfl, -⟩ := loop.looped.named e rfl
    exact ⟨closes, e, loop.closing, rfl,
      loop.start_eq ▸ (loop.looped.before_iff loop.left loop.behind rfl).1 earlier⟩

theorem not_closedBefore_of_mem (loop : IsLoop n start o t ns ending named)
    (lower : start.index ≤ c.span.start.index) : ¬ n.ClosedBefore c := by
  rw [loop.closedBefore_iff]
  rintro ⟨e, -, rfl, earlier⟩
  exact Nat.not_lt.2 lower earlier

theorem named_fits (loop : IsLoop n start o t ns ending named) {e : Expression}
    (names : named = some e) : (Node.expression e).Fits 0 t.limit (t.diagnostics = []) := by
  obtain ⟨closes, rfl, listed⟩ := loop.looped.named e names
  exact (loop.looped.closing closes rfl).fits e listed

/-- A loop spans its header and its body.  The variable that closes it is within its span unless
it was left over before. -/
theorem nests (loop : IsLoop n start o t ns ending named)
    (inside : ∀ c ∈ ns, start.index ≤ c.span.start.index ∧ c.span.finish.index ≤ t.limit) :
    n.Nests := by
  have begins := loop.start_eq
  have ends := loop.finish_eq
  have reached := loop.reached
  have limit := loop.limit
  refine ⟨by omega, fun c member => ?_⟩
  rw [Node.contains_iff, begins, ends]
  rw [loop.children] at member
  rcases List.mem_append.1 member with within | last
  · exact iff_of_true (inside c within) (loop.not_closedBefore_of_mem (inside c within).1)
  · cases names : named with
    | none => simp [names, Node.ofOption] at last
    | some e =>
      obtain rfl : c = .expression e := by simpa [names, Node.ofOption] using last
      have fits := loop.named_fits names
      rw [and_iff_left fits.finish, ← Nat.not_lt, loop.closedBefore_iff]
      refine not_congr ⟨fun earlier => ⟨e, names, rfl, earlier⟩, ?_⟩
      rintro ⟨e', -, same, earlier⟩
      cases same
      exact earlier

/-- What a loop holds comes before the variable that closes it, unless that variable was left over
before the loop. -/
theorem variable_inOrder (loop : IsLoop n start o t ns ending named) {e : Expression}
    (names : named = some e) (lower : ∀ c ∈ ns, start.index ≤ c.span.start.index)
    (holds : ns ≠ []) :
    (∀ a ∈ ns, a.span.start.index ≤ e.span.start.index) ↔ ¬ n.ClosedBefore (.expression e) := by
  obtain ⟨closes, rfl, listed⟩ := loop.looped.named e names
  have closing := loop.looped.closing closes rfl
  rw [loop.closedBefore_iff]
  constructor
  · rintro inOrder ⟨e', -, same, earlier⟩
    cases same
    obtain ⟨first, member⟩ := List.exists_mem_of_ne_nil _ holds
    have := inOrder first member
    have := lower first member
    omega
  · intro notBefore a member
    rcases closing.origin with ⟨-, fresh⟩ | ⟨q, held, rfl⟩
    · exact Nat.le_trans (fresh a member) (closing.after e listed)
    · exact absurd ⟨e, names, rfl, loop.left q held e listed⟩ notBefore

theorem inOrder (loop : IsLoop n start o t ns ending named) (ascending : Node.Ascending ns)
    (lower : ∀ c ∈ ns, start.index ≤ c.span.start.index) (holds : ns ≠ [])
    (explicit : ∀ c, n.implies c = false) : n.InOrder := by
  have displaced (c : Node) : n.Displaced c ↔ n.ClosedBefore c := by simp [Node.Displaced, explicit c]
  have placed (c : Node) (member : c ∈ ns) : ¬ n.Displaced c :=
    mt (displaced c).1 (loop.not_closedBefore_of_mem (lower c member))
  have children := loop.children
  cases names : named with
  | none =>
    simp only [names, Node.ofOption, Option.map_none, Option.toList_none, List.append_nil] at children
    exact Node.inOrder_of_ascending (children ▸ ascending) (children ▸ placed)
  | some e =>
    rw [names] at children
    refine Node.inOrder_of_last children ascending placed ?_
    rw [displaced]
    exact loop.variable_inOrder names lower holds

/-- A loop without an end is open; one with an end is closed by the rest of a `Next`, or a statement
ends behind it. -/
theorem loose_or_ends (loop : IsLoop n start o t ns ending named)
    (isBlock : n.block? = some (.forBlock, ending.isSome)) : n.IsLoose ∨ t.Ends := by
  cases ends : ending with
  | none => exact .inl (.inl (by simp [Node.unclosed, isBlock, ends]))
  | some closes =>
    rcases loop.looped.ends closes ends with ended | ⟨index, e, later, names, taken⟩
    · exact .inr ended
    · refine .inl (.inr (.inr (.inr ⟨closes, e, index, ?_, later, taken⟩)))
      rw [loop.closing, ends, names, Option.map_some]

end IsLoop

/-- A rule that ends by giving a loop the span since `start`. -/
theorem finishLoop {start : Location} {o m t : ParseState} {ns : List Node} {header : Span}
    {ending : Option NextStatement} {named : Option Expression} {build : Span → Statement}
    (so : Stretch start.index o m ns (OpenBlock.owing ⟨.forBlock, header, true⟩ ending.isSome))
    (past : m.Passes t) (begins : header.start.index = start.index)
    (loop : IsLoop (Node.ofStatement (build (t.spanSince start))) start o t ns ending named)
    (holds : ns ≠ []) {body : List Node}
    (listed : (Node.ofStatement (build (t.spanSince start))).lists = [body])
    (apart : t.diagnostics = [] →
      Node.Roster o.ahead (Node.ofStatement (build (t.spanSince start))).container body)
    (isBlock : (Node.ofStatement (build (t.spanSince start))).block?
      = some (.forBlock, ending.isSome))
    (whole : (Node.ofStatement (build (t.spanSince start))).isProper = true)
    (isItem : (Node.ofStatement (build (t.spanSince start))).isPhrase = false)
    (explicit : ∀ c, (Node.ofStatement (build (t.spanSince start))).implies c = false) :
    Ensures (Parse.spanFrom start >>= fun span => pure (build span)) t fun st u =>
      Stretch start.index o u [Node.ofStatement st] [] ∧
        ((Node.ofStatement st).IsLoose ∨ u.Ends) := by
  refine .and (P := fun st u => Stretch start.index o u [Node.ofStatement st] []) ?_
    (loop.loose_or_ends isBlock)
  show Stretch start.index o t [Node.ofStatement (build (t.spanSince start))] []
  have later := past.runs.later so.wf
  have fits (c : Node) (member : c ∈ ns) : c.Fits start.index t.limit (t.diagnostics = []) :=
    (so.fits c member).mono (Nat.le_refl _) later.limit later.clean
  refine so.gather past isItem loop.start_eq (Nat.le_of_eq loop.finish_eq)
    (loop.nests fun c member => ⟨(fits c member).start, (fits c member).finish⟩)
    (loop.inOrder so.ascending (fun c member => (fits c member).start) holds explicit)
    (fun none => ⟨whole, fun v member => ?_⟩) (fun c member => ?_) (fun none => ?_) ?_
  · -- what the `Next` names for other loops is proper too
    cases ending with
    | none => simp [Node.closingVariables, loop.closing] at member
    | some closes =>
      have listed : v ∈ closes.loopVariables.items := by
        simpa [Node.closingVariables, loop.closing] using member
      exact (((loop.looped.closing closes rfl).fits v listed).proper none).mono
        fun _ facts => facts.1
  · rw [loop.children] at member
    rcases List.mem_append.1 member with inside | last
    · exact ⟨_, _, fits c inside⟩
    · cases names : named with
      | none => simp [names, Node.ofOption] at last
      | some e =>
        obtain rfl : c = .expression e := by simpa [names, Node.ofOption] using last
        exact ⟨_, _, loop.named_fits names⟩
  · refine Node.everywhere_iff.2 ⟨Node.orderly_of_lists listed
      (List.forall_mem_singleton.2 (apart none)), fun c member => ?_⟩
    rw [loop.children] at member
    rcases List.mem_append.1 member with inside | last
    · exact so.orderly (later.clean none) c inside
    · exact Node.orderly_of_isPhrase
        (List.all_eq_true.1 (Node.all_ofOption_isPhrase (fun _ => rfl) named) c last) _
  · have phrases : (Node.ofOption .expression named).flatMap Node.openBlocks = [] :=
      List.flatMap_eq_nil_iff.2 fun c member => Node.openBlocks_of_isPhrase
        (List.all_eq_true.1 (Node.all_ofOption_isPhrase (fun _ => rfl) named) c member)
    have owes : (Node.ofStatement (build (t.spanSince start))).unclosed
        = OpenBlock.owing ⟨.forBlock, header, true⟩ ending.isSome :=
      Node.unclosed_eq_owing isBlock (by rw [loop.start_eq]; exact begins)
    rw [Node.openBlocks_eq fun c _ => explicit c, loop.children, List.flatMap_append, phrases,
      List.append_nil, owes]
    exact List.perm_append_comm

theorem forControl_yields (phrases : r.Sound) (wf : s.Wf) :
    Yields (forControl r) s fun control => [Node.ofForControl control] := by
  refine .get ?_
  split
  · exact (loopDeclarator_yields phrases wf).bind fun _ _ so => so
  · exact (expression_yields phrases _ wf).bind fun _ _ so => so

theorem forEachBlock_ensures {o : ParseState} {start : Location} (phrases : r.Sound)
    (sound : b.Sound depth) (so : Stretch start.index o s [] []) (reached : start.index < o.limit)
    (left : LeftBefore start.index o) (bound : o.remaining < depth) :
    Ensures (forEachBlock r b start) s fun st t =>
      Stretch start.index o t [Node.ofStatement st] [] ∧
        ((Node.ofStatement st).IsLoose ∨ t.Ends) := by
  refine (so.part (forControl_yields phrases so.wf)).bind fun control t so => ?_
  refine (so.expectPlace rfl rfl).bind fun inKeyword u ⟨so, _⟩ => ?_
  refine (so.part (value_yields phrases so.wf)).bind fun collection v so => ?_
  refine (so.endLine (so.beyond reached)).bind fun header w line => ?_
  have less := line.so.later.remaining
  refine (forBody_stretch phrases sound line.forward line.so
    (by cases control <;> rfl) (by omega)).bind
    fun found x ⟨⟨m, so, past⟩, looped, apart⟩ => ?_
  exact finishLoop so past line.start (.finished so past reached left looped rfl rfl rfl) (by simp)
    rfl apart rfl rfl rfl fun _ => rfl

theorem forBlock_ensures {o : ParseState} {start : Location} (phrases : r.Sound)
    (sound : b.Sound depth) (so : Stretch start.index o s [] []) (reached : start.index < o.limit)
    (left : LeftBefore start.index o) (bound : o.remaining < depth) :
    Ensures (forBlock r b start) s fun st t =>
      Stretch start.index o t [Node.ofStatement st] [] ∧
        ((Node.ofStatement st).IsLoose ∨ t.Ends) := by
  refine (so.part (forControl_yields phrases so.wf)).bind fun control t so => ?_
  refine (so.expectPlace rfl rfl).bind fun equals u ⟨so, _⟩ => ?_
  refine (so.part (value_yields phrases so.wf)).bind fun lower v so => ?_
  refine (so.expectPlace rfl rfl).bind fun toKeyword w ⟨so, _⟩ => ?_
  refine (so.part (value_yields phrases so.wf)).bind fun upper x so => ?_
  refine (so.whenEaten (Node.ofOption .expression) rfl rfl fun _ wf => value_yields phrases wf).bind
    fun step y so => ?_
  refine (so.endLine (so.beyond reached)).bind fun header z line => ?_
  have less := line.so.later.remaining
  refine (forBody_stretch phrases sound line.forward line.so
    (by cases control <;> cases step <;> rfl) (by omega)).bind
    fun found a ⟨⟨m, so, past⟩, looped, apart⟩ => ?_
  exact finishLoop so past line.start (.finished so past reached left looped rfl rfl rfl) (by simp)
    rfl apart rfl rfl rfl fun _ => rfl

theorem forStatement_ensures (phrases : r.Sound) (sound : b.Sound depth) (wf : s.Wf)
    (loop : s.kind = .word .kwFor) (bound : s.remaining ≤ depth) :
    Ensures (forStatement r b) s fun st t => Stretch s.here s t [Node.ofStatement st] [] ∧
      ((Node.ofStatement st).IsLoose ∨ t.Ends) := by
  have solid : s.kind.isSolid = true := by rw [loop]; rfl
  have fewer := remaining_advance wf solid
  have left : LeftBefore s.here s.advance := by
    intro q held e member
    rw [s.advance_frame.2.2.2] at held
    exact (wf.pending q held e member).before loop
  refine read_first wf solid fun so reached => ?_
  refine (so.eat rfl).bind fun each t ⟨so, _⟩ => ?_
  cases each with
  | none => exact forBlock_ensures phrases sound so reached left (by omega)
  | some _ => exact forEachBlock_ensures phrases sound so reached left (by omega)

theorem forStatement_yields (phrases : r.Sound) (sound : b.Sound depth) (wf : s.Wf)
    (loop : s.kind = .word .kwFor) (bound : s.remaining ≤ depth) :
    Yields (forStatement r b) s fun st => [Node.ofStatement st] :=
  (forStatement_ensures phrases sound wf loop bound).mono fun _ _ facts => facts.1

-- Exceptions and selections

theorem tryBlock_yields (phrases : r.Sound) (sound : b.Sound depth) (wf : s.Wf)
    (solid : s.kind.isSolid = true) (bound : s.remaining ≤ depth) :
    Yields (tryBlock r b) s fun st => [Node.ofStatement st] := by
  have fewer := remaining_advance wf solid
  refine .read wf solid fun so reached => ?_
  refine (so.endLine (so.beyond reached)).bind fun header u line => ?_
  have left := line.so.later.remaining
  refine (within_stretch (fun found => Node.ofStatements found.1 ++ found.2.1.map .tryPart)
    (fun found => Node.ofStatements found.1) (fun found => found.2.2.isSome) line.so.wf line.forward
    ?_).bind fun found v ⟨more, apart⟩ => ?_
  · have bound : u.remaining < depth := by omega
    refine (sound.statements _ (wf_within _ line.so.wf) bound).bind fun body v read => .get ?_
    have less : v.remaining ≤ u.remaining := read.so.later.remaining
    have rest := after_body (p := tryParts r b v.remaining false body.2)
      (fun found => found.1.map .tryPart) (fun found => found.2.isSome) read.so read.roster
      (fun none => by rw [none]; cases v.remaining <;> exact ⟨rfl, rfl, rfl⟩)
      fun stops => tryParts_stretch phrases sound rfl (by rw [read.so.blocks]; rfl) _ false
        ((between_of_body rfl read).standing stops) (Nat.le_refl _) (by omega)
    exact rest.bind fun _ _ facts => facts
  · have so := line.so.append more
    exact so.finishBlock (so.past reached) line.start rfl rfl rfl fun none =>
      List.forall_mem_singleton.2 ((apart none).mono line.so.runs.suffix.subset)

theorem selectBlock_yields (phrases : r.Sound) (sound : b.Sound depth) (wf : s.Wf)
    (solid : s.kind.isSolid = true) (bound : s.remaining ≤ depth) :
    Yields (selectBlock r b) s fun st => [Node.ofStatement st] := by
  have fewer := remaining_advance wf solid
  refine .read wf solid fun so reached => ?_
  refine (so.eatPlace rfl).bind fun caseKeyword t ⟨so, _⟩ => ?_
  refine (so.part (value_yields phrases so.wf)).bind fun subject u so => ?_
  refine (so.endLine (so.beyond reached)).bind fun header v line => ?_
  have left := line.so.later.remaining
  refine (within_stretch (fun found => Node.ofStatements found.1 ++ found.2.1.map .caseBlock)
    (fun found => Node.ofStatements found.1) (fun found => found.2.2.isSome) line.so.wf line.forward
    ?_).bind fun found v ⟨more, apart⟩ => ?_
  · have bound : v.remaining < depth := by omega
    refine (sound.statements _ (wf_within _ line.so.wf) bound).bind fun (leading, stop) w read => ?_
    have between := between_of_body rfl read
    dsimp -zeta only
    extract_lets rest
    have goOn (x : ParseState) (between : Between ⟨.selectBlock, header, true⟩ v.here
        { v with blocks := ⟨.selectBlock, header, true⟩ :: v.blocks } x
        (Node.ofStatements leading) stop) (after : w.Later x) :
        Ensures (rest ()) x fun found y => Stretch v.here
          { v with blocks := ⟨.selectBlock, header, true⟩ :: v.blocks } y
          (Node.ofStatements found.1 ++ found.2.1.map .caseBlock)
          (OpenBlock.owing ⟨.selectBlock, header, true⟩ found.2.2.isSome) ∧
          (y.diagnostics = [] → Node.Roster v.ahead .script (Node.ofStatements found.1)) := by
      have less : x.remaining ≤ v.remaining := between.so.later.remaining
      refine .get ?_
      have parts := after_body (p := caseBlocks r b x.remaining false stop)
        (fun found => found.1.map .caseBlock) (fun found => found.2.isSome) between.so
        (fun none => read.roster (after.clean none))
        (fun none => by rw [none]; cases x.remaining <;> exact ⟨rfl, rfl, rfl⟩)
        fun stops => caseBlocks_stretch phrases sound rfl (by rw [between.so.blocks]; rfl) _ false
          (between.standing stops) (Nat.le_refl _) (by omega)
      exact parts.bind fun _ _ facts => facts
    split
    · exact goOn w between (.standing rfl (Nat.le_refl _) id)
    · have so := (Stretch.refl between.so.wf).beginConstruct
      refine .beginConstruct ((so.report _ rfl fun _ => read.order).bind
        fun _ x ⟨so, _, ahead⟩ =>
          goOn x ⟨between.so.followed so, fun y stops => ?_, between.accepted⟩ so.later)
      have other := next_of_accepts rfl (by simp) between.accepted stops
      have starts := terminator?_of_standsAt (between.stands y stops) other
      exact .inl (terminator?_of_ahead ahead ▸ starts)
  · have so := line.so.append more
    exact so.finishBlock (so.past reached) line.start rfl rfl rfl fun none =>
      List.forall_mem_singleton.2 ((apart none).mono line.so.runs.suffix.subset)

end VisualBasic.Parse
