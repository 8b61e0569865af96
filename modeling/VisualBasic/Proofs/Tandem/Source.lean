import VisualBasic.Parse.Source
import VisualBasic.Proofs.Parse.Source
import VisualBasic.Proofs.Tandem.Body

/-!
Whole texts with the same tokens.  A text whose tokens have been moved gives the same tree, the same
diagnostics and the same tables, moved in the same way; what was found before it stays in front.
-/

set_option autoImplicit false

namespace VisualBasic

namespace Parse

variable {c : Seam} {m : Option ParseState} {k : Bound} {r r' : Rules} {b b' : Bodies}
  {X Y : ParseState}

-- What is still open at the end of a text

theorem reportAll_near (problem : Problem) (spans : List Span) (near : Loose c k X Y) :
    Loose c k ((reportAll problem spans).run X).2
      ((reportAll problem (relocate c.carry spans)).run Y).2 := by
  induction spans generalizing X Y with
  | nil => exact near
  | cons span rest ih => exact ih (near.begun.reports_report fun _ => ⟨rfl, rfl⟩).loose

/-- What the first text leaves open, the second one may lack. -/
theorem reportAll_before (drops : c.drops) (problem : Problem) (spans : List Span)
    (near : Loose c k X Y) : Loose c k ((reportAll problem spans).run X).2 Y := by
  induction spans generalizing X with
  | nil => exact near
  | cons span rest ih =>
    refine ih (X := ParseState.report { X with suppressed := false } problem span) ?_
    rw [ParseState.report_of_not_suppressed rfl]
    refine
      { near with
        tables := fun keeps => absurd drops keeps
        notes := fun _ _ keeps => absurd drops keeps
        directives := fun keeps => absurd drops keeps
        count := fun keeps => absurd drops keeps
        reports := fun uncut => ?_
        suppressed := fun within => by cases within
        stays := fun _ member => by cases member }
    obtain ⟨ds, all, part⟩ := near.reports uncut
    refine ⟨ds, all, part.trans ?_⟩
    show List.Sublist _ (relocate c.carry (X.diagnostics ++ [_]))
    rw [relocate_append]
    exact List.sublist_append_left _ _

theorem finishDirectives_near (near : Loose c k X Y) :
    Loose c k (finishDirectives.run X).2 (finishDirectives.run Y).2 := by
  by_cases drops : c.drops
  · have none := near.noDirectives drops
    have still : finishDirectives.run Y = ((), Y) := by
      show ((reportAll _ _ >>= fun _ => reportAll _ _ >>= fun _ => reportAll _ _).run Y) = _
      rw [none]
      rfl
    rw [still]
    exact reportAll_before drops _ _ (reportAll_before drops _ _ (reportAll_before drops _ _ near))
  · have same := near.directives drops
    have conditionals : Y.directives.conditionals.reverse.map OpenConditional.directive =
        relocate c.carry (X.directives.conditionals.reverse.map OpenConditional.directive) := by
      rw [same]
      show ((X.directives.conditionals.map _).reverse).map _ = List.map _ (List.map _ _)
      rw [← List.map_reverse, List.map_map, List.map_map]
      rfl
    have regions : Y.directives.regions.reverse.map OpenRegion.directive =
        relocate c.carry (X.directives.regions.reverse.map OpenRegion.directive) := by
      rw [same]
      show ((X.directives.regions.map _).reverse).map _ = List.map _ (List.map _ _)
      rw [← List.map_reverse, List.map_map, List.map_map]
      rfl
    have mapping : (Y.directives.mapping.map OpenMapping.directive).toList =
        relocate c.carry (X.directives.mapping.map OpenMapping.directive).toList := by
      rw [same]
      show ((X.directives.mapping.map _).map _).toList = _
      cases X.directives.mapping <;> rfl
    have all := reportAll_near .expectedEndExternalSource
      (X.directives.mapping.map OpenMapping.directive).toList
      (reportAll_near .expectedEndRegion (X.directives.regions.reverse.map OpenRegion.directive)
        (reportAll_near .expectedCcEndIf
          (X.directives.conditionals.reverse.map OpenConditional.directive) near))
    rw [← conditionals, ← regions, ← mapping] at all
    exact all

/-- Reports what is still open, in both texts. -/
theorem finish_near (loops : c.loops) (near : Loose c k X Y) :
    Loose c k (finish.run X).2 (finish.run Y).2 := by
  unfold finish
  rw [Paired.run_get, Paired.run_get, near.pending loops]
  cases X.pendingNext with
  | none => exact finishDirectives_near near
  | some pending => exact finishDirectives_near (dropPendingNext_near near pending)

-- Whole texts

/-- Two runs give the same and end at the same place. -/
def Echoes {α : Type} [Relocate α] (c : Seam) (k : Bound) (p q : Parse α) (X Y : ParseState) :
    Prop :=
  (q.run Y).1 = relocate c.carry (p.run X).1 ∧ Loose c k (p.run X).2 (q.run Y).2

end Parse

/-- Both texts have all tokens, from the start of the text to its end. -/
structure Seam.IsWhole (c : Seam) : Prop where
  uncut : ¬ c.IsCut
  keeps : ¬ c.drops
  loops : c.loops
  free : ¬ c.settles
  fresh : c.fresh
  origin : c.carry .origin = .origin

namespace Parse

variable {c : Seam} {m : Option ParseState} {k : Bound} {r r' : Rules} {b b' : Bodies}
  {X Y : ParseState}

theorem current_of_whole (whole : c.IsWhole) (near : Loose c k X Y) :
    Y.current = relocate c.carry X.current :=
  near.current.resolve_right fun ends => whole.uncut ends.1

theorem wholeSpan_eq (whole : c.IsWhole) (near : Loose c k X Y) (list : Span) :
    ((wholeSpan (relocate c.carry list)).run Y).1 = relocate c.carry ((wholeSpan list).run X).1 := by
  refine (Span.mk.injEq ..).mpr ⟨whole.origin.symm, ?_⟩
  show Y.current.span.finish.later (c.carry list.finish) =
    c.carry (X.current.span.finish.later list.finish)
  rw [current_of_whole whole near, ← Seam.later_carry]
  rfl

theorem run_wholeFile (s : ParseState) :
    (wholeFile r b).run s =
      let body := (declarations r b .file).run s
      let after := (finish.run body.2).2
      (⟨body.1.1, after.comments, ((wholeSpan body.1.1.span).run after).1⟩, after) :=
  rfl

theorem run_wholeScript (s : ParseState) :
    (wholeScript r b).run s =
      let body := (statements r b).run s
      let after := (finish.run body.2).2
      (⟨body.1.1, after.comments, ((wholeSpan body.1.1.span).run after).1⟩, after) :=
  rfl

theorem wholeFile_echoes (whole : c.IsWhole) (readers : Readers c (k + 1) r r')
    (bodies : b.Agree c k b') (near : Loose c (k + 1) X Y) :
    Echoes c (k + 1) (wholeFile r b) (wholeFile r' b') X Y := by
  obtain ⟨value, after, -⟩ := declarations_tracks readers bodies near.before .file
    fun settles => absurd settles whole.free
  have ended := finish_near whole.loops after
  unfold Echoes
  rw [run_wholeFile, run_wholeFile]
  refine ⟨(SourceFile.mk.injEq ..).mpr ⟨?_, ?_, ?_⟩, ended⟩
  · exact congrArg Prod.fst value
  · exact (ended.notes whole.fresh whole.uncut whole.keeps).1
  · rw [value]
    exact wholeSpan_eq whole ended _

theorem wholeScript_echoes (whole : c.IsWhole) (readers : Readers c (k + 1) r r')
    (bodies : b.Agree c k b') (near : Loose c (k + 1) X Y) :
    Echoes c (k + 1) (wholeScript r b) (wholeScript r' b') X Y := by
  obtain ⟨value, after, -⟩ := statements_tracks readers bodies near.before
    fun settles => absurd settles whole.free
  have ended := finish_near whole.loops after
  unfold Echoes
  rw [run_wholeScript, run_wholeScript]
  refine ⟨(Script.mk.injEq ..).mpr ⟨?_, ?_, ?_⟩, ended⟩
  · exact congrArg Prod.fst value
  · exact (ended.notes whole.fresh whole.uncut whole.keeps).1
  · rw [value]
    exact wholeSpan_eq whole ended _

/-- Both parsers are between constructs, and both or none have a diagnostic for the last one. -/
theorem near_of_level (near : Paired c m k X Y) (level : Y.suppressed = X.suppressed) :
    Near c Y k X Y :=
  { near with
    suppressed := fun _ => level
    stays := fun s member => by
      obtain rfl : Y = s := Option.some.inj member
      exact ⟨rfl, rfl, rfl, List.prefix_refl _⟩ }

theorem run_singleDeclaration (s : ParseState) :
    (singleDeclaration r b).run s =
      let found := (declaration r b .script).run ((separators r).run s).2
      (found.1, (finish.run found.2).2) :=
  rfl

theorem singleDeclaration_echoes (whole : c.IsWhole) (readers : Readers c (k + 1) r r')
    (bodies : b.Agree c k b') (near : Loose c (k + 1) X Y) (level : Y.suppressed = X.suppressed) :
    Echoes c (k + 1) (singleDeclaration r b) (singleDeclaration r' b') X Y := by
  obtain ⟨⟨-, after, -⟩, -, level'⟩ := separators_tracks readers near.before
    fun cut => absurd cut whole.uncut
  have near := near_of_level after (level' whole.keeps level)
  have found := declaration_tracks readers.agree bodies near (current_of_whole whole after) .script
    fun settles => absurd settles whole.free
  unfold Echoes
  rw [run_singleDeclaration, run_singleDeclaration]
  exact ⟨found.value, finish_near whole.loops found.after⟩

/-- The one statement that a text is to start with. -/
def statementOrNone (r : Rules) (b : Bodies) : Parse Statement := do
  let token ← peek
  if token.kind = .endOfStream then
    report .expectedStatement token.span
    return .bad token.span
  else statement r b

theorem run_singleStatement (s : ParseState) :
    (singleStatement r b).run s =
      let found := (statementOrNone r b).run ((separators r).run s).2
      (found.1, (finish.run found.2).2) := by
  unfold singleStatement statementOrNone
  iterate 3 rw [Paired.run_bind]
  extract_lets rest found
  split
  next ends => simp only [found, if_pos ends]; rfl
  next goesOn => simp only [found, if_neg goesOn]; rfl

theorem singleStatement_echoes (whole : c.IsWhole) (readers : Readers c (k + 1) r r')
    (bodies : b.Agree c k b') (near : Loose c (k + 1) X Y) (level : Y.suppressed = X.suppressed) :
    Echoes c (k + 1) (singleStatement r b) (singleStatement r' b') X Y := by
  obtain ⟨⟨-, after, -⟩, -, level'⟩ := separators_tracks readers near.before
    fun cut => absurd cut whole.uncut
  have near := near_of_level after (level' whole.keeps level)
  have current := current_of_whole whole after
  have found : Tracked c (fun s _ => s.Firm) (Loose c (k + 1)) (statementOrNone r b)
      (statementOrNone r' b') ((separators r).run X).2 ((separators r').run Y).2 := by
    generalize ((separators r).run X).2 = X at near current ⊢
    generalize ((separators r').run Y).2 = Y at near current ⊢
    refine .step rfl rfl (.refl X Y) ?_
    rw [current, Token.kind_relocate]
    split
    · exact near.report (fun _ => rfl) fun X Y _ near => .pure near.loose rfl
    · exact statement_tracks readers.loops readers.agree bodies near current
  have found := found fun settles => absurd settles whole.free
  unfold Echoes
  rw [run_singleStatement, run_singleStatement]
  exact ⟨found.value, finish_near whole.loops found.after⟩

end Parse

-- Texts

/-- All tokens of a text have been moved, and something had been found before. -/
def Seam.moving (carry : Location → Location) (before : Findings) (last : Token)
    (ends : last.kind = .endOfStream)
    (ordered : ∀ a b, (carry a).index < (carry b).index ↔ a.index < b.index)
    (origin : carry .origin = .origin) : Seam where
  carry := carry
  last := last
  first := relocate carry last
  rest := []
  found := before.diagnostics
  recorded := before.tables
  drops := False
  loops := True
  settles := False
  fresh := True
  ordered := ordered
  anchored moved := by
    rw [origin] at moved
    exact absurd moved (Nat.lt_irrefl 0)
  inPlace := False.elim
  ends := ends
  meets := rfl
  joint := .inr ⟨rfl, rfl⟩

/-- A stream ends with its last token. -/
theorem Stream.getLast {tokens : List Token} (stream : Stream tokens) :
    ∃ last, tokens.getLast? = some last ∧ last.kind = .endOfStream := by
  induction stream with
  | @last t ends => exact ⟨t, rfl, ends⟩
  | cons _ _ _ _ _ ih =>
    obtain ⟨last, found, ends⟩ := ih
    exact ⟨last, by rw [List.getLast?_cons_cons, found], ends⟩

theorem Seam.ahead_relocate {c : Seam} (uncut : ¬ c.IsCut) (keeps : ¬ c.drops)
    {tokens : List Token} (stream : Stream tokens) (last : tokens.getLast? = some c.last)
    (plain : ∀ t ∈ tokens, t.kind ≠ .comment) (fresh : Bool) :
    c.Ahead fresh tokens (relocate c.carry tokens) := by
  obtain ⟨first, rest⟩ := Seam.whole uncut
  obtain ⟨line, rfl⟩ := List.getLast?_eq_some_iff.1 last
  have ahead := Ahead.front keeps stream.goesOn
    (fun t member => plain t (List.mem_append_left _ member)) fresh
  rw [first, rest] at ahead
  rwa [relocate_append]

theorem DirectiveTables.append_empty (t : DirectiveTables) : t.append .empty = t := by
  cases t
  simp [append, empty]

/-- Before either text has been read. -/
theorem Before.start {c : Seam} (origin : c.carry .origin = .origin) (comments comments' : List Comment)
    (noted : c.fresh → ¬ c.IsCut → ¬ c.drops → comments' = relocate c.carry comments)
    {tokens tokens' : List Token} (stream : Stream tokens) (ahead : c.Ahead true tokens tokens') :
    Before c (Bound.mk tokens.length tokens'.length + 1) (.start comments tokens)
      { ParseState.start comments' tokens' with
        diagnostics := c.found
        tables := c.recorded } := by
  have wf := ParseState.wf_start comments stream
  obtain ⟨t, rest, rfl⟩ := List.exists_cons_of_ne_nil ahead.ne_nil
  obtain ⟨t', rest', rfl⟩ := List.exists_cons_of_ne_nil ahead.ne_nil'
  refine
    { stream := wf.stream
      limit := wf.behind
      behind := .inl ⟨rfl, rfl⟩
      marked := .inl origin.symm
      blocks := rfl
      depth := rfl
      pending := fun _ => rfl
      settled := fun _ => rfl
      directives := fun _ => rfl
      noDirectives := fun _ => rfl
      tables := fun _ => (DirectiveTables.append_empty _).symm
      notes := fun fresh uncut keeps => ?_
      count := fun _ => rfl
      reports := fun _ => ⟨[], (List.append_nil _).symm, List.nil_sublist _⟩
      ahead := ahead
      bound := Nat.lt_succ_of_lt (Nat.lt_succ_self _)
      bound' := Nat.lt_succ_of_lt (Nat.lt_succ_self _) }
  rw [noted fresh uncut keeps]
  exact ParseState.noteComments_relocate ⟨rfl, rfl⟩ (ahead.start keeps)

theorem Seam.IsWhole.start {c : Seam} (whole : c.IsWhole) (comments : List Comment)
    {tokens : List Token} (stream : Stream tokens) (plain : ∀ t ∈ tokens, t.kind ≠ .comment)
    (last : tokens.getLast? = some c.last) :
    Loose c (Bound.mk tokens.length (relocate c.carry tokens).length + 1)
      (.start comments tokens)
      { ParseState.start (relocate c.carry comments) (relocate c.carry tokens) with
        diagnostics := c.found
        tables := c.recorded } := by
  have ahead := Seam.ahead_relocate whole.uncut whole.keeps stream last plain true
  have before := Before.start whole.origin comments _ (fun _ _ _ => rfl) stream ahead
  exact
    { before.toArrived.twin fun drops => absurd drops whole.keeps with
      suppressed := fun isSome => by cases isSome
      stays := fun _ member => by cases member
      bound := before.bound
      bound' := before.bound' }

/-- Nothing is left out, so all diagnostics are the same. -/
theorem Paired.diagnostics_eq {c : Seam} {m : Option ParseState} {k : Bound} {X Y : ParseState}
    (near : Paired c m k X Y) (uncut : ¬ c.IsCut) (keeps : ¬ c.drops) :
    Y.diagnostics = c.found ++ relocate c.carry X.diagnostics := by
  obtain ⟨ds, all, part⟩ := near.reports uncut
  have count := near.count keeps
  rw [all, List.length_append, Nat.add_left_cancel_iff] at count
  rw [all, part.eq_of_length (count.trans (length_relocate ..).symm)]

theorem plain_of_significant (tokens : List Token) :
    ∀ t ∈ tokens.filter fun t => !t.isComment, t.kind ≠ .comment := by
  intro t member isComment
  simpa [Token.isComment, isComment] using (List.mem_filter.1 member).2

theorem filter_isComment_relocate (g : Location → Location) (tokens : List Token) :
    (relocate g tokens).filter (fun t => !t.isComment) =
      relocate g (tokens.filter fun t => !t.isComment) :=
  List.filter_map

theorem filterMap_comment?_relocate (g : Location → Location) (tokens : List Token) :
    (relocate g tokens).filterMap Token.comment? =
      relocate g (tokens.filterMap Token.comment?) := by
  show (List.map _ _).filterMap _ = List.map _ _
  rw [List.filterMap_map, List.map_filterMap]
  refine congrArg (fun f => List.filterMap f tokens) (funext fun t => ?_)
  show (relocate g t).comment? = t.comment?.map (relocate g)
  unfold Token.comment?
  rw [show (relocate g t).lexeme = t.lexeme from rfl]
  split <;> rfl

/-- Runs a rule on tokens behind what has been found before. -/
def Findings.parse {α : Type} (before : Findings) (rule : Rules → Bodies → Parse α)
    (version : Version) (isScript : Bool) (tokens : List Token) : Parsed α :=
  let significant := tokens.filter fun t => !t.isComment
  let depth := significant.length + 1
  let r := Rules.ofDepth version depth
  let start := ParseState.start (tokens.filterMap Token.comment?) significant
  let (tree, state) := (rule r (Bodies.ofDepth isScript r depth)).run
    { start with diagnostics := before.diagnostics, tables := before.tables }
  ⟨tree, state.diagnostics, state.tables⟩

/-- The rules for phrases read two texts alike that have no more tokens than the phrases may nest. -/
theorem Readers.ofDepth (version : Version) {c : Seam} (loops : c.loops) (cut : c.IsCut → c.settles)
    {k : Bound} {n m : Nat} (deep : k + 1 ≤ ⟨n, m⟩) :
    Readers c (k + 1) (.ofDepth version n) (.ofDepth version m) where
  agree := Rules.agree_ofDepth c version deep
  alone c' := Rules.agree_ofDepth c' version ⟨deep.1, deep.1⟩
  sound := Rules.ofDepth_sound version n
  loops := loops
  cut := cut

/-- Like `parse`, with phrases nested up to a given depth. -/
def Findings.parseTo {α : Type} (before : Findings) (depth : Nat) (rule : Rules → Bodies → Parse α)
    (version : Version) (isScript : Bool) (tokens : List Token) : Parsed α :=
  let r := Rules.ofDepth version depth
  let start := ParseState.start (tokens.filterMap Token.comment?)
    (tokens.filter fun t => !t.isComment)
  let (tree, state) := (rule r (Bodies.ofDepth isScript r depth)).run
    { start with diagnostics := before.diagnostics, tables := before.tables }
  ⟨tree, state.diagnostics, state.tables⟩

/-- A rule that reads two whole texts alike. -/
def Moves {α : Type} [Relocate α] (rule : Rules → Bodies → Parse α) : Prop :=
  ∀ (c : Seam) (k : Bound) (r r' : Rules) (b b' : Bodies) (X Y : ParseState), c.IsWhole →
    Readers c (k + 1) r r' → b.Agree c k b' → Loose c (k + 1) X Y → Y.suppressed = X.suppressed →
    Parse.Echoes c (k + 1) (rule r b) (rule r' b') X Y

/-- Moving the tokens of a text moves what is found in it.  How deep phrases may nest does not
matter where either depth exceeds the number of tokens. -/
theorem Moves.parseTo {α : Type} [Relocate α] {rule : Rules → Bodies → Parse α} (moves : Moves rule)
    (before : Findings) (version : Version) (isScript : Bool) {tokens : List Token}
    (stream : Stream (tokens.filter fun t => !t.isComment)) {g : Location → Location}
    (ordered : ∀ a b, (g a).index < (g b).index ↔ a.index < b.index)
    (origin : g .origin = .origin) {n m : Nat}
    (deep : (tokens.filter fun t => !t.isComment).length < n)
    (deep' : (tokens.filter fun t => !t.isComment).length < m) :
    let found := Findings.none.parseTo n rule version isScript tokens
    before.parseTo m rule version isScript (relocate g tokens) =
      ⟨relocate g found.tree, before.diagnostics ++ relocate g found.diagnostics,
        before.tables.append (relocate g found.tables)⟩ := by
  obtain ⟨last, isLast, ends⟩ := stream.getLast
  let c := Seam.moving g before last ends ordered origin
  have uncut : ¬ c.IsCut := Seam.uncut_of_ends ends
  have whole : c.IsWhole := ⟨uncut, id, trivial, id, trivial, origin⟩
  dsimp only
  unfold Findings.parseTo
  dsimp only
  rw [filter_isComment_relocate, filterMap_comment?_relocate]
  have plain := plain_of_significant tokens
  generalize tokens.filter (fun t => !t.isComment) = significant at stream isLast plain deep deep' ⊢
  generalize tokens.filterMap Token.comment? = comments
  rw [← length_relocate g] at deep'
  let k : Bound := ⟨significant.length, (relocate g significant).length⟩
  have enough : k + 1 ≤ ⟨n, m⟩ := ⟨deep, deep'⟩
  have readers := Readers.ofDepth version (c := c) trivial (fun cut => absurd cut uncut) enough
  have bodies := Bodies.agree_ofDepth (readers.mono k.le_succ) isScript (n := n) (m := m)
    ⟨Nat.le_of_lt deep, Nat.le_of_lt deep'⟩
  have near := whole.start comments stream plain isLast
  obtain ⟨value, after⟩ := moves c k _ _ _ _ _ _ whole readers bodies near rfl
  have tables := after.tables whole.keeps
  have diagnostics := after.diagnostics_eq whole.uncut whole.keeps
  rw [Parsed.mk.injEq]
  exact ⟨value, diagnostics, tables⟩

theorem Moves.parse {α : Type} [Relocate α] {rule : Rules → Bodies → Parse α} (moves : Moves rule)
    (before : Findings) (version : Version) (isScript : Bool) {tokens : List Token}
    (stream : Stream (tokens.filter fun t => !t.isComment)) {g : Location → Location}
    (ordered : ∀ a b, (g a).index < (g b).index ↔ a.index < b.index)
    (origin : g .origin = .origin) :
    let found := parseTokens rule version isScript tokens
    before.parse rule version isScript (relocate g tokens) =
      ⟨relocate g found.tree, before.diagnostics ++ relocate g found.diagnostics,
        before.tables.append (relocate g found.tables)⟩ := by
  refine moves.parseTo before version isScript stream ordered origin (Nat.lt_succ_self _) ?_
  rw [filter_isComment_relocate, length_relocate]
  exact Nat.lt_succ_self _

instance {α : Type} [Relocate α] : Relocate (Parsed α) :=
  ⟨fun g p => ⟨relocate g p.tree, relocate g p.diagnostics, relocate g p.tables⟩⟩

theorem Moves.relocates {α : Type} [Relocate α] {rule : Rules → Bodies → Parse α}
    (moves : Moves rule) (version : Version) (isScript : Bool) {tokens : List Token}
    (stream : Stream (tokens.filter fun t => !t.isComment)) {g : Location → Location}
    (ordered : ∀ a b, (g a).index < (g b).index ↔ a.index < b.index)
    (origin : g .origin = .origin) :
    parseTokens rule version isScript (relocate g tokens) =
      relocate g (parseTokens rule version isScript tokens) :=
  moves.parse .none version isScript stream ordered origin

/-- A relocation that leaves all tokens of a text in place leaves all that is found in it there. -/
theorem Moves.fixed {α : Type} [Relocate α] {rule : Rules → Bodies → Parse α} (moves : Moves rule)
    (version : Version) (isScript : Bool) {tokens : List Token}
    (stream : Stream (tokens.filter fun t => !t.isComment)) {g : Location → Location}
    (ordered : ∀ a b, (g a).index < (g b).index ↔ a.index < b.index)
    (origin : g .origin = .origin) (places : relocate g tokens = tokens) :
    relocate g (parseTokens rule version isScript tokens) =
      parseTokens rule version isScript tokens := by
  rw [← moves.relocates version isScript stream ordered origin, places]

theorem relocate_tokens {g : Location → Location} {tokens : List Token}
    (places : ∀ t ∈ tokens, g t.span.start = t.span.start ∧ g t.span.finish = t.span.finish) :
    relocate g tokens = tokens := by
  refine (List.map_congr_left fun t member => ?_).trans (List.map_id _)
  obtain ⟨start, finish⟩ := places t member
  show Token.mk t.lexeme ⟨g t.span.start, g t.span.finish⟩ = t
  rw [start, finish]

-- The rules for texts

theorem moves_wholeFile : Moves Parse.wholeFile :=
  fun _ _ _ _ _ _ _ _ whole readers bodies near _ =>
    Parse.wholeFile_echoes whole readers bodies near

theorem moves_wholeScript : Moves Parse.wholeScript :=
  fun _ _ _ _ _ _ _ _ whole readers bodies near _ =>
    Parse.wholeScript_echoes whole readers bodies near

theorem moves_singleDeclaration : Moves Parse.singleDeclaration :=
  fun _ _ _ _ _ _ _ _ whole readers bodies near level =>
    Parse.singleDeclaration_echoes whole readers bodies near level

theorem moves_singleStatement : Moves Parse.singleStatement :=
  fun _ _ _ _ _ _ _ _ whole readers bodies near level =>
    Parse.singleStatement_echoes whole readers bodies near level

theorem moves_expression : Moves fun r _ => Parse.expression r .lowest := by
  intro c k r r' b b' X Y _ readers _ near level
  obtain ⟨value, after, -⟩ := Parse.expression_tracks (readers.agree.mono k.le_succ)
    (Parse.near_of_level near level) .lowest fun _ => trivial
  exact ⟨value, after.loose⟩

theorem moves_typeName : Moves fun r _ => Parse.typeName r := by
  intro c k r r' b b' X Y _ readers _ near level
  obtain ⟨value, after, -⟩ := Parse.typeName_tracks (readers.agree.mono k.le_succ)
    (Parse.near_of_level near level) fun _ => trivial
  exact ⟨value, after.loose⟩

end VisualBasic
