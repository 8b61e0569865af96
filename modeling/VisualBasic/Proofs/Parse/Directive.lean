import VisualBasic.Parse.Directive
import VisualBasic.Proofs.Parse.Expression

/-!
Directive lines and the other things between statements.  They leave no nodes behind, and whatever a
directive opens or ends is in the books.
-/

set_option autoImplicit false

namespace VisualBasic

namespace ParseState

/-- A directive that has started at a place: what is recorded and what is open stand before it. -/
structure Begun (s : ParseState) (start : Location) : Prop where
  recorded : ∀ a ∈ s.tables.regions, a.span.finish.index ≤ start.index
  opened : ∀ o ∈ s.directives.regions, o.directive.start.index < start.index
  mapped : ∀ a ∈ s.tables.lineMappings, a.span.finish.index ≤ start.index

/-- A directive that has started at a place goes on from the first state to the second one, and what
is due is carried out. -/
structure CarriesOut (start : Location) (due : List DirectiveHead) (s t : ParseState) : Prop where
  idles : s.Idles t
  keeps : s.Begun start → s.Keeps due t

/-- The tables of directives are left alone. -/
structure Spares (s t : ParseState) : Prop where
  directives : t.directives = s.directives
  tables : t.tables = s.tables

variable {s t u : ParseState} {start : Location} {due : List DirectiveHead}

theorem Spares.trans (first : s.Spares t) (second : t.Spares u) : s.Spares u :=
  ⟨second.directives.trans first.directives, second.tables.trans first.tables⟩

theorem Spares.advance (s : ParseState) : s.Spares s.advance :=
  ⟨s.tables_advance.2, s.tables_advance.1⟩

theorem Spares.report (s : ParseState) (problem : Problem) (span : Span) :
    s.Spares (s.report problem span) := by
  unfold ParseState.report
  split <;> exact ⟨rfl, rfl⟩

theorem Begun.spared (begun : s.Begun start) (spares : s.Spares t) : t.Begun start := by
  obtain ⟨directives, tables⟩ := spares
  exact ⟨tables ▸ begun.recorded, directives ▸ begun.opened, tables ▸ begun.mapped⟩

theorem CarriesOut.ofStretch {lo : Nat} (so : Stretch lo s t [] []) : s.CarriesOut start [] t :=
  ⟨so.idles, fun _ => so.books⟩

end ParseState

/-- The directives that are reported where a text ends: those that wait for their ends. -/
def OpenDirectives.unended (d : OpenDirectives) : List Diagnostic :=
  (d.conditionals.reverse.map OpenConditional.directive).map (Diagnostic.mk .expectedCcEndIf) ++
    (d.regions.reverse.map OpenRegion.directive).map (Diagnostic.mk .expectedEndRegion) ++
    (d.mapping.map OpenMapping.directive).toList.map (Diagnostic.mk .expectedEndExternalSource)

namespace Parse

variable {α β : Type} {r : Rules} {s : ParseState} {start : Location} {due : List DirectiveHead}

/-- The rule leaves no nodes behind. -/
abbrev Silent (p : Parse α) (s : ParseState) : Prop := Yields p s fun _ => []

/-- The rule goes on with a directive and carries out what is due. -/
abbrev Performs (start : Location) (due : List DirectiveHead) (p : Parse α) (s : ParseState) : Prop :=
  Ensures p s fun _ t => s.CarriesOut start due t

-- Rules that touch no directives

theorem expect_spares (kind : TokenKind) (problem : Problem) (s : ParseState) :
    Ensures (expect kind problem) s fun _ t => s.Spares t := by
  have eaten : Ensures (eat kind) s fun _ t => s.Spares t := by
    refine .check ?_
    split
    · exact .advance s
    · exact ⟨rfl, rfl⟩
  refine eaten.bind fun found t spares => ?_
  cases found with
  | none => exact spares.trans (.report t _ _)
  | some => exact spares

theorem closeParenthesis_spares (s : ParseState) :
    Ensures closeParenthesis s fun _ t => s.Spares t :=
  (expect_spares _ _ s).bind fun _ _ spares => spares

theorem stringLiteral_spares (s : ParseState) :
    Ensures stringLiteral s fun _ t => s.Spares t := by
  refine .peek ?_
  split
  · exact .advance s
  · exact .report s _ _

theorem directiveInteger_spares (s : ParseState) :
    Ensures directiveInteger s fun _ t => s.Spares t := by
  refine .peek ?_
  split
  · exact .advance s
  · exact .report s _ _

theorem mappingSource_spares (s : ParseState) :
    Ensures mappingSource s fun _ t => s.Spares t := by
  refine (expect_spares _ _ s).bind fun openParen t first => ?_
  cases openParen with
  | none => exact first
  | some openParen =>
    refine (stringLiteral_spares t).bind fun file u second => ?_
    refine (expect_spares _ _ u).bind fun comma v third => ?_
    have before := (first.trans second).trans third
    extract_lets close
    have closes (line : Option Int) (w : ParseState) (spares : s.Spares w) :
        Ensures (close line) w fun _ x => s.Spares x := by
      exact (closeParenthesis_spares w).bind fun _ _ last => spares.trans last
    cases comma with
    | none => exact closes none v before
    | some comma =>
      exact (directiveInteger_spares v).bind fun line w last => closes line w (before.trans last)

-- Steps of a directive

theorem modifyTables_silent (f : DirectiveTables → DirectiveTables) (wf : s.Wf)
    (kept : s.Ordered → ∀ span ∈ (f s.tables).spans, span.Forward)
    (books : s.Keeps [] { s with tables := f s.tables }) : Silent (modifyTables f) s :=
  (Stretch.refl wf).act (.tables _ kept) books rfl rfl rfl rfl

theorem modifyDirectives_performs (f : OpenDirectives → OpenDirectives) (wf : s.Wf)
    (kept : s.Ordered → ∀ span ∈ (f s.directives).spans,
      span.Forward ∧ span.finish.index ≤ s.limit)
    (keeps : s.Begun start → s.Keeps due { s with directives := f s.directives }) :
    Performs start due (modifyDirectives f) s :=
  ⟨(ParseState.Idles.refl wf).act (.directives _ kept) rfl rfl rfl rfl, keeps⟩

theorem report_silent {problem : Problem} {span : Span} (quiet : problem.isQuiet = true)
    (forward : span.Forward) (wf : s.Wf) : Silent (report problem span) s :=
  (Stretch.refl wf).reported span quiet fun _ => forward

theorem Performs.ofSilent {p : Parse α} (silent : Silent p s) : Performs start [] p s :=
  silent.mono fun _ _ so => .ofStretch so

/-- Behind what touches no directives a directive goes on. -/
theorem Performs.after {lo : Nat} {o : ParseState} {p : Parse α} (so : Stretch lo o s [] [])
    (spares : o.Spares s) (rest : Performs start due p s) :
    Ensures p s fun _ t => o.CarriesOut start due t :=
  rest.mono fun _ _ more => ⟨so.idles.trans more.idles, fun begun =>
    so.books.before (more.keeps (begun.spared spares))⟩

theorem Performs.skip {f : Unit → Parse β} (wf : s.Wf) (solid : s.kind.isSolid = true)
    (rest : s.advance.Wf → s.limit ≤ s.advance.limit → Performs start due (f ()) s.advance) :
    Performs start due (Parse.skip >>= f) s := by
  have so := (Stretch.refl wf).pass solid
  exact Performs.after (p := f ()) so (.advance s) (rest so.wf so.later.limit)

/-- A directive that has been read from its number sign on. -/
theorem spanSince_read (reached : start.index < s.limit) :
    (s.spanSince start).Forward ∧ (s.spanSince start).finish.index ≤ s.limit := by
  refine ⟨s.spanSince_forward start, ?_⟩
  rw [s.index_finishSince start]
  omega

/-- The condition of a directive is a phrase, so it can be forgotten. -/
theorem directiveCondition_silent (sound : r.Sound) (wf : s.Wf) :
    Silent (directiveCondition r) s := by
  refine (value_yields sound wf).bind fun condition t so => ?_
  exact ((so.forget rfl).eat rfl).bind fun _ _ facts => facts.1

/-- Another branch of a conditional block neither opens nor ends it. -/
theorem conditionalBranch_silent (start : Location) (isElse : Bool) (wf : s.Wf) :
    Silent (conditionalBranch start isElse) s := by
  have forward := s.spanSince_forward start
  refine .spanFrom (.get ?_)
  split
  next => exact report_silent (by cases isElse <;> rfl) forward wf
  next innermost outer opened =>
    have noted : Silent (modifyDirectives fun d =>
        { d with conditionals := ⟨innermost.directive, innermost.inElse || isElse⟩ :: outer }) s := by
      refine (Stretch.refl wf).act (.directives _ fun ordered => ?_)
        (fun clear nests => ⟨clear, nests.congr rfl rfl, ?_⟩) rfl rfl rfl rfl
      · have kept := ordered.directives
        rw [OpenDirectives.spans, opened] at kept
        exact kept
      · simp only [ParseState.books, Books.of, opened]
        rfl
    refine noted.bind fun _ t so => ?_
    split
    · exact so.silent (report_silent (by cases isElse <;> rfl) forward so.wf)
    · exact so

/-- A further branch with its condition. -/
theorem elseIf_silent (sound : r.Sound) (start : Location) (wf : s.Wf) :
    Silent (directiveCondition r >>= fun _ => conditionalBranch start false) s :=
  (directiveCondition_silent sound wf).bind fun _ _ so =>
    so.silent (conditionalBranch_silent start false so.wf)

theorem endConditional_performs (fresh : s.suppressed = false) (wf : s.Wf) :
    Performs start [.endConditional] (endConditional start) s := by
  refine .spanFrom (.get ?_)
  split
  next =>
    refine ⟨(ParseState.Idles.refl wf).report rfl fun _ => s.spanSince_forward start, ?_⟩
    show _ → s.Keeps _ (s.report .ccEndIfWithoutCcIf (s.spanSince start))
    rw [ParseState.report_of_not_suppressed fresh]
    exact fun _ clear nests => ⟨clear, nests, Books.of_endConditional_report _⟩
  next outer opened =>
    refine modifyDirectives_performs _ wf (fun ordered span member => ordered.directives span ?_)
      fun _ clear nests => ⟨clear, nests.congr rfl rfl, Books.of_endConditional opened⟩
    rw [OpenDirectives.spans, opened]
    exact List.mem_cons_of_mem _ member

/-- A directive that has been read and its end span forward. -/
theorem upTo_forward {directive : Span} (start : Location) (forward : directive.Forward)
    (read : directive.finish.index ≤ s.limit) : (directive.upTo (s.spanSince start)).Forward := by
  show directive.start.index ≤ (s.spanSince start).finish.index
  rw [s.index_finishSince start]
  omega

/-- Closing a directive records it. -/
theorem record_idles {f : OpenDirectives → OpenDirectives} {g : DirectiveTables → DirectiveTables}
    (wf : s.Wf) (fewer : (f s.directives).spans ⊆ s.directives.spans)
    (kept : s.Ordered → ∀ span ∈ (g s.tables).spans, span.Forward) :
    Ensures (modifyDirectives f >>= fun _ => modifyTables g) s fun _ t => s.Idles t := by
  -- the directive is still open where it is recorded
  have recorded := (ParseState.Idles.refl wf).act (.tables _ kept) rfl rfl rfl rfl
  exact recorded.act (.directives _ fun ordered span member =>
    ordered.directives span (fewer member)) rfl rfl rfl rfl

theorem finish_spanSince (reached : start.index < s.limit) :
    (s.spanSince start).finish.index = s.limit := by
  rw [s.index_finishSince start]
  omega

theorem endRegion_performs (fresh : s.suppressed = false) (reached : start.index < s.limit)
    (wf : s.Wf) : Performs start [.endRegion] (endRegion start) s := by
  refine .spanFrom (.get ?_)
  split
  next =>
    refine ⟨(ParseState.Idles.refl wf).report rfl fun _ => s.spanSince_forward start, ?_⟩
    show _ → s.Keeps _ (s.report .endRegionWithoutRegion (s.spanSince start))
    rw [ParseState.report_of_not_suppressed fresh]
    exact fun _ clear nests => ⟨clear, nests, Books.of_endRegion_report _⟩
  next region outer opened =>
    have among : region.directive ∈ s.directives.spans := by simp [OpenDirectives.spans, opened]
    refine ⟨record_idles wf (fun span member => ?_) fun ordered span member => ?_,
      fun begun clear nests => ⟨clear, ?_, Books.of_endRegion opened _⟩⟩
    · simp only [OpenDirectives.spans, opened, List.map_cons, List.mem_append, List.mem_cons] at member ⊢
      tauto
    · have forward := upTo_forward start (ordered.directives _ among).1 (ordered.directives _ among).2
      have kept := ordered.tables span
      simp only [DirectiveTables.spans, List.map_append, List.map_cons, List.map_nil, List.mem_append,
        List.mem_singleton] at member kept
      rcases member with ((early | rfl) | mapping) | checksum
      · exact kept (.inl (.inl early))
      · exact forward
      · exact kept (.inl (.inr mapping))
      · exact kept (.inr checksum)
    · exact nests.closeRegion opened rfl (finish_spanSince reached) fun b member =>
        Nat.lt_of_le_of_lt (begun.recorded b member) reached

theorem endMapping_performs (reached : start.index < s.limit) (wf : s.Wf) :
    Performs start [] (endMapping start) s := by
  refine .spanFrom (.get ?_)
  split
  next => exact Performs.ofSilent (report_silent rfl (s.spanSince_forward start) wf)
  next mapping opened =>
    have among : mapping.directive ∈ s.directives.spans := by simp [OpenDirectives.spans, opened]
    refine ⟨record_idles wf (fun span member => ?_) fun ordered span member => ?_,
      fun _ clear nests => ⟨clear, ?_, rfl⟩⟩
    · simp only [OpenDirectives.spans, Option.map_none, Option.toList_none, List.append_nil] at member ⊢
      exact List.mem_append_left _ member
    · have forward := upTo_forward start (ordered.directives _ among).1 (ordered.directives _ among).2
      have kept := ordered.tables span
      simp only [DirectiveTables.spans, List.map_append, List.map_cons, List.map_nil, List.mem_append,
        List.mem_singleton] at member kept
      rcases member with (region | early | rfl) | checksum
      · exact kept (.inl (.inl region))
      · exact kept (.inl (.inr early))
      · exact forward
      · exact kept (.inr checksum)
    · exact nests.closeMapping opened rfl (finish_spanSince reached)

theorem invalidDirective_performs (wf : s.Wf) : Performs start [] (invalidDirective start) s :=
  .spanFrom (.peek (Performs.ofSilent
    (report_silent rfl ((s.spanSince_forward start).merge _) wf)))

theorem isSolid_of_isContextual {k : Token} {keyword : Keyword}
    (spells : k.isContextual keyword = true) : k.kind.isSolid = true := by
  simp only [Token.isContextual, Bool.and_eq_true, beq_iff_eq] at spells
  rw [spells.1]
  rfl

theorem endDirective_performs (fresh : s.suppressed = false) (reached : start.index < s.limit)
    (wf : s.Wf) :
    Performs start (DirectiveHead.ofEnd? s.current).toList (endDirective start) s := by
  have fresh : s.advance.suppressed = false := s.suppressed_advance.trans fresh
  refine .peek ?_
  unfold DirectiveHead.ofEnd?
  split
  next kind =>
    exact Performs.skip wf (by rw [ParseState.kind, kind]; rfl) fun wf _ =>
      endConditional_performs fresh wf
  next =>
    split
    next spells =>
      exact Performs.skip wf (isSolid_of_isContextual spells) fun wf further =>
        endRegion_performs fresh (Nat.lt_of_lt_of_le reached further) wf
    next =>
      split
      next spells =>
        exact Performs.skip wf (isSolid_of_isContextual spells) fun wf further =>
          endMapping_performs (Nat.lt_of_lt_of_le reached further) wf
      next => exact invalidDirective_performs wf

theorem directiveInteger_silent (wf : s.Wf) : Silent directiveInteger s := by
  refine .peek ?_
  split
  next value number => exact (Stretch.refl wf).pass (isSolid_of_integerOf? number)
  next => exact ((Stretch.refl wf).reportUnexpected rfl).bind fun _ _ facts => facts.1

theorem mappingSource_silent (wf : s.Wf) : Silent mappingSource s := by
  refine ((Stretch.refl wf).expect rfl rfl).bind fun openParen t ⟨so, _⟩ => ?_
  cases openParen with
  | none => exact so
  | some openParen =>
    refine (so.silent (stringLiteral_yields so.wf)).bind fun file u so => ?_
    refine (so.expect rfl rfl).bind fun comma v ⟨so, _⟩ => ?_
    extract_lets close
    have closes (line : Option Int) (w : ParseState) (so : Stretch s.here s w [] []) :
        Ensures (close line) w fun _ x => Stretch s.here s x [] [] :=
      so.closeParenthesis.bind fun _ _ so => so
    cases comma with
    | none => exact closes none v so
    | some comma =>
      exact (so.silent (directiveInteger_silent so.wf)).bind fun line w so => closes line w so

theorem beginMapping_performs (reached : start.index < s.limit) (wf : s.Wf) :
    Performs start [] (beginMapping start) s := by
  refine ((mappingSource_silent wf).and (mappingSource_spares s)).bind
    fun source t ⟨so, spares⟩ => .spanFrom (.get ?_)
  refine Performs.after so spares ?_
  split
  · exact Performs.ofSilent (report_silent rfl (t.spanSince_forward start) so.wf)
  · refine modifyDirectives_performs _ so.wf (fun ordered span member => ?_)
      fun begun clear nests => ⟨clear, nests.openMapping begun.mapped, rfl⟩
    rcases List.mem_append.1 member with early | last
    · exact ordered.directives span (List.mem_append_left _ early)
    · obtain rfl := List.mem_singleton.1 last
      exact spanSince_read (so.beyond reached)

theorem directiveStrings_silent (n : Nat) (wf : s.Wf) : Silent (directiveStrings n) s := by
  fun_induction directiveStrings n generalizing s with
  | case1 => exact Stretch.refl wf
  | case2 => exact (stringLiteral_yields wf).bind fun _ _ so => so
  | case3 n _ ih =>
    refine (stringLiteral_yields wf).bind fun text t so => ?_
    cases text with
    | none => exact so
    | some text =>
      refine (so.expect rfl rfl).bind fun comma u ⟨so, _⟩ => ?_
      cases comma with
      | none => exact so
      | some comma => exact (so.silent (ih so.wf)).bind fun _ _ so => so

theorem checksum_silent (start : Location) (wf : s.Wf) : Silent (checksum start) s := by
  refine ((Stretch.refl wf).expect rfl rfl).bind fun openParen t ⟨so, _⟩ => ?_
  cases openParen with
  | none => exact so
  | some openParen =>
    refine (so.silent (directiveStrings_silent 3 so.wf)).bind fun parts u so => ?_
    refine so.closeParenthesis.bind fun closed v so => .spanFrom ?_
    split
    · refine so.silent (modifyTables_silent _ so.wf (fun ordered span member => ?_)
        fun clear nests => ⟨clear, nests, rfl⟩)
      simp only [DirectiveTables.spans, List.map_append, List.map_cons, List.map_nil,
        ← List.append_assoc] at member
      rcases List.mem_append.1 member with early | last
      · exact ordered.tables span early
      · obtain rfl := List.mem_singleton.1 last
        exact v.spanSince_forward start
    · exact so

theorem conditionalConstant_silent (sound : r.Sound) (wf : s.Wf) :
    Silent (conditionalConstant r) s := by
  refine (identifier_yields wf).bind fun name t so => ?_
  refine ((so.forget rfl).expect rfl rfl).bind fun equals u ⟨so, _⟩ => ?_
  extract_lets rest
  have goOn (value : Option Expression) (v : ParseState) (so : Stretch s.here s v [] []) :
      Ensures (rest value) v fun _ w => Stretch s.here s w [] [] := by
    unfold rest
    split
    · exact so
    · exact so.silent (modifyTables_silent _ so.wf (fun ordered => ordered.tables)
        fun clear nests => ⟨clear, nests, rfl⟩)
  cases equals with
  | none => exact goOn none u so
  | some equals =>
    exact (so.part (value_yields sound so.wf)).mapBind fun value v so =>
      goOn (some value) v (so.forget rfl)

theorem beginConditional_performs (sound : r.Sound) (reached : start.index < s.limit)
    (wf : s.Wf) : Performs start [.conditional] (beginConditional r start) s := by
  refine (directiveCondition_silent sound wf).bind fun _ t so => .spanFrom ?_
  refine ⟨so.idles.act (.directives _ fun ordered => ?_) rfl rfl rfl rfl, fun _ =>
    so.books.before fun clear nests => ⟨clear, nests.congr rfl rfl, Books.of_conditional _⟩⟩
  exact List.forall_mem_cons.2 ⟨spanSince_read (so.beyond reached), ordered.directives⟩

theorem beginRegion_performs (reached : start.index < s.limit) (wf : s.Wf) :
    Performs start [.region] (beginRegion start) s := by
  refine ((stringLiteral_yields wf).and (stringLiteral_spares s)).bind
    fun _ t ⟨so, spares⟩ => .spanFrom ?_
  refine Performs.after so spares (modifyDirectives_performs _ so.wf (fun ordered span member => ?_)
    fun begun clear nests => ⟨clear, ?_, Books.of_region _⟩)
  · simp only [OpenDirectives.spans, List.map_cons, List.mem_append, List.mem_cons] at member
    rcases member with (conditional | rfl | region) | mapping
    · exact ordered.directives span (by simp [OpenDirectives.spans, conditional])
    · exact spanSince_read (so.beyond reached)
    · exact ordered.directives span (by simp [OpenDirectives.spans, region])
    · exact ordered.directives span (by simp [OpenDirectives.spans, mapping])
  · exact nests.openRegion begun.recorded begun.opened (so.beyond reached)

/-- The directive that begins with a word which is no keyword elsewhere. -/
theorem namedDirective_performs (reached : start.index < s.limit) (wf : s.Wf) :
    Performs start
      (if s.current.isContextual .kwRegion then some DirectiveHead.region else none).toList
      (namedDirective start) s := by
  refine .peek ?_
  split
  next spells =>
    exact Performs.skip wf (isSolid_of_isContextual spells) fun wf further =>
      beginRegion_performs (Nat.lt_of_lt_of_le reached further) wf
  next =>
    split
    next spells =>
      exact Performs.skip wf (isSolid_of_isContextual spells) fun wf further =>
        beginMapping_performs (Nat.lt_of_lt_of_le reached further) wf
    next =>
      split
      next spells =>
        exact Performs.skip wf (isSolid_of_isContextual spells) fun wf _ =>
          Performs.ofSilent (checksum_silent start wf)
      next => exact invalidDirective_performs wf

theorem directiveBody_performs (sound : r.Sound) (fresh : s.suppressed = false)
    (reached : start.index < s.limit) (wf : s.Wf) :
    Performs start (DirectiveHead.of? s.ahead).toList (directiveBody r start) s := by
  have fresh' : s.advance.suppressed = false := s.suppressed_advance.trans fresh
  refine .peekKind ?_
  rw [ParseState.ahead]
  split
  next kind =>
    rw [DirectiveHead.of?_if kind]
    exact Performs.skip wf (by rw [kind]; rfl) fun wf further =>
      beginConditional_performs sound (Nat.lt_of_lt_of_le reached further) wf
  next kind =>
    rw [DirectiveHead.of?_keyword kind (by decide) (by decide)]
    exact Performs.skip wf (by rw [kind]; rfl) fun wf _ =>
      Performs.ofSilent (elseIf_silent sound start wf)
  next kind =>
    rw [DirectiveHead.of?_keyword kind (by decide) (by decide)]
    refine Performs.skip wf (by rw [kind]; rfl) fun wf _ => Performs.ofSilent ?_
    refine ((Stretch.refl wf).eat rfl).bind fun found t facts => ?_
    obtain ⟨so, -⟩ := facts
    cases found with
    | none => exact so.silent (conditionalBranch_silent start true so.wf)
    | some _ => exact so.silent (elseIf_silent sound start so.wf)
  next kind =>
    have goesOn : s.kind ≠ .endOfStream := by simp [kind]
    obtain ⟨k, rest, follows, -⟩ := ParseState.exists_following wf goesOn
    have target : s.advance.current = k := by
      rw [ParseState.advance_of_cons follows]
      rfl
    rw [DirectiveHead.of?_end kind, follows, List.head?_cons, Option.bind_some, ← target]
    exact Performs.skip wf (by rw [kind]; rfl) fun wf further =>
      endDirective_performs fresh' (Nat.lt_of_lt_of_le reached further) wf
  next kind =>
    rw [DirectiveHead.of?_keyword kind (by decide) (by decide)]
    exact Performs.skip wf (by rw [kind]; rfl) fun wf _ =>
      Performs.ofSilent (conditionalConstant_silent sound wf)
  next noIf _ _ noEnd _ =>
    rw [DirectiveHead.of?_other noIf noEnd]
    exact namedDirective_performs reached wf

/-- What is left of the line is discarded only when it has been reported. -/
theorem directiveEnd_silent (wf : s.Wf) :
    Silent (do
      unless (← peekKind).endsLine do reportUnexpected .expectedEndOfStatement
      modify fun s => s.advanceWhile (fun s => !s.kind.endsLine) s.remaining) s := by
  have inside (t : ParseState) (goesOn : (!t.kind.endsLine) = true) : t.kind ≠ .lineTerminator := by
    intro ends
    simp [ends, TokenKind.endsLine] at goesOn
  refine .peekKind ?_
  extract_lets rest
  split
  next ends =>
    have stays : s.advanceWhile (fun s => !s.kind.endsLine) s.remaining = s :=
      ParseState.advanceWhile_of_not (by simpa using ends) _
    show Stretch s.here s (s.advanceWhile _ _) [] []
    rw [stays]
    exact .refl wf
  next =>
    refine ((Stretch.refl wf).reportUnexpected rfl).bind fun _ t ⟨line, dirty, _⟩ => ?_
    exact line.advanceWhile inside t.remaining dirty

/-- Behind its number sign a directive is carried out. -/
theorem directive_performs (sound : r.Sound) (wf : s.Wf) (solid : s.kind.isSolid = true) :
    Ensures (directive r) s fun _ t =>
      let behind := ParseState.advance { s with suppressed := false }
      behind.CarriesOut s.current.span.start (DirectiveHead.of? behind.ahead).toList t := by
  have begun := (Stretch.refl wf).beginConstruct
  have reached := (ParseState.limit_advance begun.wf (ParseState.kind_ne_endOfStream solid)).1
  have fresh := ParseState.suppressed_advance { s with suppressed := false }
  refine .beginConstruct (begun.read solid fun so => ?_)
  refine (directiveBody_performs sound fresh reached so.wf).bind fun _ t done => ?_
  refine (directiveEnd_silent done.idles.wf).mono fun _ u line => ?_
  exact ⟨done.idles.trans line.idles, fun begun => (done.keeps begun).trans line.books⟩

theorem directive_moves (sound : r.Sound) (wf : s.Wf) (solid : s.kind.isSolid = true) :
    Ensures (directive r) s fun _ t => s.Idles t ∧ t.remaining < s.remaining := by
  have begun := (Stretch.refl wf).beginConstruct
  have fewer := (ParseState.limit_advance begun.wf (ParseState.kind_ne_endOfStream solid)).2.2
  refine (directive_performs sound wf solid).mono fun _ t done => ?_
  exact ⟨(begun.pass solid).idles.trans done.idles,
    Nat.lt_of_le_of_lt done.idles.later.remaining fewer⟩

/-- A directive is in the books, whatever it is. -/
theorem directive_balances (sound : r.Sound) (wf : s.Wf) (starts : s.atLineStart = true)
    (sign : s.kind = .mark .pound) : Ensures (directive r) s fun _ t => s.Balances t := by
  have solid : s.kind.isSolid = true := by rw [sign]; rfl
  have wf' := (ParseState.Act.begin (s := s)).wf wf
  obtain ⟨k, rest, follows, -⟩ :=
    ParseState.exists_following wf' (ParseState.kind_ne_endOfStream (s := s) solid)
  refine (directive_performs sound wf solid).mono fun _ t done nests => ?_
  obtain ⟨tables, directives⟩ := ParseState.tables_advance { s with suppressed := false }
  -- all that is in the tables has been read before the number sign
  have begun : ParseState.Begun (ParseState.advance { s with suppressed := false })
      s.current.span.start := by
    refine ⟨fun a member => ?_, fun o member => ?_, fun a member => ?_⟩
    · exact Nat.le_trans (nests.recorded a (tables ▸ member)) wf.behind
    · exact Nat.lt_of_lt_of_le (nests.begun o (directives ▸ member)) wf.behind
    · exact Nat.le_trans (nests.read a (tables ▸ member)) wf.behind
  have clear : ParseState.Clear (ParseState.advance { s with suppressed := false }) := by
    intro again
    rw [ParseState.atLineStart_advance follows] at again
    exact absurd (sign.symm.trans (beq_iff_eq.1 again)) (by decide)
  obtain ⟨clear, nests, same⟩ := done.keeps begun clear (ParseState.nests_advance wf' nests)
  exact ⟨clear, nests, same.trans (ParseState.books_sign follows starts sign)⟩

-- What stands between statements

theorem kind_ne_of_isSeparator {kind : TokenKind} (separator : s.current.isSeparator = true)
    (apart : kind ≠ .mark .colon ∧ kind ≠ .lineTerminator) : s.kind ≠ kind := by
  rintro rfl
  simp only [Token.isSeparator, Bool.or_eq_true, beq_iff_eq] at separator
  exact separator.elim apart.1 apart.2

/-- Behind all separators a line goes on. -/
theorem kind_ne_of_arrived {t : ParseState} (ahead : t.ahead = s.ahead)
    (arrived : s.current.isSeparator = false) : t.kind ≠ .lineTerminator := by
  simp only [Token.isSeparator, Bool.or_eq_false_iff, beq_eq_false_iff_ne] at arrived
  rw [ParseState.kind, (List.cons.inj ahead).1]
  exact arrived.2

theorem pass_separator (wf : s.Wf) (separator : s.current.isSeparator = true) :
    s.Idles s.advance :=
  (ParseState.Idles.refl wf).advance fun fault =>
    absurd fault (kind_ne_of_isSeparator separator (by simp))

/-- Everything up to the next item is passed, with its directives. -/
theorem separatorsWithin_passes (sound : r.Sound) (n : Nat) (wf : s.Wf) (fuel : s.remaining ≤ n) :
    Ensures (separatorsWithin r n) s fun _ t =>
      s.Idles t ∧ s.Balances t ∧ t.current.isSeparator = false := by
  induction n generalizing s with
  | zero =>
    have ends := (ParseState.remaining_eq_zero_iff wf).1 (Nat.le_zero.1 fuel)
    refine ⟨.refl wf, .stay fun _ => by simp [ends], ?_⟩
    show s.current.isSeparator = false
    simp [Token.isSeparator, show s.current.kind = _ from ends]
  | succ n ih =>
    have passed (separator : s.current.isSeparator = true) :
        Ensures (separatorsWithin r n) s.advance fun _ t =>
          s.Idles t ∧ s.Balances t ∧ t.current.isSeparator = false := by
      have step := pass_separator wf separator
      have goesOn : s.kind ≠ .endOfStream := kind_ne_of_isSeparator separator (by simp)
      have fewer := (ParseState.limit_advance wf goesOn).2.2
      refine (ih step.wf (by omega)).mono fun _ t ⟨idles, balances, arrived⟩ => ?_
      exact ⟨step.trans idles, .pass wf (kind_ne_of_isSeparator separator (by simp)) balances, arrived⟩
    refine .peek ?_
    split
    next kind => exact passed (by simp [Token.isSeparator, kind])
    next kind =>
      have read := passed (by simp [Token.isSeparator, kind])
      exact .skip (read.bind fun _ _ facts => facts)
    next kind =>
      refine .get ?_
      split
      next starts =>
        have sign : s.kind = .mark .pound := kind
        refine ((directive_moves sound wf (by rw [sign]; rfl)).and
          (directive_balances sound wf starts sign)).bind fun _ t ⟨⟨idles, fewer⟩, balances⟩ => ?_
        refine (ih idles.wf (by omega)).mono fun _ u ⟨idles', balances', arrived⟩ => ?_
        exact ⟨idles.trans idles', balances.trans balances'.keeps, arrived⟩
      next inside =>
        refine ⟨.refl wf, .stay fun starts => absurd starts inside, ?_⟩
        show s.current.isSeparator = false
        simp [Token.isSeparator, kind]
    next noLine noColon noSign =>
      refine ⟨.refl wf, .stay fun _ => noSign, ?_⟩
      show s.current.isSeparator = false
      simp only [Token.isSeparator, Bool.or_eq_false_iff, beq_eq_false_iff_ne]
      exact ⟨noColon, noLine⟩

theorem separatorsWithin_silent (sound : r.Sound) (n : Nat) (wf : s.Wf) (fuel : s.remaining ≤ n) :
    Silent (separatorsWithin r n) s :=
  (separatorsWithin_passes sound n wf fuel).mono fun _ _ ⟨idles, balances, _⟩ =>
    .ofIdles idles balances.keeps

theorem separators_silent (sound : r.Sound) (wf : s.Wf) : Silent (separators r) s :=
  .get (separatorsWithin_silent sound _ wf (Nat.le_refl _))

theorem separators_balances (sound : r.Sound) (wf : s.Wf) :
    Ensures (separators r) s fun _ t => s.Balances t :=
  .get ((separatorsWithin_passes sound _ wf (Nat.le_refl _)).mono fun _ _ facts => facts.2.1)

theorem separators_arrive (sound : r.Sound) (wf : s.Wf) :
    Ensures (separators r) s fun _ t => t.current.isSeparator = false :=
  .get ((separatorsWithin_passes sound _ wf (Nat.le_refl _)).mono fun _ _ facts => facts.2.2)

-- The end of the text

/-- What is still open is reported, each time anew. -/
theorem reportAll_diagnostics (problem : Problem) (spans : List Span) (s : ParseState) :
    ((reportAll problem spans).run s).2.diagnostics =
      s.diagnostics ++ spans.map (Diagnostic.mk problem) := by
  induction spans generalizing s with
  | nil => exact (List.append_nil _).symm
  | cons span rest ih =>
    refine (ih (ParseState.report { s with suppressed := false } problem span)).trans ?_
    rw [ParseState.report_of_not_suppressed rfl]
    exact List.append_assoc ..

theorem finishDirectives_diagnostics (s : ParseState) :
    (finishDirectives.run s).2.diagnostics = s.diagnostics ++ s.directives.unended := by
  let conditionals := s.directives.conditionals.reverse.map OpenConditional.directive
  let regions := s.directives.regions.reverse.map OpenRegion.directive
  let after := ((reportAll .expectedCcEndIf conditionals).run s).2
  refine (reportAll_diagnostics _ _ ((reportAll .expectedEndRegion regions).run after).2).trans ?_
  rw [reportAll_diagnostics, reportAll_diagnostics, OpenDirectives.unended]
  simp only [List.append_assoc, conditionals, regions]

theorem reportAll_spares (problem : Problem) (spans : List Span) (s : ParseState) :
    Ensures (reportAll problem spans) s fun _ t => s.Spares t := by
  induction spans generalizing s with
  | nil => exact ⟨rfl, rfl⟩
  | cons span rest ih =>
    have first := ParseState.Spares.report { s with suppressed := false } problem span
    have more := ih (ParseState.report { s with suppressed := false } problem span)
    exact ⟨more.directives.trans first.directives, more.tables.trans first.tables⟩

theorem finishDirectives_spares (s : ParseState) :
    Ensures finishDirectives s fun _ t => s.Spares t := by
  refine .get ((reportAll_spares _ _ s).bind fun _ t first => ?_)
  refine (reportAll_spares _ _ t).bind fun _ u second => ?_
  exact (reportAll_spares _ _ u).mono fun _ _ third => (first.trans second).trans third

/-- Reporting directives that are open leaves them open. -/
theorem reportAll_idles {problem : Problem} {spans : List Span}
    (closed : ∀ span, Diagnostic.unclosed? ⟨problem, span⟩ = none) (wf : s.Wf)
    (among : spans ⊆ s.directives.spans) :
    Ensures (reportAll problem spans) s fun _ t => s.Idles t := by
  induction spans generalizing s with
  | nil => exact .refl wf
  | cons span rest ih =>
    have begun := ((ParseState.Idles.refl wf).act .begin rfl rfl rfl rfl).report (closed span)
      fun ordered => (ordered.directives span (among List.mem_cons_self)).1
    have same := ParseState.Spares.report { s with suppressed := false } problem span
    refine begun.trans (ih begun.wf fun span member => ?_)
    exact same.directives ▸ among (List.mem_cons_of_mem _ member)

theorem finishDirectives_idles (wf : s.Wf) :
    Ensures finishDirectives s fun _ t => s.Idles t := by
  refine .get ?_
  refine ((reportAll_idles (fun _ => rfl) wf ?_).and (reportAll_spares _ _ s)).bind
    fun _ t ⟨idles, spares⟩ => ?_
  · rw [List.map_reverse, List.reverse_subset]
    exact fun span member => List.mem_append_left _ (List.mem_append_left _ member)
  · refine ((reportAll_idles (fun _ => rfl) idles.wf ?_).and (reportAll_spares _ _ t)).bind
      fun _ u ⟨more, spares'⟩ => ?_
    · rw [spares.directives, List.map_reverse, List.reverse_subset]
      exact fun span member => List.mem_append_left _ (List.mem_append_right _ member)
    · have idles := idles.trans more
      refine (reportAll_idles (fun _ => rfl) idles.wf ?_).mono fun _ _ after => idles.trans after
      rw [(spares.trans spares').directives]
      exact fun span member => List.mem_append_right _ member

end Parse

end VisualBasic
