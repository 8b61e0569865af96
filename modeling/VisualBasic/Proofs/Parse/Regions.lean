import VisualBasic.Proofs.Parse.Source

/-!
What becomes of the directives of a whole text.  Where the text ends no directive is ahead, and those
that are still open are reported, so the books close.
-/

set_option autoImplicit false

namespace VisualBasic

/-- The directives of a text that come in pairs.  Comments are no part of a line. -/
def ScanOptions.directives (o : ScanOptions) (text : String) : List DirectiveHead :=
  directiveHeads true ((o.tokenize text).filter fun t => !t.isComment)

/-- The regions lie within each other or apart, an inner one before an outer one; what is mapped lies
apart, in the order of the text; and each directive that opens or ends something has found the other
one of its pair, or one of the two has been reported. -/
structure DirectivesSettled (heads : List DirectiveHead) (found : List Diagnostic)
    (tables : DirectiveTables) : Prop where
  nested : tables.regions.Pairwise Region.Precedes
  mapped : tables.lineMappings.Pairwise fun a b => a.span.finish.index ≤ b.span.start.index
  regions : heads.count .region = tables.regions.length + countOf .expectedEndRegion found
  endRegions : heads.count .endRegion =
    tables.regions.length + countOf .endRegionWithoutRegion found
  conditionals : heads.count .conditional + countOf .ccEndIfWithoutCcIf found =
    heads.count .endConditional + countOf .expectedCcEndIf found

namespace ParseState

variable {s t : ParseState}

/-- No directive is ahead of the end of the stream. -/
theorem heads_of_endOfStream (wf : s.Wf) (ends : s.kind = .endOfStream) : s.heads = [] := by
  have last := List.length_eq_zero_iff.1 ((remaining_eq_zero_iff wf).2 ends)
  simp [heads, ahead, last, directiveHeads, DirectiveHead.of?]

/-- Each directive that waits for its end is reported, and nothing is reported about an end. -/
theorem countOf_unended (s : ParseState) :
    countOf .expectedEndRegion s.unended = s.directives.regions.length ∧
      countOf .expectedCcEndIf s.unended = s.directives.conditionals.length ∧
      countOf .endRegionWithoutRegion s.unended = 0 ∧ countOf .ccEndIfWithoutCcIf s.unended = 0 := by
  have about (k j : Problem) (spans : List Span) :
      countOf k (spans.map (Diagnostic.mk j)) = if j = k then spans.length else 0 := by
    split
    next same => simp [countOf, List.countP_map, Function.comp_def, same]
    next other => simp [countOf, List.countP_map, Function.comp_def, other]
  have next (k : Problem) (other : .stray .next ≠ k) :
      countOf k (s.pendingNext.map fun p => Diagnostic.mk (.stray .next) p.span).toList = 0 := by
    cases s.pendingNext <;> simp [countOf, other]
  simp only [unended, OpenDirectives.unended, countOf_append, about]
  simp [next]

/-- The books close behind what is reported at the end of a text. -/
theorem settled_of_books {heads : List DirectiveHead} (nests : t.Nests) (passed : t.heads = [])
    (same : t.books [] = .of heads .none [] []) :
    DirectivesSettled heads (t.diagnostics ++ t.unended) t.tables := by
  obtain ⟨regionsLeft, conditionalsLeft, endRegion, endConditional⟩ := t.countOf_unended
  simp only [books, Books.of, Books.mk.injEq, List.nil_append, passed, List.count_nil, countOf,
    OpenDirectives.none, List.length_nil, List.countP_nil] at same
  obtain ⟨regions, endRegions, conditionals, noRegions, noConditionals⟩ := same
  refine ⟨nests.regions, nests.mappings, ?_, ?_, ?_⟩
  · rw [countOf_append, regionsLeft, countOf]
    omega
  · rw [countOf_append, endRegion, countOf]
    omega
  · rw [countOf_append, countOf_append, endConditional, conditionalsLeft, countOf, countOf]
    omega

theorem nests_start (comments : List Comment) (tokens : List Token) :
    (ParseState.start comments tokens).Nests := Nesting.empty

theorem books_start (comments : List Comment) {tokens : List Token} (stream : Stream tokens) :
    (ParseState.start comments tokens).books [] = .of (directiveHeads true tokens) .none [] [] := by
  rw [books, List.nil_append, heads, ahead_start comments stream]
  rfl

end ParseState

namespace Parse

variable {r : Rules} {b : Bodies} {depth : Nat}

/-- Where the list of a whole text stops, the text ends. -/
theorem finish_settles {comments : List Comment} {tokens : List Token} {t : ParseState}
    {container : Container} {span : Span} {ns : List Node} {stop : Option Terminator}
    (stream : Stream tokens)
    (body : Body none container (.start comments tokens) t span ns stop) :
    Ensures finish t fun _ u =>
      DirectivesSettled (directiveHeads true tokens) u.diagnostics u.tables := by
  obtain ⟨-, nests, same⟩ := body.balances (ParseState.nests_start comments tokens)
  have passed := ParseState.heads_of_endOfStream body.so.wf (body.ends rfl)
  have settled := ParseState.settled_of_books nests passed
    (same.trans (ParseState.books_start comments stream))
  have found := finish_diagnostics t
  have tables : (finish.run t).2.tables = t.tables := finish_tables t
  show DirectivesSettled _ (finish.run t).2.diagnostics (finish.run t).2.tables
  rwa [found, tables]

theorem wholeFile_settles {comments : List Comment} {tokens : List Token} (phrases : r.Sound)
    (sound : b.Sound depth) (stream : Stream tokens)
    (bound : (ParseState.start comments tokens).remaining ≤ depth) :
    Ensures (wholeFile r b) (.start comments tokens) fun _ t =>
      DirectivesSettled (directiveHeads true tokens) t.diagnostics t.tables := by
  obtain ⟨-, -, outside⟩ := ParseState.start_frame comments tokens
  have wf := ParseState.wf_start comments stream
  refine (declarations_body phrases sound wf (fun _ => rfl) bound).bind fun found t body => ?_
  rw [outside] at body
  exact (finish_settles stream body).bind fun _ _ settled => settled

theorem wholeScript_settles {comments : List Comment} {tokens : List Token} (phrases : r.Sound)
    (sound : b.Sound depth) (stream : Stream tokens)
    (bound : (ParseState.start comments tokens).remaining ≤ depth) :
    Ensures (wholeScript r b) (.start comments tokens) fun _ t =>
      DirectivesSettled (directiveHeads true tokens) t.diagnostics t.tables := by
  obtain ⟨-, -, outside⟩ := ParseState.start_frame comments tokens
  have wf := ParseState.wf_start comments stream
  refine (statements_body phrases sound wf bound).bind fun found t body => ?_
  rw [outside] at body
  exact (finish_settles stream body).bind fun _ _ settled => settled

end Parse

/-- Whatever the text, its regions nest, and all its directives are accounted for: a region has both
of its ends, or the one that it has is reported, and so it is with conditional blocks. -/
theorem directives_are_settled (o : ScanOptions) (text : String) :
    DirectivesSettled (o.directives text) (parseFile o text).diagnostics (parseFile o text).tables ∧
      DirectivesSettled (o.directives text) (parseScript o text).diagnostics
        (parseScript o text).tables := by
  have stream := stream_tokenize o text
  constructor
  · exact parseTokens_parsed
      (Q := fun p => DirectivesSettled (o.directives text) p.diagnostics p.tables)
      Parse.wholeFile o.version false fun _ _ _ phrases sound bound =>
        Parse.wholeFile_settles phrases sound stream bound
  · exact parseTokens_parsed
      (Q := fun p => DirectivesSettled (o.directives text) p.diagnostics p.tables)
      Parse.wholeScript o.version true fun _ _ _ phrases sound bound =>
        Parse.wholeScript_settles phrases sound stream bound

/-- The words count only where a line starts with the number sign, and whatever is missing behind
them. -/
example : ScanOptions.standard.directives
    "#Region \"a\"\n#If b Then ' #Region\n#Region\n#End Region : #End If\n#End\n#End Region" =
      [.region, .conditional, .region, .endRegion, .endRegion] := by
  decide +kernel

end VisualBasic
