import VisualBasic.Proofs.Parse.Source

/-!
The comments of a text.  A parser notes each comment when it comes to the token behind it, whatever
it does with that token.  It passes all tokens, so no comment is lost, and it never goes back, so
none is noted twice.
-/

set_option autoImplicit false

namespace VisualBasic

-- Every step keeps the comments together

namespace ParseState

variable {s t : ParseState} {all : List Comment}

/-- The comments that have been noted and those that are still ahead are all there are, and the
first of those ahead stands behind the current token. -/
structure Annotated (s : ParseState) (all : List Comment) : Prop where
  split : s.comments ++ s.commentsAhead = all
  ahead : ∀ c ∈ s.commentsAhead.head?, ¬ c.span.start < s.current.span.start

theorem annotated_noteComments (split : s.comments ++ s.commentsAhead = all) :
    s.noteComments.Annotated all := by
  constructor
  next =>
    unfold noteComments
    dsimp only
    rw [List.append_assoc, List.takeWhile_append_dropWhile, split]
  next =>
    intro c first
    unfold noteComments at first ⊢
    dsimp only at first ⊢
    have stops := List.head?_dropWhile_not
      (fun c : Comment => decide (c.span.start < s.current.span.start)) s.commentsAhead
    rw [first] at stops
    simpa using stops

theorem Act.annotated (act : Act s t) (annotated : s.Annotated all) : t.Annotated all := by
  cases act with
  | advance =>
    unfold ParseState.advance
    split
    next => exact annotated
    next => exact annotated_noteComments annotated.split
  | report problem span =>
    unfold ParseState.report
    split
    next => exact annotated
    next => exact ⟨annotated.split, annotated.ahead⟩
  | begin | mark | blocks | depth | directives | tables | pending =>
    exact ⟨annotated.split, annotated.ahead⟩

theorem Runs.annotated (runs : Runs s t) (annotated : s.Annotated all) : t.Annotated all := by
  induction runs with
  | refl => exact annotated
  | tail _ step ih => exact step.annotated ih

/-- At the end of the stream all comments have been noted. -/
theorem Annotated.comments_eq (annotated : s.Annotated all)
    (passed : ∀ c ∈ all, c.span.start < s.current.span.start) : s.comments = all := by
  have none : s.commentsAhead = [] := by
    cases left : s.commentsAhead with
    | nil => rfl
    | cons c rest =>
      have member : c ∈ all := by
        rw [← annotated.split, left]
        simp
      exact absurd (passed c member) (annotated.ahead c (by simp [left]))
  rw [← annotated.split, none, List.append_nil]

end ParseState

-- Whole texts

namespace Parse

variable {r : Rules} {b : Bodies} {depth : Nat} {s t u : ParseState}

/-- Outside of all blocks, a list goes on to the end of the stream. -/
theorem ends_of_body {container : Container} {span : Span} {ns : List Node}
    {stop : Option Terminator}
    (body : Body none container s t span ns stop) (after : t.Idles u) :
    s.Runs u ∧ u.kind = .endOfStream := by
  have ends := body.ends rfl
  have none := (ParseState.remaining_eq_zero_iff body.so.wf).2 ends
  have fewer := after.later.remaining
  obtain ⟨current, -⟩ := List.cons.inj (after.later.still (by omega))
  exact ⟨body.so.runs.trans after.runs, by rw [ParseState.kind, current]; exact ends⟩

theorem wholeScript_ends (phrases : r.Sound) (sound : b.Sound depth) (wf : s.Wf)
    (bound : s.remaining ≤ depth) (outside : s.blocks = []) :
    Ensures (wholeScript r b) s fun found t =>
      (s.Runs t ∧ t.kind = .endOfStream) ∧ found.comments = t.comments := by
  refine (statements_body phrases sound wf bound).bind fun found t body => ?_
  rw [outside] at body
  exact (finish_idles body.so.wf).bind fun _ u after => ⟨ends_of_body body after, rfl⟩

end Parse

/-- All other tokens stand before the end of the stream. -/
theorem TilesFrom.before_end {text : List Char} {k : Nat} {tokens : List Token}
    (tiles : TilesFrom text k tokens) :
    ∀ t ∈ tokens, t.kind ≠ .endOfStream → ∀ e ∈ tokens, e.kind = .endOfStream →
      t.span.start.index < e.span.start.index := by
  induction tiles with
  | finish ends =>
    intro t member goesOn
    obtain rfl := List.mem_singleton.1 member
    exact absurd (by rw [Token.kind, ends]; rfl) goesOn
  | token _ _ wide tile rest ih =>
    intro t member goesOn e final ends
    rcases List.mem_cons.1 final with rfl | below
    · exact absurd ends tile.kind_ne
    · rcases List.mem_cons.1 member with rfl | later
      · exact Nat.lt_of_lt_of_le wide (rest.le_start e below)
      · exact ih t later goesOn e below ends

theorem Token.eq_of_comment? {t : Token} {c : Comment} (notes : t.comment? = some c) :
    t.kind = .comment ∧ t.span = c.span := by
  unfold comment? at notes
  split at notes
  next text isRem lexeme =>
    cases notes
    exact ⟨by rw [kind, lexeme]; rfl, rfl⟩
  next => cases notes

/-- A rule that passes all tokens of a text has noted all its comments. -/
theorem parseTokens_comments {α : Type} (rule : Rules → Bodies → Parse α) (comments : α → List Comment)
    (version : Version) (isScript : Bool) {text : List Char} {k : Nat} {tokens : List Token}
    (tiles : TilesFrom text k tokens)
    (spec : ∀ r b (s : ParseState) depth, Rules.Sound r → b.Sound depth → s.Wf →
      s.remaining ≤ depth → s.blocks = [] → Ensures (rule r b) s fun a t =>
        (s.Runs t ∧ t.kind = .endOfStream) ∧ comments a = t.comments) :
    comments (parseTokens rule version isScript tokens).tree = tokens.filterMap Token.comment? := by
  have phrases := Rules.ofDepth_sound version ((tokens.filter fun t => !t.isComment).length + 1)
  obtain ⟨left, -, outside⟩ := ParseState.start_frame (tokens.filterMap Token.comment?)
    (tokens.filter fun t => !t.isComment)
  obtain ⟨⟨runs, ends⟩, noted⟩ := spec _ _ _ _ phrases (Bodies.ofDepth_sound phrases isScript _)
    (ParseState.wf_start _ tiles.stream) (Nat.le_succ_of_le left) outside
  have annotated : ParseState.Annotated _ (tokens.filterMap Token.comment?) :=
    runs.annotated (ParseState.annotated_noteComments rfl)
  refine noted.trans (annotated.comments_eq fun c member => ?_)
  obtain ⟨t, inText, notes⟩ := List.mem_filterMap.1 member
  obtain ⟨kind, span⟩ := Token.eq_of_comment? notes
  rw [← span]
  refine tiles.before_end t inText (by rw [kind]; simp) _ ?_ ends
  -- the token at which the parser has stopped is one of the text
  have last := runs.suffix.subset List.mem_cons_self
  rw [ParseState.ahead_start _ tiles.stream] at last
  exact List.mem_of_mem_filter last

theorem parseScript_comments (o : ScanOptions) (text : String) :
    (parseScript o text).tree.comments = (o.tokenize text).filterMap Token.comment? := by
  unfold parseScript
  exact parseTokens_comments Parse.wholeScript Script.comments o.version true
    (tokenize_tilesFrom o text) fun _ _ _ _ phrases sound wf bound outside =>
      Parse.wholeScript_ends phrases sound wf bound outside

end VisualBasic
