import VisualBasic.Proofs.Parse.Comments
import VisualBasic.Proofs.Syntax.RelocateNode
import VisualBasic.Proofs.Tandem.Source

/-!
Every place that is handed out lies in the text.  Places are those of tokens and the origin, so a
relocation that moves only places outside of the text moves none of them; and no span that a parser
keeps runs backwards.
-/

set_option autoImplicit false

namespace VisualBasic

/-- A place in a text of the given length.  Lines and columns count from one. -/
structure Location.In (n : Nat) (l : Location) : Prop where
  index : l.index ≤ n
  line : 1 ≤ l.line
  column : 1 ≤ l.column

/-- A stretch of a text of the given length. -/
structure Span.In (n : Nat) (s : Span) : Prop where
  order : s.start.index ≤ s.finish.index
  start : s.start.In n
  finish : s.finish.In n

namespace Location

variable {n : Nat} {l : Location}

end Location

-- The places of tokens

namespace Reader

/-- The reader stands in a text of the given length. -/
structure StandsIn (n : Nat) (r : Reader) : Prop where
  left : r.location.index + r.rest.length = n
  line : 1 ≤ r.location.line
  column : 1 ≤ r.location.column

namespace StandsIn

variable {n : Nat} {r : Reader}

theorem location (stands : r.StandsIn n) : r.location.In n :=
  ⟨by have := stands.left; omega, stands.line, stands.column⟩

theorem skip (stands : r.StandsIn n) (tab k : Nat) : (r.skip tab k).StandsIn n := by
  induction k generalizing r with
  | zero => exact stands
  | succ k ih =>
    unfold Reader.skip
    split
    next => exact stands
    next c rest follows =>
      obtain ⟨left, line, column⟩ := stands
      rw [follows, List.length_cons] at left
      refine ih ⟨?_, ?_, ?_⟩
      · rw [index_advance]
        dsimp only
        omega
      all_goals
        unfold Location.advance
        dsimp only
        split
        · dsimp only
          omega
        split
        all_goals
          dsimp only
          omega

theorem next (stands : r.StandsIn n) (version : Version) (tab : Nat) :
    ((r.next version tab).1.span.start.In n ∧ (r.next version tab).1.span.finish.In n) ∧
      (r.next version tab).2.StandsIn n := by
  have start : (r.skipTrivia tab).StandsIn n := stands.skip tab _
  have after := start.skip tab (Scan.recognize version (r.skipTrivia tab).rest).length
  exact ⟨⟨start.location, after.location⟩, after⟩

theorem tokens (stands : r.StandsIn n) (version : Version) (tab fuel : Nat) :
    ∀ t ∈ r.tokens version tab fuel, t.span.start.In n ∧ t.span.finish.In n := by
  induction fuel generalizing r with
  | zero => exact List.forall_mem_nil _
  | succ fuel ih =>
    obtain ⟨first, after⟩ := stands.next version tab
    unfold Reader.tokens
    dsimp only
    split
    · exact List.forall_mem_singleton.2 first
    · exact List.forall_mem_cons.2 ⟨first, ih after⟩

theorem ofText (tab : Nat) (text : List Char) : (Reader.ofText tab text).StandsIn text.length := by
  have start : StandsIn text.length ⟨text, .origin⟩ :=
    ⟨Nat.zero_add _, Nat.le_refl 1, Nat.le_refl 1⟩
  unfold Reader.ofText
  dsimp only
  split
  · exact start.skip tab 1
  · exact start

end StandsIn

end Reader

section Fixed

variable {α : Type} [Relocate α] {g : Location → Location}

theorem relocate_eq_iff_forall {xs : List α} :
    relocate g xs = xs ↔ ∀ a ∈ xs, relocate g a = a := by
  show xs.map (relocate g) = xs ↔ _
  rw [show (xs.map (relocate g) = xs) = (xs.map (relocate g) = xs.map id) by rw [List.map_id],
    List.map_inj_left]
  rfl

end Fixed

/-- The end of the stream is at the end of the text. -/
theorem TilesFrom.finish_of_ends {text : List Char} {k : Nat} {tokens : List Token}
    (tiles : TilesFrom text k tokens) :
    ∀ t ∈ tokens, t.kind = .endOfStream → t.span.finish.index = text.length := by
  induction tiles with
  | finish _ _ finish =>
    intro t member _
    obtain rfl := List.mem_singleton.1 member
    exact finish
  | token _ _ _ tile _ ih =>
    intro t member ends
    rcases List.mem_cons.1 member with rfl | later
    · exact absurd ends tile.kind_ne
    · exact ih t later ends

theorem TilesFrom.forward {text : List Char} {k : Nat} {tokens : List Token}
    (tiles : TilesFrom text k tokens) : ∀ t ∈ tokens, t.span.Forward := by
  induction tiles with
  | finish _ start finish =>
    intro t member
    obtain rfl := List.mem_singleton.1 member
    exact Nat.le_of_eq (start.trans finish.symm)
  | token _ _ wide _ _ ih => exact List.forall_mem_cons.2 ⟨Nat.le_of_lt wide, ih⟩

theorem ParseState.ordered_start (comments : List Comment) (tokens : List Token) :
    (ParseState.start comments tokens).Ordered where
  diagnostics := List.forall_mem_nil _
  blocks := List.forall_mem_nil _
  directives := List.forall_mem_nil _
  tables := List.forall_mem_nil _
  pending _ absent := by cases absent

/-- A rule for whole texts passes all tokens, and its node spans the text. -/
structure Whole {α : Type} (rule : Rules → Bodies → Parse α) (root : α → Node)
    (comments : α → List Comment) : Prop where
  ends : ∀ r b (s : ParseState) depth, Rules.Sound r → b.Sound depth → s.Wf →
    s.remaining ≤ depth → s.blocks = [] → Ensures (rule r b) s fun a t =>
      (s.Runs t ∧ t.kind = .endOfStream) ∧ comments a = t.comments
  span : ∀ r b (s : ParseState), Ensures (rule r b) s fun a t =>
    (root a).span.start = .origin ∧ t.current.span.finish.index ≤ (root a).span.finish.index

/-- The spans that are kept run forward, and the node of the text reaches from its start to its
end. -/
theorem Whole.parseTokens {α : Type} {rule : Rules → Bodies → Parse α} {root : α → Node}
    {comments : α → List Comment} (whole : Whole rule root comments) (version : Version)
    (isScript : Bool) {text : List Char} {k : Nat} {tokens : List Token}
    (tiles : TilesFrom text k tokens) :
    let found := parseTokens rule version isScript tokens
    (∀ d ∈ found.diagnostics, d.span.Forward) ∧ (∀ span ∈ found.tables.spans, span.Forward) ∧
      (root found.tree).span.start = .origin ∧
      text.length ≤ (root found.tree).span.finish.index := by
  have phrases := Rules.ofDepth_sound version ((tokens.filter fun t => !t.isComment).length + 1)
  obtain ⟨left, -, outside⟩ := ParseState.start_frame (tokens.filterMap Token.comment?)
    (tokens.filter fun t => !t.isComment)
  have wf := ParseState.wf_start (tokens.filterMap Token.comment?) tiles.stream
  obtain ⟨⟨runs, ends⟩, -⟩ := whole.ends _ _ _ _ phrases (Bodies.ofDepth_sound phrases isScript _)
    wf (Nat.le_succ_of_le left) outside
  have ordered := runs.ordered wf (ParseState.ordered_start _ _)
  obtain ⟨start, finish⟩ := whole.span (Rules.ofDepth version _) (Bodies.ofDepth isScript _ _) _
  refine ⟨ordered.diagnostics, ordered.tables, start, Nat.le_trans (Nat.le_of_eq ?_) finish⟩
  have last := runs.suffix.subset List.mem_cons_self
  rw [ParseState.ahead_start _ tiles.stream] at last
  exact (tiles.finish_of_ends _ (List.mem_of_mem_filter last) ends).symm

/-- The spans that are handed out for a text: those of the nodes and comments of its tree, of its
diagnostics and of its tables. -/
def Parsed.spans {α : Type} (p : Parsed α) (root : Node) (comments : List Comment) : List Span :=
  root.nodes.map Node.span ++ comments.map Comment.span ++ p.diagnostics.map Diagnostic.span ++
    p.tables.spans

/-- A region around a line that has a comment in place of an expression. -/
def region : String := "#Region \"r\"\nx = ' none\n#End Region\n"

end VisualBasic
