import VisualBasic.Proofs.Parse.Books
import VisualBasic.Proofs.Syntax.Roster

/-!
What a rule has read.  A rule runs from one state to another and gives nodes; the stretch between
the two states says where the nodes lie, whether anything is missing from them, and that each block
among them without an end has its diagnostic.
-/

set_option autoImplicit false

namespace VisualBasic

/-- The computation gives a result and a state with the property. -/
def Ensures {α : Type} (p : Parse α) (s : ParseState) (post : α → ParseState → Prop) : Prop :=
  post (p.run s).1 (p.run s).2

namespace Ensures

variable {α β : Type} {p : Parse α} {f : α → Parse β} {s : ParseState}
  {P : α → ParseState → Prop} {Q : β → ParseState → Prop}

theorem bind (first : Ensures p s P) (rest : ∀ a t, P a t → Ensures (f a) t Q) :
    Ensures (p >>= f) s Q :=
  rest _ _ first

theorem any : Ensures p s fun _ _ => True := trivial

theorem and {P' : α → ParseState → Prop} (first : Ensures p s P) (second : Ensures p s P') :
    Ensures p s fun a t => P a t ∧ P' a t :=
  ⟨first, second⟩

theorem mono {P' : α → ParseState → Prop} (first : Ensures p s P)
    (weaker : ∀ a t, P a t → P' a t) : Ensures p s P' :=
  weaker _ _ first

theorem map {g : α → β} (first : Ensures p s P) (rest : ∀ a t, P a t → Q (g a) t) :
    Ensures (g <$> p) s Q :=
  rest _ _ first

theorem mapBind {γ : Type} {g : α → γ} {h : γ → Parse β} (first : Ensures p s P)
    (rest : ∀ a t, P a t → Ensures (h (g a)) t Q) : Ensures (g <$> p >>= h) s Q :=
  rest _ _ first

theorem pure {a : α} (holds : P a s) : Ensures (pure a) s P := holds

end Ensures

/-- The block that a diagnostic says has no end, and where it starts. -/
def Diagnostic.unclosed? (d : Diagnostic) : Option (BlockKind × Nat) :=
  match d.problem with
  | .unclosed kind => some (kind, d.span.start.index)
  | _ => none

/-- The blocks without an end that have been reported. -/
def ParseState.unclosed (s : ParseState) : List (BlockKind × Nat) :=
  s.diagnostics.filterMap Diagnostic.unclosed?

/-- The tree lies between two indices, its spans nest, its nodes list their children in order, and
nothing is missing from it if the text is clean. -/
structure Node.Fits (lo hi : Nat) (clean : Prop) (n : Node) : Prop where
  start : lo ≤ n.span.start.index
  finish : n.span.finish.index ≤ hi
  nests : n.Everywhere Nests
  inOrder : n.Everywhere InOrder
  proper : clean → n.Everywhere IsProper

/-- A run of a parser and the nodes that it has read, none of which starts before `lo`.  The blocks
that are `owed` have been reported and are not yet among the nodes. -/
structure Stretch (lo : Nat) (o t : ParseState) (ns : List Node)
    (owed : List (BlockKind × Nat)) : Prop where
  began : o.Wf
  runs : o.Runs t
  books : o.Keeps [] t
  lower : lo ≤ t.here
  fits : ∀ n ∈ ns, n.Fits lo t.limit (t.diagnostics = [])
  ascending : Node.Ascending ns
  -- only a loop can have a child that overlaps others
  noOverlap : ns.all Node.isPhrase = true → Node.NoOverlap ns
  orderly : t.diagnostics = [] → ∀ n ∈ ns, n.Everywhere (Node.Orderly o.ahead)
  blocks : t.blocks = o.blocks
  depth : t.lineIfDepth = o.lineIfDepth
  -- a `Next` that is left over has been read on the way, in one of the statements, or was left over
  -- before
  pending : ∀ p, t.pendingNext = some p →
    (o.here ≤ p.statement.span.start.index ∧
      ∃ n ∈ ns, n.isPhrase = false ∧ n.span.start.index ≤ p.statement.span.start.index) ∨
    ∃ q, o.pendingNext = some q ∧ q.statement = p.statement
  ledger : t.unclosed.Perm (o.unclosed ++ (ns.flatMap Node.openBlocks ++ owed))

/-- A run that leaves no nodes behind, whatever it does to directives. -/
structure ParseState.Idles (o t : ParseState) : Prop where
  began : o.Wf
  runs : o.Runs t
  blocks : t.blocks = o.blocks
  depth : t.lineIfDepth = o.lineIfDepth
  pending : ∀ p, t.pendingNext = some p → ∃ q, o.pendingNext = some q ∧ q.statement = p.statement
  ledger : t.unclosed.Perm o.unclosed

/-- A run that reads no nodes.  It may take up the `Next` of a loop. -/
structure ParseState.Passes (o t : ParseState) : Prop where
  runs : o.Runs t
  books : o.Keeps [] t
  blocks : t.blocks = o.blocks
  depth : t.lineIfDepth = o.lineIfDepth
  pending : ∀ p, t.pendingNext = some p → o.here ≤ p.statement.span.start.index ∨
    ∃ q, o.pendingNext = some q ∧ q.statement = p.statement
  ledger : t.unclosed.Perm o.unclosed

theorem ParseState.Passes.refl (s : ParseState) : s.Passes s :=
  ⟨.refl s, .refl s, rfl, rfl, fun p left => .inr ⟨p, left, rfl⟩, .refl _⟩

namespace ParseState.Idles

variable {o t u : ParseState}

theorem refl (wf : o.Wf) : o.Idles o :=
  ⟨wf, .refl o, rfl, rfl, fun p left => ⟨p, left, rfl⟩, .refl _⟩

theorem wf (idles : o.Idles t) : t.Wf := idles.runs.wf idles.began

theorem later (idles : o.Idles t) : o.Later t := idles.runs.later idles.began

theorem trans (first : o.Idles t) (second : t.Idles u) : o.Idles u where
  began := first.began
  runs := first.runs.trans second.runs
  blocks := second.blocks.trans first.blocks
  depth := second.depth.trans first.depth
  pending p left := by
    obtain ⟨q, held, same⟩ := second.pending p left
    obtain ⟨q', held', same'⟩ := first.pending q held
    exact ⟨q', held', same'.trans same⟩
  ledger := second.ledger.trans first.ledger

/-- A step that touches nothing but tokens, directives and what is recorded. -/
theorem act (idles : o.Idles t) (step : t.Act u) (blocks : u.blocks = t.blocks)
    (depth : u.lineIfDepth = t.lineIfDepth) (pending : u.pendingNext = t.pendingNext)
    (ledger : u.unclosed = t.unclosed) : o.Idles u :=
  idles.trans ⟨idles.wf, .act step, blocks, depth, fun p left => ⟨p, pending ▸ left, rfl⟩,
    .of_eq ledger⟩

end ParseState.Idles

theorem Node.Fits.mono {lo lo' hi hi' : Nat} {clean clean' : Prop} {n : Node}
    (fits : n.Fits lo hi clean) (lower : lo' ≤ lo) (upper : hi ≤ hi') (cleaner : clean' → clean) :
    n.Fits lo' hi' clean' where
  start := Nat.le_trans lower fits.start
  finish := Nat.le_trans fits.finish upper
  nests := fits.nests
  inOrder := fits.inOrder
  proper none := fits.proper (cleaner none)

theorem Node.Fits.order {lo hi : Nat} {clean : Prop} {n : Node} (fits : n.Fits lo hi clean) :
    n.span.Forward :=
  (Node.everywhere_iff.1 fits.nests).1.order

/-- What is below a node lies within it. -/
theorem Node.Fits.child {lo hi : Nat} {clean : Prop} {n c : Node} (fits : n.Fits lo hi clean)
    (noLoop : n.closing? = none) (member : c ∈ n.children) :
    c.Fits n.span.start.index n.span.finish.index clean := by
  obtain ⟨own, below⟩ := Node.everywhere_iff.1 fits.nests
  have inside := Node.contains_iff.1 ((own.encloses c member).2 (Node.not_closedBefore noLoop))
  exact ⟨inside.1, inside.2, below c member, (Node.everywhere_iff.1 fits.inOrder).2 c member,
    fun none => (Node.everywhere_iff.1 (fits.proper none)).2 c member⟩

/-- A node lies within its span when all that is below it does. -/
theorem Node.Fits.own {clean : Prop} {n : Node}
    (order : n.span.start.index ≤ n.span.finish.index)
    (below : ∀ c ∈ n.children, c.Fits n.span.start.index n.span.finish.index clean)
    (ascending : Ascending n.children) (whole : clean → n.isProper = true)
    (noLoop : n.closing? = none) (explicit : ∀ c ∈ n.children, n.implies c = false) :
    n.Fits n.span.start.index n.span.finish.index clean where
  start := Nat.le_refl _
  finish := Nat.le_refl _
  nests := by
    refine Node.everywhere_iff.2 ⟨⟨order, fun c member => ?_⟩, fun c member => (below c member).nests⟩
    rw [Node.contains_iff]
    exact iff_of_true ⟨(below c member).start, (below c member).finish⟩ (Node.not_closedBefore noLoop)
  inOrder := Node.everywhere_iff.2
    ⟨Node.inOrder_of_ascending ascending fun c member => Node.not_displaced noLoop (explicit c member),
      fun c member => (below c member).inOrder⟩
  proper none := by
    refine Node.everywhere_iff.2 ⟨⟨whole none, ?_⟩, fun c member => (below c member).proper none⟩
    simp [Node.closingVariables, noLoop]

/-- What a node is beside its children. -/
structure Outline where
  span : Span
  unclosed : List (BlockKind × Nat)
  closing : Option (NextStatement × Option Expression)
  implies : Node → Bool
  whole : Bool
  lists : List (List Node)

namespace Node

def outline (n : Node) : Outline := ⟨n.span, n.unclosed, n.closing?, n.implies, n.isProper, n.lists⟩

end Node

/-- The outline of a node that is no loop and implies no accessor. -/
def Outline.holding (span : Span) (owed : List (BlockKind × Nat)) (whole : Bool)
    (lists : List (List Node)) : Outline :=
  ⟨span, owed, none, fun _ => false, whole, lists⟩

/-- The outline of such a node that lists no statements and no declarations. -/
def Outline.plain (span : Span) (owed : List (BlockKind × Nat)) (whole : Bool) : Outline :=
  holding span owed whole []

theorem Node.outline_holding {n : Node} {span : Span} {owed : List (BlockKind × Nat)} {whole : Bool}
    {lists : List (List Node)} (own : n.outline = .holding span owed whole lists) :
    n.span = span ∧ n.unclosed = owed ∧ n.closing? = none ∧ (∀ c, n.implies c = false) ∧
      n.isProper = whole ∧ n.lists = lists :=
  ⟨congrArg Outline.span own, congrArg Outline.unclosed own, congrArg Outline.closing own,
    congrFun (congrArg Outline.implies own), congrArg Outline.whole own,
    congrArg Outline.lists own⟩

namespace Stretch

variable {lo lo' : Nat} {o t u : ParseState} {n : Node} {ns ms : List Node}
  {owed due : List (BlockKind × Nat)}

theorem wf (so : Stretch lo o t ns owed) : t.Wf := so.runs.wf so.began

theorem later (so : Stretch lo o t ns owed) : o.Later t := so.runs.later so.began

theorem refl (wf : t.Wf) : Stretch t.here t t [] [] where
  began := wf
  runs := .refl t
  books := .refl t
  lower := Nat.le_refl _
  fits := by simp
  ascending := .nil
  noOverlap _ := .nil
  orderly := by simp
  blocks := rfl
  depth := rfl
  pending p left := .inr ⟨p, left, rfl⟩
  ledger := by simp

/-- One more step that touches nothing but tokens, marks and other diagnostics. -/
theorem act (so : Stretch lo o t ns owed) (step : t.Act u) (books : t.Keeps [] u)
    (blocks : u.blocks = t.blocks)
    (depth : u.lineIfDepth = t.lineIfDepth) (pending : u.pendingNext = t.pendingNext)
    (ledger : u.unclosed = t.unclosed) : Stretch lo o u ns owed where
  began := so.began
  runs := so.runs.trans (.act step)
  books := so.books.trans books
  lower := Nat.le_trans so.lower (step.later so.wf).here
  fits n member :=
    (so.fits n member).mono (Nat.le_refl _) (step.later so.wf).limit (step.later so.wf).clean
  ascending := so.ascending
  noOverlap := so.noOverlap
  orderly none := so.orderly ((step.later so.wf).clean none)
  blocks := blocks.trans so.blocks
  depth := depth.trans so.depth
  pending p left := so.pending p (pending ▸ left)
  ledger := ledger ▸ so.ledger

theorem weaken (so : Stretch lo o t ns owed) (lower : lo' ≤ lo) : Stretch lo' o t ns owed :=
  { so with
    lower := Nat.le_trans lower so.lower
    fits n member := (so.fits n member).mono lower (Nat.le_refl _) id }

theorem join (first : Stretch lo o t ns owed) (second : Stretch lo t u ms due)
    (between : ∀ a ∈ ns, ∀ b ∈ ms, a.span.finish.index ≤ b.span.start.index) :
    Stretch lo o u (ns ++ ms) (owed ++ due) where
  began := first.began
  runs := first.runs.trans second.runs
  books := first.books.trans second.books
  lower := second.lower
  fits n member := by
    rcases List.mem_append.1 member with early | late
    · exact (first.fits n early).mono (Nat.le_refl _) second.later.limit second.later.clean
    · exact second.fits n late
  ascending := List.pairwise_append.2 ⟨first.ascending, second.ascending, fun a early b late =>
    Nat.le_trans (first.fits a early).order (between a early b late)⟩
  noOverlap phrases := by
    rw [List.all_append, Bool.and_eq_true] at phrases
    exact (first.noOverlap phrases.1).append (second.noOverlap phrases.2) between
  orderly none n member := by
    rcases List.mem_append.1 member with early | late
    · exact first.orderly (second.later.clean none) n early
    · exact (second.orderly none n late).mono fun _ orderly => orderly.mono first.runs.suffix.subset
  blocks := second.blocks.trans first.blocks
  depth := second.depth.trans first.depth
  pending p left := by
    have here := first.later.here
    rcases second.pending p left with ⟨fresh, n, member, read⟩ | ⟨q, held, same⟩
    · exact .inl ⟨by omega, n, List.mem_append_right _ member, read⟩
    · rcases first.pending q held with ⟨fresh, n, member, read⟩ | ⟨q', held', same'⟩
      · exact .inl (same ▸ ⟨fresh, n, List.mem_append_left _ member, read⟩)
      · exact .inr ⟨q', held', same'.trans same⟩
  ledger := by
    have balance := second.ledger.trans (first.ledger.append_right _)
    rw [List.perm_iff_count] at balance ⊢
    intro block
    have := balance block
    simp only [List.flatMap_append, List.count_append] at this ⊢
    omega

theorem trans (first : Stretch lo o t [] owed) (second : Stretch lo t u ms due) :
    Stretch lo o u ms (owed ++ due) :=
  first.join second (by simp)

/-- What has been read does not end behind the parser. -/
theorem finish_le_here (so : Stretch lo o t ns owed) (member : n ∈ ns) :
    n.span.finish.index ≤ t.here :=
  Nat.le_trans (so.fits n member).finish so.wf.behind

theorem start_le_here (so : Stretch lo o t ns owed) (member : n ∈ ns) :
    n.span.start.index ≤ t.here :=
  Nat.le_trans (so.fits n member).order (so.finish_le_here member)

/-- A stretch goes on where another one ends. -/
theorem append (first : Stretch lo o t ns owed) (second : Stretch t.here t u ms due) :
    Stretch lo o u (ns ++ ms) (owed ++ due) := by
  refine first.join (second.weaken first.lower) fun a early b late => ?_
  exact Nat.le_trans (first.finish_le_here early) (second.fits b late).start

/-- What leaves nothing behind can be passed over. -/
theorem followed (first : Stretch lo o t ns owed) (second : Stretch t.here t u [] []) :
    Stretch lo o u ns owed := by
  simpa using first.append second

/-- Only statements leave a `Next` over. -/
theorem steady (so : Stretch lo o t ns owed) (phrases : ns.all Node.isPhrase = true)
    {p : PendingNext} (left : t.pendingNext = some p) :
    ∃ q, o.pendingNext = some q ∧ q.statement = p.statement := by
  rcases so.pending p left with ⟨-, n, member, isItem, -⟩ | held
  · rw [List.all_eq_true.1 phrases n member] at isItem
    cases isItem
  · exact held

/-- Phrases hold no blocks, so other phrases can take their place. -/
theorem replace (so : Stretch lo o t ns owed) (ms : List Node) (phrases : ns.all Node.isPhrase = true)
    (others : ms.all Node.isPhrase = true)
    (fits : ∀ m ∈ ms, m.Fits lo t.limit (t.diagnostics = [])) (ascending : Node.Ascending ms)
    (noOverlap : Node.NoOverlap ms) : Stretch lo o t ms owed := by
  have none {l : List Node} (phrases : l.all Node.isPhrase = true) :
      l.flatMap Node.openBlocks = [] := List.flatMap_eq_nil_iff.2 fun n member =>
    Node.openBlocks_of_isPhrase (List.all_eq_true.1 phrases n member)
  have ledger := so.ledger
  rw [none phrases] at ledger
  exact { so with
    fits := fits
    ascending := ascending
    noOverlap := fun _ => noOverlap
    orderly := fun _ m member => Node.orderly_of_isPhrase (List.all_eq_true.1 others m member) _
    pending := fun p left => .inr (so.steady phrases left)
    ledger := by rwa [none others] }

theorem forget (so : Stretch lo o t ns owed) (phrases : ns.all Node.isPhrase = true) :
    Stretch lo o t [] owed :=
  so.replace [] phrases rfl (by simp) .nil .nil

/-- From a node on, nothing starts before the node. -/
theorem rebase (so : Stretch lo o t [n] owed) : Stretch n.span.start.index o t [n] owed := by
  have fits := so.fits n (List.mem_singleton.2 rfl)
  have order := fits.order
  have finish := fits.finish
  have behind := so.wf.behind
  refine { so with lower := by omega, fits := fun m member => ?_ }
  rw [List.mem_singleton.1 member]
  exact { fits with start := Nat.le_refl _ }

/-- What has been read reaches at least to where its nodes start. -/
theorem reached (so : Stretch lo o t ns owed) (member : n ∈ ns) : lo ≤ t.limit := by
  have fits := so.fits n member
  have := fits.order
  have := fits.start
  have := fits.finish
  omega

/-- What has been read does not shrink. -/
theorem beyond (so : Stretch lo o t ns owed) {place : Nat} (reached : place < o.limit) :
    place < t.limit :=
  Nat.lt_of_lt_of_le reached so.later.limit

theorem past (so : Stretch lo o t ns owed) {place : Nat} (reached : place < o.limit) :
    place ≤ t.limit :=
  Nat.le_of_lt (so.beyond reached)

theorem passes (so : Stretch lo o t [] []) : o.Passes t :=
  ⟨so.runs, so.books, so.blocks, so.depth, fun p left => (so.pending p left).imp_left And.left,
    by simpa using so.ledger⟩

/-- A stretch that leaves nothing behind, for a rule that may be in the middle of a directive. -/
theorem idles (so : Stretch lo o t [] []) : o.Idles t :=
  ⟨so.began, so.runs, so.blocks, so.depth, fun p left => so.steady rfl left, by simpa using so.ledger⟩

theorem ofIdles (idles : o.Idles t) (books : o.Keeps [] t) : Stretch o.here o t [] [] where
  began := idles.began
  runs := idles.runs
  books := books
  lower := idles.later.here
  fits := by simp
  ascending := .nil
  noOverlap _ := .nil
  orderly := by simp
  blocks := idles.blocks
  depth := idles.depth
  pending p left := .inr (idles.pending p left)
  ledger := by simpa using idles.ledger

/-- The nodes that have been read become a statement or declaration. -/
theorem gather (so : Stretch lo o t ns owed) (past : t.Passes u) (isItem : n.isPhrase = false)
    (start : n.span.start.index = lo) (finish : n.span.finish.index ≤ u.limit) (nests : n.Nests)
    (inOrder : n.InOrder) (proper : u.diagnostics = [] → n.IsProper)
    (below : ∀ c ∈ n.children, ∃ lo hi, c.Fits lo hi (u.diagnostics = []))
    (orderly : u.diagnostics = [] → n.Everywhere (Node.Orderly o.ahead))
    (ledger : n.openBlocks.Perm (ns.flatMap Node.openBlocks ++ owed)) : Stretch lo o u [n] [] where
  began := so.began
  runs := so.runs.trans past.runs
  books := so.books.trans past.books
  lower := Nat.le_trans so.lower (past.runs.later so.wf).here
  fits m member := by
    rw [List.mem_singleton.1 member]
    refine ⟨Nat.le_of_eq start.symm, finish, ?_, ?_, fun none => ?_⟩
    · refine Node.everywhere_iff.2 ⟨nests, fun c inside => ?_⟩
      obtain ⟨_, _, fits⟩ := below c inside
      exact fits.nests
    · refine Node.everywhere_iff.2 ⟨inOrder, fun c inside => ?_⟩
      obtain ⟨_, _, fits⟩ := below c inside
      exact fits.inOrder
    · refine Node.everywhere_iff.2 ⟨proper none, fun c inside => ?_⟩
      obtain ⟨_, _, fits⟩ := below c inside
      exact fits.proper none
  ascending := List.pairwise_singleton _ _
  noOverlap phrases := by simp [isItem] at phrases
  orderly none := by simpa using orderly none
  blocks := past.blocks.trans so.blocks
  depth := past.depth.trans so.depth
  pending p left := by
    have here := so.later.here
    have lower := so.lower
    have own (early : lo ≤ p.statement.span.start.index) :
        ∃ m ∈ [n], m.isPhrase = false ∧ m.span.start.index ≤ p.statement.span.start.index :=
      ⟨n, List.mem_singleton.2 rfl, isItem, by omega⟩
    rcases past.pending p left with read | ⟨q, held, same⟩
    · exact .inl ⟨by omega, own (by omega)⟩
    · rw [← same] at own ⊢
      refine (so.pending q held).imp_left fun facts => ⟨facts.1, own ?_⟩
      obtain ⟨-, c, member, -, early⟩ := facts
      exact Nat.le_trans (so.fits c member).start early
  ledger := by simpa using past.ledger.trans (so.ledger.trans (ledger.symm.append_left _))

/-- The nodes that have been read become the children of a node that spans them.  What is owed
beyond the node itself stays owed. -/
theorem enclose (so : Stretch lo o t ns (owed ++ due)) (start : lo ≤ n.span.start.index)
    (order : n.span.start.index ≤ n.span.finish.index) (finish : n.span.finish.index ≤ t.limit)
    (inside : ∀ c ∈ ns, n.span.start.index ≤ c.span.start.index ∧
      c.span.finish.index ≤ n.span.finish.index)
    (children : n.children = ns) (whole : t.diagnostics = [] → n.isProper = true)
    (owes : n.unclosed = owed) (noLoop : n.closing? = none)
    (explicit : ∀ c ∈ ns, n.implies c = false)
    (orderly : t.diagnostics = [] → n.Orderly o.ahead) :
    Stretch lo o t [n] due := by
  have fits : n.Fits n.span.start.index n.span.finish.index (t.diagnostics = []) := by
    refine .own order (fun c member => ?_) (children ▸ so.ascending) whole noLoop
      (children ▸ explicit)
    rw [children] at member
    obtain ⟨after, before⟩ := inside c member
    exact { so.fits c member with start := after, finish := before }
  refine { so with
    fits := fun m member => ?_
    ascending := List.pairwise_singleton _ _
    noOverlap := fun phrases => ?_
    orderly := fun none m member => ?_
    pending := fun p left => (so.pending p left).imp_left fun facts => ⟨facts.1, ?_⟩
    ledger := so.ledger.trans (.append_left _ ?_) }
  · rw [List.mem_singleton.1 member]
    exact fits.mono start finish id
  · have phrase : n.isPhrase = true := by simpa using phrases
    have below := Node.all_children_isPhrase phrase
    rw [children] at below
    exact .around (children ▸ so.noOverlap below)
  · rw [List.mem_singleton.1 member]
    exact Node.everywhere_iff.2 ⟨orderly none, fun c inside => so.orderly none c (children ▸ inside)⟩
  · obtain ⟨-, c, member, isItem, early⟩ := facts
    exact ⟨n, List.mem_singleton.2 rfl,
      Node.isPhrase_eq_false_of_child (children.symm ▸ member) isItem,
      Nat.le_trans (inside c member).1 early⟩
  · rw [List.flatMap_singleton, Node.openBlocks_eq (by rwa [children]), children, owes,
      ← List.append_assoc]
    exact List.perm_append_comm.append_right _

theorem close (so : Stretch lo o t ns owed) (start : lo ≤ n.span.start.index)
    (order : n.span.start.index ≤ n.span.finish.index) (finish : n.span.finish.index ≤ t.limit)
    (inside : ∀ c ∈ ns, n.span.start.index ≤ c.span.start.index ∧
      c.span.finish.index ≤ n.span.finish.index)
    (children : n.children = ns) (whole : t.diagnostics = [] → n.isProper = true)
    (owes : n.unclosed = owed) (noLoop : n.closing? = none)
    (explicit : ∀ c ∈ ns, n.implies c = false)
    (orderly : t.diagnostics = [] → n.Orderly o.ahead) :
    Stretch lo o t [n] [] :=
  (owed.append_nil.symm ▸ so : Stretch lo o t ns (owed ++ [])).enclose start order finish inside
    children whole owes noLoop explicit orderly

/-- A node around a single one has the same extent. -/
theorem around {m : Node} {span : Span} (so : Stretch lo o t [m] []) (same : span = m.span)
    (children : n.children = [m]) (own : n.outline = .plain span [] true) :
    Stretch lo o t [n] [] := by
  obtain ⟨spans, owes, noLoop, explicit, whole, flat⟩ := Node.outline_holding own
  have fits := so.fits m (List.mem_singleton.2 rfl)
  rw [same] at spans
  refine so.close ?_ ?_ ?_ (fun c member => ?_) children (fun _ => whole) owes noLoop
    (fun c _ => explicit c) fun _ => Node.orderly_of_flat flat _
  · exact spans ▸ fits.start
  · exact spans ▸ fits.order
  · exact spans ▸ fits.finish
  · rw [List.mem_singleton.1 member, spans]
    exact ⟨Nat.le_refl _, Nat.le_refl _⟩

end Stretch

end VisualBasic
