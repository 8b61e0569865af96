import VisualBasic.Parse.Source
import VisualBasic.Proofs.Parse.Body
import VisualBasic.Proofs.Scan.Tiling

/-!
Whole texts.  The tokens of a text are a stream, so the rules for its parts hold of all of it.
-/

set_option autoImplicit false

namespace VisualBasic

-- The tokens of a text

theorem Token.IsTile.isNamed {t : Token} {text : List Char} (tile : t.IsTile text) : t.IsNamed := by
  intro name spells
  unfold Token.name? at spells
  rcases tile with ⟨proper, -⟩ | ⟨isBreak, -⟩
  · cases lexeme : t.lexeme with
    | identifier | keyword =>
      rw [lexeme] at spells proper
      cases spells
      exact proper
    | _ => simp [lexeme] at spells
  · simp [isBreak] at spells

/-- Without comments, the tokens of a text are a stream. -/
theorem TilesFrom.stream {text : List Char} {k : Nat} {tokens : List Token}
    (tiles : TilesFrom text k tokens) : Stream (tokens.filter fun t => !t.isComment) := by
  induction tiles with
  | @finish _ t ends start finish =>
    have kind : t.kind = .endOfStream := by rw [Token.kind, ends]; rfl
    simp only [Token.isComment, kind, List.filter_cons, List.filter_nil]
    exact .last kind (start.trans finish.symm)
  | @token k t rest _ _ wide tile below ih =>
    by_cases comment : t.isComment = true
    · simpa [comment] using ih
    · have first : (t :: rest).filter (fun t => !t.isComment)
          = t :: rest.filter fun t => !t.isComment := by simp [comment]
      rw [first]
      cases kept : rest.filter fun t => !t.isComment with
      | nil =>
        rw [kept] at ih
        cases ih
      | cons u others =>
        have member : u ∈ rest := (List.mem_filter.1 (kept ▸ List.mem_cons_self)).1
        rw [kept] at ih
        exact .cons tile.kind_ne wide (below.le_start u member) tile.isNamed ih

theorem ParseState.ahead_start {tokens : List Token} (comments : List Comment)
    (stream : Stream tokens) : (ParseState.start comments tokens).ahead = tokens := by
  cases stream <;> rfl

theorem ParseState.start_frame (comments : List Comment) (tokens : List Token) :
    (ParseState.start comments tokens).remaining ≤ tokens.length ∧
      (ParseState.start comments tokens).diagnostics = [] ∧
      (ParseState.start comments tokens).blocks = [] := by
  cases tokens <;> simp [start, noteComments, remaining]

/-- A parser that has not started yet. -/
theorem ParseState.wf_start {tokens : List Token} (comments : List Comment)
    (stream : Stream tokens) : (ParseState.start comments tokens).Wf := by
  refine ⟨?_, ?_, ?_, ?_, ?_⟩
  · rwa [ahead_start comments stream]
  all_goals simp [ParseState.start, noteComments, limit, Location.origin]

-- Trees

/-- What is true of the tree of a text and the diagnostics beside it. -/
structure Accounts (n : Node) (found : List Diagnostic) : Prop where
  nests : n.Everywhere Node.Nests
  inOrder : n.Everywhere Node.InOrder
  proper : found = [] → n.Everywhere Node.IsProper
  ledger : (found.filterMap Diagnostic.unclosed?).Perm n.openBlocks

namespace Accounts

variable {lo : Nat} {s t : ParseState} {n : Node}

theorem complete {found : List Diagnostic} (accounts : Accounts n found) (none : found = []) :
    n.Everywhere Node.IsComplete :=
  (accounts.proper none).mono fun _ => Node.IsProper.isComplete

theorem endsBlocks {found : List Diagnostic} (accounts : Accounts n found) (none : found = []) :
    n.Everywhere Node.EndsBlocks := by
  have closed := accounts.ledger
  rw [none, List.filterMap_nil] at closed
  exact Node.endsBlocks_of_openBelow_eq_nil (List.append_eq_nil_iff.1 closed.nil_eq.symm).2

theorem ofStretch (fresh : s.diagnostics = []) (so : Stretch lo s t [n] []) :
    Accounts n t.diagnostics := by
  have fits := so.fits n (List.mem_singleton.2 rfl)
  refine ⟨fits.nests, fits.inOrder, fits.proper, ?_⟩
  simpa [ParseState.unclosed, fresh] using so.ledger

/-- A node without children is in order whenever its own span is. -/
theorem ofLeaf (fresh : s.diagnostics = []) (so : Stretch lo s t [] []) (dirty : t.diagnostics ≠ [])
    (order : n.span.start.index ≤ n.span.finish.index) (children : n.children = [])
    (owes : n.unclosed = []) : Accounts n t.diagnostics where
  nests := Node.everywhere_iff.2 ⟨⟨order, by simp [children]⟩, by simp [children]⟩
  inOrder := Node.everywhere_iff.2
    ⟨Node.inOrder_of_ascending (children ▸ .nil) (by simp [children]), by simp [children]⟩
  proper none := absurd none dirty
  ledger := by
    rw [Node.openBlocks_eq (by simp [children]), children, owes]
    simpa [ParseState.unclosed, fresh] using so.ledger

/-- The node of a whole text reaches to the end of the stream, which is behind all that is read. -/
theorem ofWhole {ns : List Node} (fresh : s.diagnostics = []) (so : Stretch lo s t ns [])
    (order : n.span.start.index ≤ n.span.finish.index)
    (inside : ∀ c ∈ ns, n.span.start.index ≤ c.span.start.index ∧
      c.span.finish.index ≤ n.span.finish.index)
    (children : n.children = ns) (whole : n.isProper = true) (owes : n.unclosed = [])
    (noLoop : n.closing? = none) (explicit : ∀ c, n.implies c = false) :
    Accounts n t.diagnostics := by
  have fits : n.Fits n.span.start.index n.span.finish.index (t.diagnostics = []) := by
    refine .own order (fun c member => ?_) (children ▸ so.ascending) (fun _ => whole) noLoop
      fun c _ => explicit c
    rw [children] at member
    obtain ⟨after, before⟩ := inside c member
    exact { so.fits c member with start := after, finish := before }
  refine ⟨fits.nests, fits.inOrder, fits.proper, ?_⟩
  rw [Node.openBlocks_eq fun c _ => explicit c, children, owes]
  simpa [ParseState.unclosed, fresh] using so.ledger

theorem ofAttempt {u : ParseState} (fresh : s.diagnostics = []) (before : Stretch lo s t [] [])
    (attempt : Attempt t u n) : Accounts n u.diagnostics := by
  rcases attempt with ⟨so, -⟩ | stalls
  · exact ofStretch fresh (before.append so)
  · exact ofLeaf fresh (before.append stalls.so) stalls.dirty
      (Nat.le_of_eq (stalls.start.trans stalls.finish.symm)) stalls.children stalls.owes

/-- What is reported behind the tree takes nothing from it. -/
theorem later {u : ParseState} (accounts : Accounts n t.diagnostics) (after : t.Idles u) :
    Accounts n u.diagnostics where
  nests := accounts.nests
  inOrder := accounts.inOrder
  proper none := accounts.proper (after.later.clean none)
  ledger := after.ledger.trans accounts.ledger

end Accounts

/-- What is reported where a text ends. -/
def ParseState.unended (s : ParseState) : List Diagnostic :=
  (s.pendingNext.map fun p => Diagnostic.mk (.stray .next) p.span).toList ++ s.directives.unended

namespace Parse

variable {r : Rules} {b : Bodies} {depth : Nat} {s t : ParseState}

theorem finish_diagnostics (s : ParseState) :
    (finish.run s).2.diagnostics = s.diagnostics ++ s.unended := by
  refine Ensures.get (Q := fun _ t => t.diagnostics = s.diagnostics ++ s.unended) ?_
  unfold ParseState.unended
  cases s.pendingNext with
  | none => exact finishDirectives_diagnostics s
  | some pending =>
    refine (finishDirectives_diagnostics ((dropPendingNext pending).run s).2).trans ?_
    exact List.append_assoc s.diagnostics [_] s.directives.unended

theorem finish_idles (wf : s.Wf) : Ensures finish s fun _ t => s.Idles t := by
  refine .get ?_
  split
  next pending left =>
    refine (dropPendingNext_decides left wf).bind fun _ t ⟨so, _⟩ => ?_
    exact (finishDirectives_idles so.wf).mono fun _ _ after => so.idles.trans after
  next => exact finishDirectives_idles wf

/-- What is recorded about the text stays as it is where the text ends. -/
theorem finish_tables (s : ParseState) : Ensures finish s fun _ t => t.tables = s.tables := by
  refine .get ?_
  split
  next pending _ =>
    have dropped : Ensures (dropPendingNext pending) s fun _ t => t.tables = s.tables :=
      (ParseState.Spares.report { s with suppressed := false } (.stray .next) pending.span).tables
    exact dropped.bind fun _ t same =>
      (finishDirectives_spares t).mono fun _ _ spares => spares.tables.trans same
  next => exact (finishDirectives_spares s).mono fun _ _ spares => spares.tables

theorem singleDeclaration_accounts (phrases : r.Sound) (sound : b.Sound depth) (wf : s.Wf)
    (bound : s.remaining ≤ depth) (fresh : s.diagnostics = []) :
    Ensures (singleDeclaration r b) s fun d t => Accounts (.declaration d) t.diagnostics := by
  refine (separators_silent phrases wf).bind fun _ t before => ?_
  have left := before.later.remaining
  refine (declaration_attempt phrases sound .script before.wf (by omega)).bind
    fun d u attempt => ?_
  exact (finish_idles attempt.wf).bind fun _ v after =>
    (Accounts.ofAttempt fresh before attempt).later after

theorem singleStatement_accounts (phrases : r.Sound) (sound : b.Sound depth) (wf : s.Wf)
    (bound : s.remaining ≤ depth) (fresh : s.diagnostics = []) :
    Ensures (singleStatement r b) s fun st t => Accounts (Node.ofStatement st) t.diagnostics := by
  refine (separators_silent phrases wf).bind fun _ t before => .peek ?_
  have left := before.later.remaining
  split
  next =>
    refine (before.report _ rfl fun _ => before.wf.stream.order).bind fun _ u ⟨so, dirty, _⟩ => ?_
    rw [pure_bind]
    refine (finish_idles so.wf).bind fun _ v after => Accounts.later ?_ after
    exact .ofLeaf fresh so dirty before.wf.stream.order rfl rfl
  next =>
    refine (statement_attempt phrases sound before.wf (by omega)).bind fun st u attempt => ?_
    exact (finish_idles attempt.wf).bind fun _ v after =>
    (Accounts.ofAttempt fresh before attempt).later after

/-- Outside of all blocks, a list that leaves no diagnostic has passed all tokens, and they were
understood. -/
theorem understood_of_body {u : ParseState} {container : Container} {span : Span} {ns : List Node}
    {stop : Option Terminator} (body : Body none container s t span ns stop)
    (after : t.Idles u) (none : u.diagnostics = []) : ∀ k ∈ s.ahead, k.kind ≠ .lexicalError := by
  intro k member fault
  have clean := after.later.clean none
  have ends := body.ends rfl
  have last := List.length_eq_zero_iff.1 ((ParseState.remaining_eq_zero_iff body.so.wf).2 ends)
  have left := body.so.later.lexical clean k member fault
  rw [ParseState.ahead, last, List.mem_singleton] at left
  rw [left] at fault
  exact absurd (ends.symm.trans fault) (by simp)

theorem whole_accounts {u : ParseState} {n : Node} {container : Container} {span : Span}
    {ns : List Node} {stop : Option Terminator} (fresh : s.diagnostics = [])
    (body : Body none container s t span ns stop) (after : t.Idles u)
    (spans : n.span = ⟨.origin, u.current.span.finish.later span.finish⟩)
    (children : n.children = ns) (whole : n.isProper = true) (owes : n.unclosed = [])
    (noLoop : n.closing? = none) (explicit : ∀ c, n.implies c = false) :
    Accounts n u.diagnostics := by
  have begins : n.span.start.index = 0 := by rw [spans]; rfl
  have ends : span.finish.index ≤ n.span.finish.index := by
    rw [spans, Location.index_later]
    exact Nat.le_max_right _ _
  refine Accounts.later (.ofWhole fresh body.so (by omega) (fun c member => ?_) children whole owes
    noLoop explicit) after
  have covers := body.covers c member
  omega

theorem wholeFile_accounts (phrases : r.Sound) (sound : b.Sound depth) (wf : s.Wf)
    (bound : s.remaining ≤ depth) (fresh : s.diagnostics = []) (outside : s.blocks = []) :
    Ensures (wholeFile r b) s fun found t => Accounts (.file found) t.diagnostics ∧
      (t.diagnostics = [] → ∀ k ∈ s.ahead, k.kind ≠ .lexicalError) := by
  refine (declarations_body phrases sound wf (fun _ => rfl) bound).bind fun found t body => ?_
  rw [outside] at body
  refine (finish_idles body.so.wf).bind fun _ u after => ⟨?_, ?_⟩
  · exact whole_accounts fresh body after rfl rfl rfl rfl rfl fun _ => rfl
  · exact understood_of_body body after

theorem wholeScript_accounts (phrases : r.Sound) (sound : b.Sound depth) (wf : s.Wf)
    (bound : s.remaining ≤ depth) (fresh : s.diagnostics = []) (outside : s.blocks = []) :
    Ensures (wholeScript r b) s fun found t => Accounts (.script found) t.diagnostics ∧
      (t.diagnostics = [] → ∀ k ∈ s.ahead, k.kind ≠ .lexicalError) := by
  refine (statements_body phrases sound wf bound).bind fun found t body => ?_
  rw [outside] at body
  refine (finish_idles body.so.wf).bind fun _ u after => ⟨?_, ?_⟩
  · exact whole_accounts fresh body after rfl rfl rfl rfl rfl fun _ => rfl
  · exact understood_of_body body after

/-- What a whole text lists keeps the rules for lists, and so does all that is listed in it. -/
theorem whole_orderly {u : ParseState} {n : Node} {container : Container} {span : Span}
    {ns : List Node} {stop : Option Terminator} (body : Body none container s t span ns stop)
    (after : t.Idles u) (children : n.children = ns)
    (listed : (n.lists, n.container) = ([ns], container)) (none : u.diagnostics = []) :
    n.Everywhere (Node.Orderly s.ahead) := by
  have clean := after.later.clean none
  obtain ⟨listed, place⟩ := Prod.mk.inj listed
  refine Node.everywhere_iff.2 ⟨Node.orderly_of_lists listed ?_, fun c member => ?_⟩
  · exact List.forall_mem_singleton.2 (place ▸ body.roster clean)
  · exact body.so.orderly clean c (children ▸ member)

theorem wholeFile_orderly (phrases : r.Sound) (sound : b.Sound depth) (wf : s.Wf)
    (bound : s.remaining ≤ depth) (outside : s.blocks = []) :
    Ensures (wholeFile r b) s fun found t =>
      t.diagnostics = [] → (Node.file found).Everywhere (Node.Orderly s.ahead) := by
  refine (declarations_body phrases sound wf (fun _ => rfl) bound).bind fun found t body => ?_
  rw [outside] at body
  exact (finish_idles body.so.wf).bind fun _ u after => whole_orderly body after rfl rfl

theorem wholeScript_orderly (phrases : r.Sound) (sound : b.Sound depth) (wf : s.Wf)
    (bound : s.remaining ≤ depth) (outside : s.blocks = []) :
    Ensures (wholeScript r b) s fun found t =>
      t.diagnostics = [] → (Node.script found).Everywhere (Node.Orderly s.ahead) := by
  refine (statements_body phrases sound wf bound).bind fun found t body => ?_
  rw [outside] at body
  exact (finish_idles body.so.wf).bind fun _ u after => whole_orderly body after rfl rfl

end Parse

/-- Parsing the tokens of a text runs a rule from the first of them. -/
theorem parseTokens_parsed {α : Type} (rule : Rules → Bodies → Parse α) (version : Version)
    (isScript : Bool) {tokens : List Token} {Q : Parsed α → Prop}
    (spec : ∀ r b depth, Rules.Sound r → b.Sound depth →
      let start := ParseState.start (tokens.filterMap Token.comment?)
        (tokens.filter fun t => !t.isComment)
      start.remaining ≤ depth → Ensures (rule r b) start fun a t => Q ⟨a, t.diagnostics, t.tables⟩) :
    Q (parseTokens rule version isScript tokens) := by
  have phrases := Rules.ofDepth_sound version ((tokens.filter fun t => !t.isComment).length + 1)
  obtain ⟨left, -⟩ := ParseState.start_frame (tokens.filterMap Token.comment?)
    (tokens.filter fun t => !t.isComment)
  exact spec _ _ _ phrases (Bodies.ofDepth_sound phrases isScript _) (Nat.le_succ_of_le left)

/-- Nothing has happened yet where a text starts. -/
theorem parseTokens_ensures {α : Type} (rule : Rules → Bodies → Parse α) (version : Version)
    (isScript : Bool) {tokens : List Token} {Q : α → List Diagnostic → Prop}
    (stream : Stream (tokens.filter fun t => !t.isComment))
    (spec : ∀ r b (s : ParseState) depth, Rules.Sound r → b.Sound depth → s.Wf →
      s.remaining ≤ depth → s.diagnostics = [] → s.blocks = [] →
      s.ahead = tokens.filter (fun t => !t.isComment) →
      Ensures (rule r b) s fun a t => Q a t.diagnostics) :
    Q (parseTokens rule version isScript tokens).tree
      (parseTokens rule version isScript tokens).diagnostics := by
  obtain ⟨-, fresh, outside⟩ := ParseState.start_frame (tokens.filterMap Token.comment?)
    (tokens.filter fun t => !t.isComment)
  exact parseTokens_parsed (Q := fun found => Q found.tree found.diagnostics) rule version isScript
    fun r b depth phrases sound bound =>
      spec r b _ depth phrases sound (ParseState.wf_start _ stream) bound fresh outside
        (ParseState.ahead_start _ stream)

-- The texts

section

variable (o : ScanOptions) (text : String)

theorem stream_tokenize : Stream ((o.tokenize text).filter fun t => !t.isComment) :=
  (tokenize_tilesFrom o text).stream

/-- A comment is always understood. -/
theorem understood_of_significant {tokens : List Token}
    (significant : ∀ k ∈ tokens.filter fun t => !t.isComment, k.kind ≠ .lexicalError) :
    ∀ k ∈ tokens, k.kind ≠ .lexicalError := by
  intro k member fault
  have kept : k ∈ tokens.filter fun t => !t.isComment :=
    List.mem_filter.2 ⟨member, by rw [Token.isComment, fault]; rfl⟩
  exact significant k kept fault

theorem parseFile_accounts :
    Accounts (.file (parseFile o text).tree) (parseFile o text).diagnostics ∧
      ((parseFile o text).diagnostics = [] →
        ∀ k ∈ (o.tokenize text).filter fun t => !t.isComment, k.kind ≠ .lexicalError) :=
  parseTokens_ensures (Q := fun found diagnostics => Accounts (.file found) diagnostics ∧
      (diagnostics = [] →
        ∀ k ∈ (o.tokenize text).filter fun t : Token => !t.isComment, k.kind ≠ .lexicalError))
    Parse.wholeFile o.version false (stream_tokenize o text)
    fun _ _ _ _ phrases sound wf bound fresh outside ahead =>
      ahead ▸ Parse.wholeFile_accounts phrases sound wf bound fresh outside

theorem parseScript_accounts :
    Accounts (.script (parseScript o text).tree) (parseScript o text).diagnostics ∧
      ((parseScript o text).diagnostics = [] →
        ∀ k ∈ (o.tokenize text).filter fun t => !t.isComment, k.kind ≠ .lexicalError) :=
  parseTokens_ensures (Q := fun found diagnostics => Accounts (.script found) diagnostics ∧
      (diagnostics = [] →
        ∀ k ∈ (o.tokenize text).filter fun t : Token => !t.isComment, k.kind ≠ .lexicalError))
    Parse.wholeScript o.version true (stream_tokenize o text)
    fun _ _ _ _ phrases sound wf bound fresh outside ahead =>
      ahead ▸ Parse.wholeScript_accounts phrases sound wf bound fresh outside

theorem parseDeclaration_accounts :
    Accounts (.declaration (parseDeclaration o text).tree) (parseDeclaration o text).diagnostics :=
  parseTokens_ensures (Q := fun d found => Accounts (.declaration d) found) _ _ _
    (stream_tokenize o text)
    fun _ _ _ _ phrases sound wf bound fresh _ _ =>
      Parse.singleDeclaration_accounts phrases sound wf bound fresh

theorem parseStatement_accounts :
    Accounts (Node.ofStatement (parseStatement o text).tree) (parseStatement o text).diagnostics :=
  parseTokens_ensures (Q := fun st found => Accounts (Node.ofStatement st) found) _ _ _
    (stream_tokenize o text) fun _ _ _ _ phrases sound wf bound fresh _ _ =>
      Parse.singleStatement_accounts phrases sound wf bound fresh

theorem parseExpression_accounts :
    Accounts (.expression (parseExpression o text).tree) (parseExpression o text).diagnostics :=
  parseTokens_ensures (Q := fun e found => Accounts (.expression e) found) _ _ _
    (stream_tokenize o text)
    fun _ _ _ _ phrases _ wf _ fresh _ _ =>
      (Parse.expression_yields phrases .lowest wf).mono fun _ _ so => .ofStretch fresh so

theorem parseTypeName_accounts :
    Accounts (.typeName (parseTypeName o text).tree) (parseTypeName o text).diagnostics :=
  parseTokens_ensures (Q := fun t found => Accounts (.typeName t) found) _ _ _
    (stream_tokenize o text)
    fun _ _ _ _ phrases _ wf _ fresh _ _ =>
      (Parse.typeName_yields phrases wf).mono fun _ _ so => .ofStretch fresh so

/-- Whatever the text, no span ends before it starts, and a node spans its children, except a loop
that a `Next` before it has closed: the variable that the `Next` names for it is outside. -/
theorem spans_nest :
    (Node.file (parseFile o text).tree).Everywhere Node.Nests ∧
      (Node.script (parseScript o text).tree).Everywhere Node.Nests ∧
      (Node.declaration (parseDeclaration o text).tree).Everywhere Node.Nests ∧
      (Node.ofStatement (parseStatement o text).tree).Everywhere Node.Nests ∧
      (Node.expression (parseExpression o text).tree).Everywhere Node.Nests ∧
      (Node.typeName (parseTypeName o text).tree).Everywhere Node.Nests :=
  ⟨(parseFile_accounts o text).1.nests, (parseScript_accounts o text).1.nests,
    (parseDeclaration_accounts o text).nests, (parseStatement_accounts o text).nests,
    (parseExpression_accounts o text).nests, (parseTypeName_accounts o text).nests⟩

/-- A `Next` in a line names a loop that has not started yet.  No diagnostic tells. -/
theorem variable_before_loop :
    (parseScript .standard
        "If a Then For i = 1 To 2 : Next i, j : For k = 1 To 3").diagnostics = [] ∧
      ¬ (Node.script (parseScript .standard
          "If a Then For i = 1 To 2 : Next i, j : For k = 1 To 3").tree).Everywhere
        fun n => ∀ c ∈ n.children, n.span.contains c.span = true := by
  refine ⟨by decide +kernel, fun nests => ?_⟩
  have outside : ∃ line ∈ (Node.script (parseScript .standard
        "If a Then For i = 1 To 2 : Next i, j : For k = 1 To 3").tree).children,
      ∃ loop ∈ line.children, ∃ c ∈ loop.children, loop.span.contains c.span = false := by
    decide +kernel
  obtain ⟨line, ofScript, loop, ofLine, c, ofLoop, apart⟩ := outside
  have inLine := (Node.everywhere_iff.1 nests).2 line ofScript
  have inLoop := (Node.everywhere_iff.1 inLine).2 loop ofLine
  have inside := (Node.everywhere_iff.1 inLoop).1 c ofLoop
  rw [apart] at inside
  exact Bool.false_ne_true inside

/-- Whatever the text, a node lists its children in the order in which they start, except that the
accessor that a property implies stands behind the name, and a variable that closes a loop before
it behind what the loop holds. -/
theorem children_keep_order :
    (Node.file (parseFile o text).tree).Everywhere Node.InOrder ∧
      (Node.script (parseScript o text).tree).Everywhere Node.InOrder ∧
      (Node.declaration (parseDeclaration o text).tree).Everywhere Node.InOrder ∧
      (Node.ofStatement (parseStatement o text).tree).Everywhere Node.InOrder ∧
      (Node.expression (parseExpression o text).tree).Everywhere Node.InOrder ∧
      (Node.typeName (parseTypeName o text).tree).Everywhere Node.InOrder :=
  ⟨(parseFile_accounts o text).1.inOrder, (parseScript_accounts o text).1.inOrder,
    (parseDeclaration_accounts o text).inOrder, (parseStatement_accounts o text).inOrder,
    (parseExpression_accounts o text).inOrder, (parseTypeName_accounts o text).inOrder⟩

/-- Whatever the text, the children of a node lie within it and do not overlap, in an expression and
all that is below it: names, arguments, types, array bounds and initialisers. -/
theorem expression_spans_are_tight :
    (Node.expression (parseExpression o text).tree).Everywhere Node.IsTight :=
  parseTokens_ensures (Q := fun e _ => (Node.expression e).Everywhere Node.IsTight) _ _ _
    (stream_tokenize o text)
    fun _ _ _ _ phrases _ wf _ _ _ _ =>
      (Parse.expression_yields phrases .lowest wf).mono fun _ _ so =>
        have read := List.mem_singleton.2 rfl
        Node.isTight_of_isPhrase rfl (so.fits _ read).nests ((so.noOverlap rfl).below _ read)

/-- The accessor that a property implies starts at its keyword, before the name that is listed
first.  No diagnostic tells. -/
theorem accessor_behind_name :
    (parseScript .standard "Property Get A\nEnd Property").diagnostics = [] ∧
      ¬ (Node.script (parseScript .standard "Property Get A\nEnd Property").tree).Everywhere
        fun n => Node.Ascending n.children := by
  refine ⟨by decide +kernel, fun ascending => ?_⟩
  have displaced : ∃ property ∈ (Node.script (parseScript .standard
        "Property Get A\nEnd Property").tree).children,
      ¬ Node.Ascending property.children := by
    decide +kernel
  obtain ⟨property, ofScript, apart⟩ := displaced
  have inProperty := (Node.everywhere_iff.1 ascending).2 property ofScript
  exact apart (Node.everywhere_iff.1 inProperty).1

/-- Where there is no diagnostic, the text is understood as a whole: all its tokens are proper ones,
nothing is missing from the tree, and all blocks have their ends. -/
theorem clean_text_is_understood :
    ((parseFile o text).diagnostics = [] →
      (∀ k ∈ o.tokenize text, k.kind ≠ .lexicalError) ∧
        (Node.file (parseFile o text).tree).Everywhere Node.IsComplete ∧
        (Node.file (parseFile o text).tree).Everywhere Node.EndsBlocks) ∧
      ((parseScript o text).diagnostics = [] →
        (∀ k ∈ o.tokenize text, k.kind ≠ .lexicalError) ∧
          (Node.script (parseScript o text).tree).Everywhere Node.IsComplete ∧
          (Node.script (parseScript o text).tree).Everywhere Node.EndsBlocks) := by
  obtain ⟨ofFile, inFile⟩ := parseFile_accounts o text
  obtain ⟨ofScript, inScript⟩ := parseScript_accounts o text
  constructor
  next =>
    intro none
    exact ⟨understood_of_significant (inFile none), ofFile.complete none, ofFile.endsBlocks none⟩
  next =>
    intro none
    exact ⟨understood_of_significant (inScript none), ofScript.complete none,
      ofScript.endsBlocks none⟩

/-- A class with a method, and a loop in it. -/
def countdown : String :=
  "Class C\n  Sub M(n As Integer)\n    Do While n : n -= 1 ' down\n    Loop\n  End Sub\nEnd Class\n"

theorem countdown_is_understood :
    ((parseFile .standard countdown).diagnostics = [] ∧
        (parseScript .standard countdown).diagnostics = []) ∧
      (∀ k ∈ ScanOptions.standard.tokenize countdown, k.kind ≠ .lexicalError) ∧
      ((Node.file (parseFile .standard countdown).tree).Everywhere Node.IsComplete ∧
        (Node.file (parseFile .standard countdown).tree).Everywhere Node.EndsBlocks) ∧
      (Node.script (parseScript .standard countdown).tree).Everywhere Node.IsComplete ∧
        (Node.script (parseScript .standard countdown).tree).Everywhere Node.EndsBlocks := by
  have cleanFile : (parseFile .standard countdown).diagnostics = [] := by decide +kernel
  have cleanScript : (parseScript .standard countdown).diagnostics = [] := by decide +kernel
  obtain ⟨ofFile, ofScript⟩ := clean_text_is_understood .standard countdown
  exact ⟨⟨cleanFile, cleanScript⟩, (ofFile cleanFile).1, (ofFile cleanFile).2,
    (ofScript cleanScript).2⟩

theorem parseFile_orderly (none : (parseFile o text).diagnostics = []) :
    (Node.file (parseFile o text).tree).Everywhere (Node.Orderly (o.tokenize text)) := by
  have orderly := parseTokens_ensures (Q := fun found diagnostics => diagnostics = [] →
      (Node.file found).Everywhere
        (Node.Orderly ((o.tokenize text).filter fun t : Token => !t.isComment)))
    Parse.wholeFile o.version false (stream_tokenize o text)
    fun _ _ _ _ phrases sound wf bound _ outside ahead =>
      ahead ▸ Parse.wholeFile_orderly phrases sound wf bound outside
  exact (orderly none).mono fun _ orderly => orderly.mono (List.filter_subset_self _)

theorem parseScript_orderly (none : (parseScript o text).diagnostics = []) :
    (Node.script (parseScript o text).tree).Everywhere (Node.Orderly (o.tokenize text)) := by
  have orderly := parseTokens_ensures (Q := fun found diagnostics => diagnostics = [] →
      (Node.script found).Everywhere
        (Node.Orderly ((o.tokenize text).filter fun t : Token => !t.isComment)))
    Parse.wholeScript o.version true (stream_tokenize o text)
    fun _ _ _ _ phrases sound wf bound _ outside ahead =>
      ahead ▸ Parse.wholeScript_orderly phrases sound wf bound outside
  exact (orderly none).mono fun _ orderly => orderly.mono (List.filter_subset_self _)

/-- Where there is no diagnostic, a colon or the end of a line stands between any two statements or
declarations that follow each other in a list, unless the first is a label, a single-line `If` with
an end of its own, or a loop that is closed by a variable which another loop has left over. -/
theorem statements_are_separated :
    ((parseFile o text).diagnostics = [] →
      (Node.file (parseFile o text).tree).Everywhere (Node.Tidy (o.tokenize text))) ∧
      ((parseScript o text).diagnostics = [] →
        (Node.script (parseScript o text).tree).Everywhere (Node.Tidy (o.tokenize text))) :=
  ⟨fun none => (parseFile_orderly o text none).mono fun _ orderly => orderly.tidy,
    fun none => (parseScript_orderly o text none).mono fun _ orderly => orderly.tidy⟩

theorem countdown_is_separated :
    ((parseFile .standard countdown).diagnostics = [] ∧
        (parseScript .standard countdown).diagnostics = []) ∧
      (Node.file (parseFile .standard countdown).tree).Everywhere
        (Node.Tidy (ScanOptions.standard.tokenize countdown)) ∧
      (Node.script (parseScript .standard countdown).tree).Everywhere
        (Node.Tidy (ScanOptions.standard.tokenize countdown)) := by
  have cleanFile : (parseFile .standard countdown).diagnostics = [] := by decide +kernel
  have cleanScript : (parseScript .standard countdown).diagnostics = [] := by decide +kernel
  obtain ⟨ofFile, ofScript⟩ := statements_are_separated .standard countdown
  exact ⟨⟨cleanFile, cleanScript⟩, ofFile cleanFile, ofScript cleanScript⟩

/-- Behind the end of a single-line `If` a statement can follow in the line, and a loop that is
closed by a variable which is left over takes the end of the line.  No diagnostic tells. -/
theorem statement_without_separator :
    ((parseScript .standard "If a Then b End If c = 1").diagnostics = [] ∧
        ¬ (Node.script (parseScript .standard "If a Then b End If c = 1").tree).Everywhere
          fun n => ∀ l ∈ n.lists, l.IsChain fun a b => a.isLabel = true ∨
            Node.Separated (ScanOptions.standard.tokenize "If a Then b End If c = 1") a b) ∧
      (parseScript .standard "For i = 1 To 2\nFor j = 1 To 2\nNext j, i\nx = 1").diagnostics = [] ∧
        ¬ (Node.script (parseScript .standard
            "For i = 1 To 2\nFor j = 1 To 2\nNext j, i\nx = 1").tree).Everywhere
          fun n => ∀ l ∈ n.lists, l.IsChain fun a b => a.isLabel = true ∨
            Node.Separated (ScanOptions.standard.tokenize
              "For i = 1 To 2\nFor j = 1 To 2\nNext j, i\nx = 1") a b := by
  refine ⟨⟨by decide +kernel, fun separated => ?_⟩, by decide +kernel, fun separated => ?_⟩
  · exact absurd (Node.everywhere_iff.1 separated).1 (by decide +kernel)
  · exact absurd (Node.everywhere_iff.1 separated).1 (by decide +kernel)

/-- The blocks without an end are those that are reported, each of them once. -/
theorem open_blocks_are_reported :
    ((parseFile o text).diagnostics.filterMap Diagnostic.unclosed?).Perm
        (Node.file (parseFile o text).tree).openBlocks ∧
      ((parseScript o text).diagnostics.filterMap Diagnostic.unclosed?).Perm
        (Node.script (parseScript o text).tree).openBlocks ∧
      ((parseDeclaration o text).diagnostics.filterMap Diagnostic.unclosed?).Perm
        (Node.declaration (parseDeclaration o text).tree).openBlocks ∧
      ((parseStatement o text).diagnostics.filterMap Diagnostic.unclosed?).Perm
        (Node.ofStatement (parseStatement o text).tree).openBlocks :=
  ⟨(parseFile_accounts o text).1.ledger, (parseScript_accounts o text).1.ledger,
    (parseDeclaration_accounts o text).ledger, (parseStatement_accounts o text).ledger⟩

end

end VisualBasic
