import VisualBasic.Proofs.Parse.Comments
import VisualBasic.Proofs.Stray.Source

/-!
The order of the declarations of a file: options, imports, attributes of the whole file, then all
else.  What a declaration counts as is judged by the tokens it begins with, before it is read.
-/

set_option autoImplicit false

namespace VisualBasic

namespace Declaration

def isOption : Declaration → Bool
  | option _ _ _ => true
  | _ => false

def isImports : Declaration → Bool
  | imports _ _ => true
  | _ => false

/-- The declaration is made of attributes of the whole file. -/
def isFileAttributes : Declaration → Bool
  | attributes _ _ => true
  | _ => false

/-- The declaration is none of those that come first in a file. -/
def isMember (d : Declaration) : Bool := !(d.isOption || d.isImports || d.isFileAttributes)

end Declaration

namespace Parse

variable {r : Rules} {b : Bodies} {depth : Nat} {s t u : ParseState} {start : Location}
  {head : DeclarationHead}

-- What a rule gives, and where it starts

/-- A member that starts at the given place. -/
def MemberAt (start : Location) (d : Declaration) : Prop :=
  d.isMember = true ∧ d.span.start = start

theorem Introduces.memberAt {member : Member} {d : Declaration}
    (found : Introduces start head member d) : MemberAt start d := by
  refine ⟨?_, found.starts⟩
  rcases found.shape with ⟨isMember, -⟩ | ⟨span, rfl⟩
  · cases d <;> first | rfl | cases isMember
  · rfl

theorem declarationAfter_member (attributes : List AttributeBlock) :
    Ensures (declarationAfter r b start attributes .file) s fun d _ => MemberAt start d := by
  refine Ensures.any.bind fun _ t _ => Ensures.any.bind fun _ u _ => .get ?_
  split
  next => exact ⟨rfl, rfl⟩
  next => exact (memberDeclaration_introduces .file _).mono fun _ _ found => found.memberAt

-- Attributes of the whole file

/-- The first of some items is what the rule for items gives first. -/
theorem separatedFrom_first {α σ : Type} (item : σ → Parse (α × Option σ)) (n : Nat) (state : σ)
    {P : α → Prop} (first : Ensures (item state) s fun found _ => P found.1) :
    Ensures (separatedFrom item n state) s fun found _ => P found.first := by
  cases n with
  | zero => exact first
  | succ n =>
    refine first.bind fun found t holds => ?_
    obtain ⟨value, next⟩ := found
    cases next with
    | none => exact holds
    | some state =>
      refine Ensures.any.bind fun comma u _ => ?_
      cases comma with
      | none => exact holds
      | some comma => exact holds

theorem commaList_first {α : Type} {span : α → Span} {item : Parse α} {P : α → Prop}
    (first : Ensures item s fun a _ => P a) :
    Ensures (commaList span item) s fun found _ => ∃ a rest, found.items = a :: rest ∧ P a := by
  have found : Ensures (separated item) s fun found _ => P found.first :=
    .get (separatedFrom_first _ _ _ (first.bind fun _ _ holds => holds))
  exact found.bind fun found _ holds => ⟨found.first, _, rfl, holds⟩

theorem appliedAttribute_target :
    Ensures (appliedAttribute r) s fun a _ => a.target = attributeTarget? s := by
  refine .here (.get ?_)
  extract_lets target rest
  split
  · exact Ensures.any.bind fun _ t _ => Ensures.any.bind fun _ u _ => rfl
  · rfl

theorem attributeBlock_target :
    Ensures (attributeBlock r) s fun block _ =>
      ∃ a rest, block.attributes.items = a :: rest ∧ a.target = attributeTarget? s.advance := by
  have attributes : Ensures (commaList Attribute.span (appliedAttribute r)) s.advance
      fun found _ => ∃ a rest, found.items = a :: rest ∧ a.target = attributeTarget? s.advance :=
    commaList_first (P := fun a : Attribute => a.target = attributeTarget? s.advance)
      appliedAttribute_target
  refine Ensures.bind (P := fun _ t => t = s.advance) rfl fun _ t moved => ?_
  subst moved
  refine attributes.bind fun found u first => Ensures.any.bind fun close v _ => ?_
  extract_lets rest
  split
  · exact Ensures.any.bind fun _ w _ => Ensures.any.bind fun _ x _ => first
  · exact first

/-- The target of an attribute is told by its first two tokens. -/
theorem atFileAttribute_of_target (opens : s.kind = .mark .lessThan)
    (named : (attributeTarget? s.advance).isSome = true) :
    Lookahead.atFileAttribute s.ahead = true := by
  unfold attributeTarget? at named
  cases follows : s.following with
  | nil =>
    have stays : s.advance = s := by rw [ParseState.advance, follows]
    have ends : s.kindAfter = .endOfStream := by rw [ParseState.kindAfter, follows]; rfl
    rw [stays, ends] at named
    simp at named
  | cons k rest =>
    have kind : s.advance.kind = k.kind := by rw [ParseState.advance, follows]; rfl
    have current : s.advance.current = k := by rw [ParseState.advance, follows]; rfl
    have after : s.advance.kindAfter = Lookahead.kindAt (k :: rest) 1 := by
      rw [ParseState.advance, follows]
      simp [ParseState.noteComments, ParseState.kindAfter, Lookahead.kindAt, List.head?_eq_getElem?]
    rw [kind, current, after] at named
    have ahead : s.ahead = s.current :: k :: rest := by rw [ParseState.ahead, follows]
    split at named
    next => cases named
    next colon =>
      have colon : Lookahead.kindAt (k :: rest) 1 = .mark .colon := by simpa using colon
      have target : k.isContextual .kwAssembly = true ∨ k.kind = .word .kwModule := by
        split at named
        next assembly => exact .inl assembly
        next =>
          split at named
          next module => exact .inr (beq_iff_eq.1 module)
          next => cases named
      have opens : s.current.kind = .mark .lessThan := opens
      rw [Lookahead.atFileAttribute, ahead]
      simp only [Lookahead.kindAt, Lookahead.isContextualAt, List.getElem?_cons_succ,
        List.getElem?_cons_zero] at colon ⊢
      rcases target with assembly | module
      · simp [opens, colon, assembly]
      · simp [opens, colon, module]

/-- Attributes of the whole file can be told by the first tokens. -/
theorem attributeBlocks_target :
    Ensures (attributeBlocks r) s fun blocks _ =>
      areFileAttributes blocks = true → Lookahead.atFileAttribute s.ahead = true := by
  refine .get ?_
  cases s.remaining with
  | zero => exact fun none => by cases none
  | succ n =>
    refine .check ?_
    split
    next opens =>
      refine attributeBlock_target.bind fun block t first => Ensures.any.bind fun more u _ => ?_
      obtain ⟨a, others, items, target⟩ := first
      intro all
      change areFileAttributes (block :: more) = true at all
      have named : a.target.isSome = true := by
        simp only [areFileAttributes, List.all_cons, items, Bool.and_eq_true] at all
        exact all.2.1.1
      exact atFileAttribute_of_target (by simpa using opens) (target ▸ named)
    next => exact fun none => by cases none

/-- What a declaration of a file is, by the tokens that it begins with. -/
structure Ranks (s : ParseState) (d : Declaration) : Prop where
  starts : d.span.start = s.current.span.start
  options : d.isOption = (s.kind == .word .kwOption)
  imports : d.isImports = (s.kind == .word .kwImports)
  attributes : d.isFileAttributes = true → Lookahead.atFileAttribute s.ahead = true

theorem ranks_of_member {d : Declaration} (found : MemberAt s.current.span.start d)
    (noOption : s.kind ≠ .word .kwOption) (noImports : s.kind ≠ .word .kwImports) : Ranks s d := by
  obtain ⟨member, starts⟩ := found
  simp only [Declaration.isMember, Bool.not_or, Bool.and_eq_true, Bool.not_eq_true'] at member
  obtain ⟨⟨option, imports⟩, attributes⟩ := member
  refine ⟨starts, ?_, ?_, fun found => ?_⟩
  · rw [option, beq_eq_false_iff_ne.2 noOption]
  · rw [imports, beq_eq_false_iff_ne.2 noImports]
  · rw [attributes] at found
    cases found

theorem optionDeclaration_ranks (word : s.kind = .word .kwOption) :
    Ensures optionDeclaration s fun d _ => Ranks s d := by
  have ranks (kind : Option OptionKind) (setting : Option OptionSetting) {span : Span}
      (starts : span.start = s.current.span.start) : Ranks s (.option kind setting span) :=
    ⟨starts, by simp [Declaration.isOption, word], by simp [Declaration.isImports, word],
      fun none => by cases none⟩
  refine Ensures.bind (P := fun found _ => found = s.current) rfl fun _ t same => .peek ?_
  subst same
  split
  next => exact ranks _ _ rfl
  next =>
    refine Ensures.any.bind fun _ u _ => .branch (fun _ => .any) (fun _ => .any) fun setting v _ => ?_
    exact (endStatement_start _ v).bind fun _ _ starts => ranks _ _ starts

theorem importsDeclaration_ranks (word : s.kind = .word .kwImports) :
    Ensures (importsDeclaration r) s fun d _ => Ranks s d := by
  refine Ensures.bind (P := fun found _ => found = s.current) rfl fun _ t same => ?_
  subst same
  refine Ensures.any.bind fun clauses u _ => (endStatement_start _ u).bind fun span _ starts => ?_
  have others : Declaration.isOption (.imports clauses span) = (s.kind == .word .kwOption) := by
    rw [word]; rfl
  exact ⟨starts, others, by rw [word]; rfl, fun none => by cases none⟩

theorem typeList_member (kind : TypeListKind) (container : Container) :
    Ensures (typeList r kind container) s fun d _ => MemberAt s.current.span.start d := by
  refine Ensures.bind (P := fun found _ => found = s.current) rfl fun _ t same => ?_
  subst same
  extract_lets keyword rest
  have types (u : ParseState) : Ensures (rest ()) u fun d _ => MemberAt s.current.span.start d := by
    refine Ensures.any.bind fun types v _ => ?_
    extract_lets goOn
    have last (w : ParseState) : Ensures (goOn ()) w fun d _ => MemberAt s.current.span.start d :=
      (endStatement_start _ w).bind fun _ _ starts => ⟨rfl, starts⟩
    split
    · exact Ensures.any.bind fun _ w _ => last w
    · exact last v
  split
  · exact types t
  · exact Ensures.any.bind fun _ u _ => types u

theorem attributedDeclaration_ranks (noOption : s.kind ≠ .word .kwOption)
    (noImports : s.kind ≠ .word .kwImports) :
    Ensures (attributedDeclaration r b .file) s fun d _ => Ranks s d := by
  refine .here (attributeBlocks_target.bind fun blocks t target => .atStatementEnd ?_)
  split
  next first all =>
    refine Ensures.any.bind fun _ u _ => ?_
    refine ⟨rfl, (beq_eq_false_iff_ne.2 noOption).symm, (beq_eq_false_iff_ne.2 noImports).symm,
      fun _ => target ?_⟩
    exact (Bool.and_eq_true_iff.1 all).1
  next =>
    exact (declarationAfter_member _).mono
      fun _ _ found => ranks_of_member found noOption noImports

theorem endBlock_start (kind : BlockKind) :
    Ensures (endBlock kind) s fun e _ => e.span.start = s.current.span.start := by
  refine Ensures.bind (P := fun found _ => found = s.current) rfl fun _ t same => ?_
  subst same
  extract_lets rest
  have last (u : ParseState) :
      Ensures (rest ()) u fun e _ => e.span.start = s.current.span.start :=
    (endStatement_start _ u).bind fun _ _ starts => starts
  split
  · exact last t
  · exact Ensures.any.bind fun _ u _ => last u

theorem declaration_ranks : Ensures (declaration r b .file) s fun d _ => Ranks s d := by
  have terminates {x : Terminator} (stands : s.terminator? = some x) {d : Declaration}
      (found : MemberAt s.current.span.start d) : Ranks s d := by
    refine ranks_of_member found ?_ ?_ <;>
      exact fun word => by simp [ParseState.terminator?, Lookahead.terminator?, word] at stands
  refine .peek (.get ?_)
  split
  next kind stands =>
    have found : Ensures (report (.stray (.endOf kind)) s.current.span) s fun _ t =>
        t.current = s.current := (List.cons.inj (s.ahead_report _ _)).1
    refine found.bind fun _ t same => (endBlock_start kind).bind fun e u starts => ?_
    exact terminates stands ⟨rfl, same ▸ starts⟩
  next stands => exact terminates stands ⟨rfl, rfl⟩
  next =>
    split
    next word => exact optionDeclaration_ranks word
    next word => exact importsDeclaration_ranks word
    next word =>
      have word : s.kind = .word .kwInherits := word
      exact (typeList_member _ _).mono fun _ _ found =>
        ranks_of_member found (by simp [word]) (by simp [word])
    next word =>
      have word : s.kind = .word .kwImplements := word
      exact (typeList_member _ _).mono fun _ _ found =>
        ranks_of_member found (by simp [word]) (by simp [word])
    next noOption noImports _ _ => exact attributedDeclaration_ranks noOption noImports

end Parse

-- The order

/-- The tokens from a place on. -/
def tokensFrom (tokens : List Token) (place : Location) : List Token :=
  tokens.dropWhile fun t => t.span.start < place

/-- An attribute of the whole file stands where the declaration starts. -/
def Declaration.leadsWithFileAttribute (tokens : List Token) (d : Declaration) : Bool :=
  Lookahead.atFileAttribute (tokensFrom tokens d.span.start)

/-- Options, imports, declarations that lead as attributes of the whole file do, and others. -/
structure FileParts (leads : Declaration → Bool)
    (options imports attributes members : List Declaration) : Prop where
  options : ∀ d ∈ options, d.isOption = true
  imports : ∀ d ∈ imports, d.isImports = true
  attributes : ∀ d ∈ attributes, leads d = true ∧ d.isOption = false ∧ d.isImports = false
  members : ∀ d ∈ members, d.isMember = true ∧ leads d = false

/-- The declarations come one part after the other. -/
def InFileOrder (leads : Declaration → Bool) (list : List Declaration) : Prop :=
  ∃ options imports attributes members, list = options ++ imports ++ attributes ++ members ∧
    FileParts leads options imports attributes members

/-- The declarations come one part after the other, and none of a part that is already past. -/
def KeepsOrder (tokens : List Token) (order : DeclarationOrder) (list : List Declaration) : Prop :=
  ∃ options imports attributes members, list = options ++ imports ++ attributes ++ members ∧
    FileParts (·.leadsWithFileAttribute tokens) options imports attributes members ∧
    (order.pastOptions = true → options = []) ∧ (order.pastImports = true → imports = []) ∧
    (order.pastAttributes = true → attributes = [])

namespace Parse

variable {r : Rules} {b : Bodies} {depth : Nat} {s t u : ParseState} {tokens : List Token}
  {order next : DeclarationOrder} {d : Declaration} {list : List Declaration}

theorem keepsOrder_nil : KeepsOrder tokens order [] :=
  ⟨[], [], [], [], rfl, ⟨by simp, by simp, by simp, by simp⟩, fun _ => rfl, fun _ => rfl, fun _ => rfl⟩

/-- A declaration whose first tokens are in order goes before those that keep the order from there
on. -/
theorem keepsOrder_cons (ranks : Ranks s d)
    (place : Lookahead.atFileAttribute s.ahead = d.leadsWithFileAttribute tokens)
    (inOrder : order.afterInFile s.kind (Lookahead.atFileAttribute s.ahead) = (none, next))
    (rest : KeepsOrder tokens next list) : KeepsOrder tokens order (d :: list) := by
  obtain ⟨options, imports, attributes, members, rfl, parts, noOption, noImports, noAttribute⟩ := rest
  have isOption := ranks.options
  have isImports := ranks.imports
  unfold DeclarationOrder.afterInFile at inOrder
  split at inOrder
  next word =>
    rw [word] at isOption
    obtain ⟨early, rfl⟩ := Prod.mk.inj inOrder
    refine ⟨d :: options, imports, attributes, members, by simp, ?_, ?_, noImports, noAttribute⟩
    · exact ⟨List.forall_mem_cons.2 ⟨isOption, parts.options⟩, parts.imports, parts.attributes,
        parts.members⟩
    · exact fun past => by simp [past] at early
  next word =>
    rw [word] at isImports
    obtain ⟨early, rfl⟩ := Prod.mk.inj inOrder
    obtain rfl := noOption rfl
    refine ⟨[], d :: imports, attributes, members, by simp, ?_, fun _ => rfl, ?_, noAttribute⟩
    · exact ⟨parts.options, List.forall_mem_cons.2 ⟨isImports, parts.imports⟩, parts.attributes,
        parts.members⟩
    · exact fun past => by simp [past] at early
  next noOptionWord noImportsWord =>
    rw [beq_eq_false_iff_ne.2 noOptionWord] at isOption
    rw [beq_eq_false_iff_ne.2 noImportsWord] at isImports
    split at inOrder
    next leads =>
      obtain ⟨early, rfl⟩ := Prod.mk.inj inOrder
      obtain rfl := noOption rfl
      obtain rfl := noImports rfl
      refine ⟨[], [], d :: attributes, members, by simp, ?_, fun _ => rfl, fun _ => rfl, ?_⟩
      · exact ⟨parts.options, parts.imports, List.forall_mem_cons.2
          ⟨⟨place ▸ leads, isOption, isImports⟩, parts.attributes⟩, parts.members⟩
      · exact fun past => by simp [past] at early
    next leads =>
      obtain ⟨-, rfl⟩ := Prod.mk.inj inOrder
      obtain rfl := noOption rfl
      obtain rfl := noImports rfl
      obtain rfl := noAttribute rfl
      have noAttributes : d.isFileAttributes = false :=
        Bool.eq_false_iff.2 fun found => leads (ranks.attributes found)
      refine ⟨[], [], [], d :: members, by simp, ?_, fun _ => rfl, fun _ => rfl, fun _ => rfl⟩
      refine ⟨parts.options, parts.imports, parts.attributes, List.forall_mem_cons.2
        ⟨⟨?_, place ▸ Bool.eq_false_iff.2 leads⟩, parts.members⟩⟩
      rw [Declaration.isMember, isOption, isImports, noAttributes]
      rfl

theorem tokensFrom_head (k : Token) (rest : List Token) :
    tokensFrom (k :: rest) k.span.start = k :: rest :=
  List.dropWhile_cons_of_neg fun before => Nat.lt_irrefl _ (of_decide_eq_true before)

theorem tokensFrom_of_suffix (stream : Stream tokens) {k : Token} {rest : List Token}
    (suffix : k :: rest <:+ tokens) : tokensFrom tokens k.span.start = k :: rest := by
  induction stream with
  | last =>
    obtain ⟨rfl, rfl⟩ : k = _ ∧ rest = [] := by simpa [List.suffix_cons_iff] using suffix
    exact tokensFrom_head k []
  | cons _ wide ordered _ below ih =>
    rcases List.suffix_cons_iff.1 suffix with same | later
    · rw [← same]
      exact tokensFrom_head k rest
    · have behind := below.here_le k (later.subset List.mem_cons_self)
      rw [← ih later]
      exact List.dropWhile_cons_of_pos (decide_eq_true (Nat.lt_of_lt_of_le wide
        (Nat.le_trans ordered behind)))

theorem declarationsWithin_keepsOrder (phrases : r.Sound) (sound : b.Sound depth)
    (stream : Stream tokens) (n : Nat) (order : DeclarationOrder) (wf : s.Wf)
    (suffix : s.ahead <:+ tokens) (outside : s.blocks = []) (fuel : s.remaining < n)
    (bound : s.remaining ≤ depth) :
    Ensures (declarationsWithin r b .file n order) s fun found t =>
      t.diagnostics = [] → KeepsOrder tokens order found.1 := by
  induction n generalizing s order with
  | zero => omega
  | succ n ih =>
    refine ((separators_silent phrases wf).and (separators_arrive phrases wf)).bind
      fun _ t ⟨before, arrived⟩ => ?_
    have top : t.blocks = [] → Container.file = .file := fun _ => rfl
    refine (firstStop_decides before.wf (declarationStops_decide top)).bind fun step u facts => ?_
    obtain ⟨decides, goesOn⟩ := facts
    cases step with
    | stop => exact fun _ => keepsOrder_nil
    | goOn =>
      have before := (before.append decides.1).beginConstruct
      refine .beginConstruct ((checkOrder_decides .file order before.wf).bind
        fun next v facts => ?_)
      obtain ⟨⟨checked, ahead⟩, inOrder⟩ := facts
      have goesOn : v.kind ≠ .endOfStream := (kinds_of_ahead ahead).1 ▸ goesOn (by simp) rfl
      have inside := kind_ne_of_arrived (ahead.trans decides.2) arrived
      have before := before.append checked
      have left := before.later.remaining
      refine ((Ensures.moving goesOn inside
        (declaration_attempt phrases sound .file before.wf (by omega))).and
        (.moving_result (P := Ranks v) declaration_ranks)).bind fun first w facts => ?_
      obtain ⟨⟨read, moved⟩, ranks⟩ := facts
      have long := before.append read
      have outside' := long.blocks.trans outside
      refine ((declarationsWithin_listed phrases sound n next read.wf (fun _ => rfl) (by omega)
        (by omega)).and (ih next read.wf (long.runs.suffix.trans suffix) outside' (by omega)
          (by omega))).bind fun rest x facts => ?_
      obtain ⟨⟨listed, -⟩, others⟩ := facts
      intro clean
      have cleanHere := read.later.clean (listed.so.later.clean clean)
      have inOrder := inOrder cleanHere
      rw [← (kinds_of_ahead ahead).1, ← ahead] at inOrder
      refine keepsOrder_cons ranks ?_ inOrder (others clean)
      rw [Declaration.leadsWithFileAttribute, ranks.starts]
      exact congrArg _ (tokensFrom_of_suffix stream (before.runs.suffix.trans suffix)).symm

theorem listSpan_diagnostics {α : Type} (span : α → Span) (items : List α) :
    Ensures (listSpan span items) s fun _ t => t.diagnostics = s.diagnostics := by
  unfold listSpan
  split <;> rfl

theorem wholeFile_keepsOrder (phrases : r.Sound) (sound : b.Sound depth) (stream : Stream tokens)
    (wf : s.Wf) (ahead : s.ahead = tokens) (bound : s.remaining ≤ depth) (outside : s.blocks = []) :
    Ensures (wholeFile r b) s fun found t =>
      t.diagnostics = [] → KeepsOrder tokens .initial found.declarations.declarations := by
  have keeps : Ensures (declarations r b .file) s fun found t =>
      t.diagnostics = [] → KeepsOrder tokens .initial found.1.declarations := by
    refine .get ((declarationsWithin_keepsOrder phrases sound stream _ _ wf (ahead ▸ List.suffix_rfl) outside
      (Nat.lt_succ_self _) bound).bind fun found t keeps => ?_)
    exact (listSpan_diagnostics Declaration.span found.1).bind
      fun _ u same clean => keeps (same ▸ clean)
  refine ((declarations_body phrases sound wf (fun _ => rfl) bound).and keeps).bind
    fun found t facts => ?_
  obtain ⟨body, keeps⟩ := facts
  exact (finish_idles body.so.wf).bind fun _ u after clean => keeps (after.later.clean clean)

end Parse

theorem parseFile_keepsOrder (o : ScanOptions) (text : String) :
    (parseFile o text).diagnostics = [] →
      KeepsOrder ((o.tokenize text).filter fun t => !t.isComment) .initial
        (parseFile o text).tree.declarations.declarations := by
  have stream := stream_tokenize o text
  unfold parseFile
  exact parseTokens_ensures (Q := fun (file : SourceFile) found => found = [] →
      KeepsOrder ((o.tokenize text).filter fun t => !t.isComment) .initial
        file.declarations.declarations)
    Parse.wholeFile o.version false stream fun _ _ _ _ phrases sound wf bound _ outside ahead =>
      Parse.wholeFile_keepsOrder phrases sound stream wf ahead bound outside

/-- A file without problems has options, then imports, then declarations that lead with an attribute
of the whole file, then all others. -/
theorem declarations_keep_order (o : ScanOptions) (text : String)
    (clean : (parseFile o text).diagnostics = []) :
    InFileOrder (·.leadsWithFileAttribute ((o.tokenize text).filter fun t => !t.isComment))
      (parseFile o text).tree.declarations.declarations := by
  obtain ⟨options, imports, attributes, members, whole, parts, -⟩ := parseFile_keepsOrder o text clean
  exact ⟨options, imports, attributes, members, whole, parts⟩

theorem each_part_keeps_order :
    (parseFile .standard "Option Strict On\nImports A\n<Assembly: B>\nEnum C\nEnd Enum").diagnostics =
        [] ∧
      InFileOrder
        (·.leadsWithFileAttribute ((ScanOptions.standard.tokenize
          "Option Strict On\nImports A\n<Assembly: B>\nEnum C\nEnd Enum").filter
            fun t => !t.isComment))
        (parseFile .standard
          "Option Strict On\nImports A\n<Assembly: B>\nEnum C\nEnd Enum").tree.declarations.declarations :=
  have clean := by decide +kernel
  ⟨clean, declarations_keep_order _ _ clean⟩

/-- Behind a type that leads with such an attribute there can be attributes of the file, and no
diagnostic tells. -/
theorem attributes_behind_type :
    (parseFile .standard "<Assembly: A> Class C\nEnd Class\n<Assembly: B>").diagnostics = [] ∧
      ¬ InFileOrder Declaration.isFileAttributes (parseFile .standard
        "<Assembly: A> Class C\nEnd Class\n<Assembly: B>").tree.declarations.declarations := by
  refine ⟨by decide +kernel, ?_⟩
  have read : ((parseFile .standard
      "<Assembly: A> Class C\nEnd Class\n<Assembly: B>").tree.declarations.declarations.map
        Declaration.isMember) = [true, false] := by
    decide +kernel
  generalize (parseFile .standard
    "<Assembly: A> Class C\nEnd Class\n<Assembly: B>").tree.declarations.declarations = list at read
  rintro ⟨options, imports, attributes, members, rfl, parts⟩
  have early (d : Declaration) (member : d ∈ options ++ imports ++ attributes) :
      d.isMember = false := by
    simp only [List.mem_append] at member
    rcases member with (option | imported) | leading
    · simp [Declaration.isMember, parts.options d option]
    · simp [Declaration.isMember, parts.imports d imported]
    · simp [Declaration.isMember, parts.attributes d leading]
  cases before : options ++ imports ++ attributes with
  | cons d rest =>
    rw [before, List.cons_append, List.map_cons] at read
    have member := (List.cons.inj read).1
    rw [early d (by simp [before])] at member
    cases member
  | nil =>
    rw [before, List.nil_append] at read
    have last : false ∈ members.map Declaration.isMember := by simp [read]
    obtain ⟨d, member, none⟩ := List.mem_map.1 last
    rw [(parts.members d member).1] at none
    cases none

end VisualBasic
