import VisualBasic.Proofs.Syntax.Nodes

/-!
Terminators that belong to no block.  A terminator that stands among statements or declarations is
stray; it has its place there if no block around it accepts it.  Around a node are the blocks of the
nodes above it, an accessor that its property implies apart.
-/

set_option autoImplicit false

namespace VisualBasic

namespace Node

/-- The terminator that a node is when no block has taken it. -/
def stray? : Node → Option Terminator
  | statement (.endBlock e) | declaration (.endBlock e) => some (.endOf e.kind)
  | statement (.loop _) => some .loop
  | statement (.next _) => some .next
  | statement (.elseIf _) => some .elseIf
  | statement (.elsePart _) => some .elsePart
  | statement (.case _) => some .case
  | statement (.caseElse _) => some .caseElse
  | statement (.catchPart _) => some .catchPart
  | statement (.finallyPart _) => some .finallyPart
  | _ => none

def isLineIf : Node → Bool
  | statement (.lineIf _) => true
  | _ => false

/-- The `End` that a node carries, with the kind of the block that the node is. -/
def ending? : Node → Option (BlockKind × EndBlock)
  | statement (.ifBlock b) => b.ending.map fun e => (.ifBlock, e)
  | statement (.lineIf b) => b.ending.map fun e => (.ifBlock, e)
  | statement (.whileBlock b) => b.ending.map fun e => (.whileBlock, e)
  | statement (.objectBlock b) => b.ending.map fun e => (b.kind.block, e)
  | statement (.usingBlock b) => b.ending.map fun e => (.usingBlock, e)
  | statement (.tryBlock b) => b.ending.map fun e => (.tryBlock, e)
  | statement (.selectBlock b) => b.ending.map fun e => (.selectBlock, e)
  | declaration (.namespaceBlock d) => d.ending.map fun e => (.namespaceBlock, e)
  | declaration (.type d) => d.ending.map fun e => (d.kind.block, e)
  | declaration (.enum d) => d.ending.map fun e => (.enumBlock, e)
  | declaration (.method d) => d.ending.map fun e => (d.kind.block, e)
  | declaration (.operator d) => d.ending.map fun e => (.operatorBlock, e)
  | declaration (.customEvent d) => d.ending.map fun e => (.eventBlock, e)
  | declaration (.property d) => d.ending.map fun e => (.propertyBlock, e)
  | declaration (.accessor d) => d.ending.map fun e => (d.kind.block, e)
  | _ => none

/-- The `End` of a block is the one for its kind. -/
def EndsAsOpened (n : Node) : Prop := ∀ kind e, n.ending? = some (kind, e) → e.kind = kind

/-- The node `n` is in the tree of `root`, below the nodes `above`, the nearest of them first. -/
inductive Below (root : Node) : List Node → Node → Prop
  | root : Below root [] root
  | child {above : List Node} {n c : Node} : Below root above n → c ∈ n.children →
      Below root (n :: above) c

/-- The block that a node opens around the nodes below it. -/
def opened (n : Node) : List BlockKind := (n.block?.map Prod.fst).toList

/-- No block of the given kinds accepts the node. -/
def Refused (kinds : List BlockKind) (n : Node) : Prop :=
  ∀ x, n.stray? = some x → ∀ kind ∈ kinds, kind.accepts x = false

/-- Within blocks of the given kinds, the tree has the terminators that it should: those below `n`
that stand in no single-line `If` are refused by all blocks around them. -/
inductive Keeps : List BlockKind → Node → Prop
  | intro {kinds : List BlockKind} {n : Node} (ends : n.EndsAsOpened)
      (refused : n.isLineIf = false → ∀ c ∈ n.children, Refused kinds c)
      (below : ∀ c ∈ n.children, Keeps ((if n.implies c then [] else c.opened) ++ kinds) c) :
      Keeps kinds n

theorem Refused.mono {kinds fewer : List BlockKind} {n : Node} (refused : Refused kinds n)
    (subset : fewer ⊆ kinds) : Refused fewer n :=
  fun x isStray kind member => refused x isStray kind (subset member)

theorem Keeps.mono {kinds fewer : List BlockKind} {n : Node} (keeps : Keeps kinds n)
    (subset : fewer ⊆ kinds) : Keeps fewer n := by
  induction keeps generalizing fewer with
  | intro ends refused below ih =>
    refine ⟨ends, fun block c member => (refused block c member).mono subset, fun c member => ?_⟩
    exact ih c member (List.append_subset.2
      ⟨List.subset_append_left _ _, List.subset_append_of_subset_right _ subset⟩)

/-- The kinds of the blocks that are open below the nodes `n :: above`. -/
def openAlong (n : Node) : List Node → List BlockKind
  | [] => n.opened
  | parent :: rest => (if parent.implies n then [] else n.opened) ++ openAlong parent rest

theorem Below.keeps {root n : Node} {above : List Node} (below : Below root above n)
    (keeps : Keeps root.opened root) : Keeps (openAlong n above) n := by
  induction below with
  | root => exact keeps
  | child _ member ih =>
    cases ih with
    | intro _ _ below => exact below _ member

theorem mem_openAlong {n : Node} {above inner outer : List Node} {a : Node} {kind : BlockKind}
    {ended : Bool} (split : n :: above = inner ++ a :: outer)
    (explicit : ∀ p, outer.head? = some p → p.implies a = false)
    (block : a.block? = some (kind, ended)) : kind ∈ openAlong n above := by
  have opens : kind ∈ a.opened := by simp [opened, block]
  induction above generalizing n inner with
  | nil =>
    cases inner with
    | nil =>
      obtain ⟨rfl, rfl⟩ := List.cons.inj split
      exact opens
    | cons first rest => simp at split
  | cons parent rest ih =>
    cases inner with
    | nil =>
      obtain ⟨rfl, rfl⟩ := List.cons.inj split
      rw [openAlong, explicit parent rfl]
      exact List.mem_append_left _ opens
    | cons first more =>
      obtain ⟨-, split⟩ := List.cons.inj split
      exact List.mem_append_right _ (ih split)

/-- No block above a stray terminator accepts it, unless it stands in a single-line `If`; the accessor
that a property implies is no block.  The `End` of every block is the one for its kind. -/
structure TerminatesBlocks (root : Node) : Prop where
  refused : ∀ above n x, root.Below above n → n.stray? = some x →
    (∀ p, above.head? = some p → p.isLineIf = false) →
    ∀ inner a outer, above = inner ++ a :: outer →
      (∀ p, outer.head? = some p → p.implies a = false) →
      ∀ kind ended, a.block? = some (kind, ended) → kind.accepts x = false
  ends : root.Everywhere EndsAsOpened

theorem Keeps.everywhere {kinds : List BlockKind} {n : Node} (keeps : Keeps kinds n) :
    n.Everywhere EndsAsOpened := by
  induction keeps with
  | intro ends _ _ ih => exact everywhere_iff.2 ⟨ends, ih⟩

/-- What a tree keeps, along the way from its root to a stray terminator. -/
theorem Keeps.terminatesBlocks {root : Node} (keeps : Keeps root.opened root) :
    root.TerminatesBlocks := by
  constructor
  next =>
    intro above n x below isStray inBlock inner a outer split explicit kind ended block
    cases below with
    | root => simp at split
    | child nearer member =>
      have within := nearer.keeps keeps
      cases within with
      | intro _ refused _ =>
        exact refused (inBlock _ rfl) _ member x isStray kind (mem_openAlong split explicit block)
  next => exact keeps.everywhere

-- Phrases

theorem all_ofLabel_isPhrase (l : Label) : (ofLabel l).all isPhrase = true := by
  cases l <;> rfl

theorem all_ofTypeParameters_isPhrase (p : Option TypeParameterList) :
    (ofTypeParameters p).all isPhrase = true :=
  all_getD_isPhrase (fun _ => all_map_isPhrase (fun _ => rfl) _) p

theorem all_ofParameters_isPhrase (p : Option ParameterList) :
    (ofParameters p).all isPhrase = true :=
  all_getD_isPhrase (fun _ => all_map_isPhrase (fun _ => rfl) _) p

theorem all_ofReturnType_isPhrase (t : Option ReturnType) :
    (ofReturnType t).all isPhrase = true :=
  all_getD_isPhrase (fun _ => by rw [List.all_append, all_ofAttributes_isPhrase]; rfl) t

theorem all_ofHandles_isPhrase (c : Option HandlesClause) :
    (ofHandles c).all isPhrase = true :=
  all_getD_isPhrase (fun _ => all_map_isPhrase (fun _ => rfl) _) c

theorem all_ofImplements_isPhrase (c : Option ImplementsClause) :
    (ofImplements c).all isPhrase = true :=
  all_getD_isPhrase (fun _ => all_map_isPhrase isPhrase_ofName _) c

theorem all_ofResource_isPhrase (resource : UsingResource) :
    (ofResource resource).all isPhrase = true := by
  cases resource with
  | expression => rfl
  | declarators => exact all_map_isPhrase (fun _ => rfl) _

theorem isPhrase_ofForControl (control : ForControl) :
    (ofForControl control).isPhrase = true := by
  cases control <;> rfl

theorem all_ofCatch_isPhrase (line : CatchStatement) :
    (ofCatch line).all isPhrase = true := by
  rw [ofCatch, List.all_append, List.all_append, all_ofOption_isPhrase fun _ => rfl,
    all_ofOption_isPhrase fun _ => rfl, all_ofOption_isPhrase fun _ => rfl]
  rfl

-- Trees that keep their terminators

/-- A tree among statements or declarations within blocks of the given kinds. -/
structure Sits (kinds : List BlockKind) (n : Node) : Prop where
  refused : Refused kinds n
  keeps : Keeps (n.opened ++ kinds) n

theorem stray?_of_isPhrase {n : Node} (phrase : n.isPhrase = true) : n.stray? = none := by
  cases n with
  | file | script | declaration | statement | ifPart | caseBlock | tryPart =>
    simp [isPhrase] at phrase
  | _ => rfl

theorem ending?_of_isPhrase {n : Node} (phrase : n.isPhrase = true) : n.ending? = none := by
  cases n with
  | file | script | declaration | statement | ifPart | caseBlock | tryPart =>
    simp [isPhrase] at phrase
  | _ => rfl

theorem refused_of_stray?_eq_none {kinds : List BlockKind} {n : Node} (none : n.stray? = none) :
    Refused kinds n := by
  intro x isStray
  simp [none] at isStray

theorem endsAsOpened_of_ending?_eq_none {n : Node} (none : n.ending? = none) : n.EndsAsOpened := by
  intro kind e ends
  simp [none] at ends

theorem keeps_of_isPhrase {kinds : List BlockKind} {n : Node} (phrase : n.isPhrase = true) :
    Keeps kinds n := by
  have phrases := List.all_eq_true.1 (all_children_isPhrase phrase)
  refine ⟨endsAsOpened_of_ending?_eq_none (ending?_of_isPhrase phrase), fun _ c member => ?_,
    fun c member => ?_⟩
  · exact refused_of_stray?_eq_none (stray?_of_isPhrase (phrases c member))
  · exact keeps_of_isPhrase (phrases c member)
termination_by sizeOf n
decreasing_by exact sizeOf_mem_children member

theorem sits_of_isPhrase {kinds : List BlockKind} {n : Node} (phrase : n.isPhrase = true) :
    Sits kinds n :=
  ⟨refused_of_stray?_eq_none (stray?_of_isPhrase phrase), keeps_of_isPhrase phrase⟩

/-- A node keeps what its children do. -/
theorem Keeps.of_children {kinds : List BlockKind} {n : Node} (ends : n.EndsAsOpened)
    (each : ∀ c ∈ n.children, Sits kinds c) : Keeps kinds n := by
  refine ⟨ends, fun _ c member => (each c member).refused, fun c member => ?_⟩
  refine (each c member).keeps.mono ?_
  split
  · exact List.subset_append_right _ _
  · exact List.Subset.refl _

/-- A node that is no terminator sits where its children do. -/
theorem Sits.of_children {kinds : List BlockKind} {n : Node} (noStray : n.stray? = none)
    (ends : n.EndsAsOpened) (each : ∀ c ∈ n.children, Sits (n.opened ++ kinds) c) : Sits kinds n :=
  ⟨refused_of_stray?_eq_none noStray, .of_children ends each⟩

/-- A block that is made of phrases and of what its body holds. -/
theorem Sits.of_body {kinds : List BlockKind} {n : Node} {kind : BlockKind} (parts : List Node)
    {items : List Node} (noStray : n.stray? = none) (opens : n.opened = [kind]) (ends : n.EndsAsOpened)
    (children : n.children = parts ++ items) (phrases : parts.all isPhrase = true)
    (each : ∀ c ∈ items, Sits (kind :: kinds) c) : Sits kinds n := by
  refine .of_children noStray ends fun c member => ?_
  rw [children] at member
  rw [opens]
  rcases List.mem_append.1 member with part | item
  · exact sits_of_isPhrase (List.all_eq_true.1 phrases c part)
  · exact each c item

theorem endsAsOpened_of_map {n : Node} {kind : BlockKind} {ending : Option EndBlock}
    (own : n.ending? = ending.map fun e => (kind, e)) (ends : ∀ e ∈ ending, e.kind = kind) :
    n.EndsAsOpened := by
  intro kind' e found
  rw [own] at found
  obtain ⟨_, member, same⟩ := Option.map_eq_some_iff.1 found
  cases same
  exact ends e member

/-- A node with phrases below it that is neither a terminator nor a block. -/
theorem sits_of_phrases {kinds : List BlockKind} {n : Node} (noStray : n.stray? = none)
    (ends : n.ending? = none) (phrases : n.children.all isPhrase = true) : Sits kinds n :=
  .of_children noStray (endsAsOpened_of_ending?_eq_none ends)
    fun c member => sits_of_isPhrase (List.all_eq_true.1 phrases c member)

end Node

end VisualBasic
