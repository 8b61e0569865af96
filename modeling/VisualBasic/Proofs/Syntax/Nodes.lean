import Mathlib.Data.List.Basic
import VisualBasic.Syntax.Walk

/-!
What can be said of the nodes of a tree: how their spans nest, whether anything is missing from
them, and which of their blocks have no end.  A property that is local to nodes holds of a tree
when it holds of its root and of the trees below.
-/

set_option autoImplicit false

namespace VisualBasic

namespace Node

/-- A property of all nodes of a tree. -/
def Everywhere (P : Node → Prop) (n : Node) : Prop := ∀ m ∈ n.nodes, P m

instance (P : Node → Prop) [DecidablePred P] (n : Node) : Decidable (n.Everywhere P) :=
  inferInstanceAs (Decidable (∀ m ∈ n.nodes, P m))

theorem everywhere_iff {P : Node → Prop} {n : Node} :
    n.Everywhere P ↔ P n ∧ ∀ c ∈ n.children, c.Everywhere P := by
  unfold Everywhere
  rw [nodes_eq]
  simp only [List.mem_cons, List.mem_flatMap]
  grind

theorem Everywhere.mono {P Q : Node → Prop} {n : Node} (all : n.Everywhere P)
    (weaker : ∀ m, P m → Q m) : n.Everywhere Q := fun m member => weaker m (all m member)

-- How spans nest

/-- The `Next` that closes a loop and the variable that it names for the loop. -/
def closing? : Node → Option (NextStatement × Option Expression)
  | statement (.forBlock b) => b.ending.map fun next => (next, b.endingVariable)
  | statement (.forEachBlock b) => b.ending.map fun next => (next, b.endingVariable)
  | _ => none

/-- The child is the variable of a `Next` that closes the loop although it stands before it. -/
def ClosedBefore (n child : Node) : Prop :=
  ∃ next named, n.closing? = some (next, some named) ∧ child = expression named ∧
    next.span.start.index < n.span.start.index

/-- The node spans its children, except a variable that stands before it. -/
structure Nests (n : Node) : Prop where
  order : n.span.start.index ≤ n.span.finish.index
  encloses : ∀ c ∈ n.children, n.span.contains c.span = true ↔ ¬ n.ClosedBefore c

theorem contains_iff {a b : Span} :
    a.contains b = true ↔ a.start.index ≤ b.start.index ∧ b.finish.index ≤ a.finish.index := by
  simp only [Span.contains, Bool.and_eq_true, decide_eq_true_eq]
  rfl

theorem not_closedBefore {n child : Node} (noLoop : n.closing? = none) : ¬ n.ClosedBefore child := by
  rintro ⟨next, named, closes, -⟩
  simp [noLoop] at closes

-- What is missing

/-- The statement is complete and no terminator that has come loose from its block. -/
def wholeStatement : Statement → Bool
  | .exitBlock block _ | .continueBlock block _ => block.isSome
  | .onError .bad _ | .endBlock _ | .loop _ | .next _ | .elseIf _ | .elsePart _ | .case _
  | .caseElse _ | .catchPart _ | .finallyPart _ => false
  | _ => true

def wholeDeclaration : Declaration → Bool
  | .option kind _ _ => kind.isSome
  | .operator d => d.operator.isSome
  | .endBlock _ => false
  | _ => true

/-- Nothing is missing from the node itself. -/
def isWhole (n : Node) : Bool :=
  !n.isBad && match n with
    | statement s => wholeStatement s
    | declaration d => wholeDeclaration d
    | _ => true

/-- The variables of the `Next` that closes a loop, those for other loops among them. -/
def closingVariables (n : Node) : List Expression :=
  (n.closing?.map fun closing => closing.1.loopVariables.items).getD []

/-- Nothing is missing from the node or from the statement that closes it. -/
def IsComplete (n : Node) : Prop :=
  n.isWhole = true ∧
    ∀ v ∈ n.closingVariables, (expression v).Everywhere fun m => m.isWhole = true

-- Blocks without an end

/-- The kind of the block that a node is, and whether the end of the block was found. -/
def block? : Node → Option (BlockKind × Bool)
  | statement (.ifBlock b) => some (.ifBlock, b.ending.isSome)
  | statement (.doBlock b) => some (.doBlock, b.ending.isSome)
  | statement (.forBlock b) => some (.forBlock, b.ending.isSome)
  | statement (.forEachBlock b) => some (.forBlock, b.ending.isSome)
  | statement (.whileBlock b) => some (.whileBlock, b.ending.isSome)
  | statement (.objectBlock b) => some (b.kind.block, b.ending.isSome)
  | statement (.usingBlock b) => some (.usingBlock, b.ending.isSome)
  | statement (.tryBlock b) => some (.tryBlock, b.ending.isSome)
  | statement (.selectBlock b) => some (.selectBlock, b.ending.isSome)
  | declaration (.namespaceBlock d) => some (.namespaceBlock, d.ending.isSome)
  | declaration (.type d) => some (d.kind.block, d.ending.isSome)
  | declaration (.enum d) => some (.enumBlock, d.ending.isSome)
  | declaration (.method d) => d.body.map fun _ => (d.kind.block, d.ending.isSome)
  | declaration (.operator d) => some (.operatorBlock, d.ending.isSome)
  | declaration (.customEvent d) => some (.eventBlock, d.ending.isSome)
  | declaration (.property d) => d.accessors.map fun _ => (.propertyBlock, d.ending.isSome)
  | declaration (.accessor d) => some (d.kind.block, d.ending.isSome)
  | _ => none

/-- The node itself, if it is a block without an end: its kind and where it starts. -/
def unclosed (n : Node) : List (BlockKind × Nat) :=
  match n.block? with
  | some (kind, false) => [(kind, n.span.start.index)]
  | _ => []

/-- The child is the accessor that a property of a single accessor stands for.  Its keyword comes
before the name of the property, and it has no end of its own. -/
def implies : Node → Node → Bool
  | declaration (.property d), declaration (.accessor a) => a.span.start < d.name.span.start
  | _, _ => false

/-- The blocks without an end below a node. -/
def openBelow (n : Node) : List (BlockKind × Nat) :=
  n.children.attach.flatMap fun child =>
    (if n.implies child.1 then [] else child.1.unclosed) ++ openBelow child.1
termination_by sizeOf n
decreasing_by exact sizeOf_mem_children child.2

/-- The blocks of a tree that have no end. -/
def openBlocks (n : Node) : List (BlockKind × Nat) := n.unclosed ++ n.openBelow

theorem openBelow_eq (n : Node) :
    n.openBelow = n.children.flatMap fun child =>
      (if n.implies child then [] else child.unclosed) ++ child.openBelow := by
  rw [openBelow, List.flatMap_subtype (g := fun child =>
    (if n.implies child then [] else child.unclosed) ++ child.openBelow) (by simp),
    List.unattach_attach]

/-- A node that implies no accessor leaves the blocks of its children as they are. -/
theorem openBlocks_eq {n : Node} (plain : ∀ c ∈ n.children, n.implies c = false) :
    n.openBlocks = n.unclosed ++ n.children.flatMap openBlocks := by
  rw [openBlocks, openBelow_eq]
  congr 1
  refine List.flatMap_congr fun child member => ?_
  simp [plain child member, openBlocks]

/-- The node is part of a statement or declaration and holds none. -/
def isPhrase : Node → Bool
  | file _ | script _ | declaration _ | statement _ | ifPart _ | caseBlock _ | tryPart _ => false
  | _ => true

theorem span_ofName (n : Name) : (ofName n).span = n.span := by
  cases n <;> rfl

theorem isPhrase_ofName (n : Name) : (ofName n).isPhrase = true := by
  cases n <;> rfl

theorem isPhrase_ofInitializer (i : Initializer) : (ofInitializer i).isPhrase = true := by
  cases i <;> rfl

theorem all_map_isPhrase {α : Type} {f : α → Node} (phrase : ∀ a, (f a).isPhrase = true)
    (l : List α) : (l.map f).all isPhrase = true := by
  simp [List.all_map, Function.comp_def, phrase]

theorem all_ofOption_isPhrase {α : Type} {f : α → Node} (phrase : ∀ a, (f a).isPhrase = true)
    (o : Option α) : (ofOption f o).all isPhrase = true := by
  cases o <;> simp [ofOption, phrase]

theorem all_getD_isPhrase {α : Type} {f : α → List Node}
    (phrase : ∀ a, (f a).all isPhrase = true) (o : Option α) :
    ((o.map f).getD []).all isPhrase = true := by
  cases o with
  | none => rfl
  | some a => exact phrase a

theorem all_ofArguments_isPhrase (a : Option Arguments) : (ofArguments a).all isPhrase = true :=
  all_getD_isPhrase (fun _ => all_map_isPhrase (fun _ => rfl) _) a

theorem all_ofAttributes_isPhrase (blocks : List AttributeBlock) :
    (ofAttributes blocks).all isPhrase = true := by
  simp only [ofAttributes, List.all_flatMap, List.all_eq_true]
  exact fun block _ => List.all_eq_true.1 (all_map_isPhrase (fun _ => rfl) _)

theorem all_children_isPhrase {n : Node} (phrase : n.isPhrase = true) :
    n.children.all isPhrase = true := by
  have types := all_map_isPhrase (f := typeName) fun _ => rfl
  have expressions := all_ofOption_isPhrase (f := expression) fun _ => rfl
  have typeArguments (a : Option TypeArguments) : (ofTypeArguments a).all isPhrase = true :=
    all_getD_isPhrase (fun _ => types _) a
  have bounds (b : Option (ArrayBounds Expression)) : (ofBounds b).all isPhrase = true :=
    all_getD_isPhrase (fun _ => all_map_isPhrase (fun _ => rfl) _) b
  cases n with
  | file | script | declaration | statement | ifPart | caseBlock | tryPart =>
    simp [isPhrase] at phrase
  | expression e =>
    cases e
    all_goals simp only [children, childrenOfExpression, List.all_append, List.all_cons, List.all_nil,
      typeArguments, all_ofArguments_isPhrase, expressions]
    all_goals rfl
  | typeName t =>
    cases t
    all_goals simp only [children, childrenOfType, List.all_cons, List.all_nil, bounds, types,
      isPhrase_ofName]
    all_goals rfl
  | name n =>
    cases n
    all_goals simp only [children, childrenOfName, List.all_cons, List.all_nil, isPhrase_ofName]
    all_goals rfl
  | declarator d =>
    have clause (c : Option AsClause) :
        ((c.map fun c => typeName c.type :: ofArguments c.arguments).getD []).all isPhrase = true :=
      all_getD_isPhrase (fun c => by rw [List.all_cons, all_ofArguments_isPhrase]; rfl) c
    simp only [children, childrenOfDeclarator, List.all_append, clause,
      all_map_isPhrase (f := variableName) fun _ => rfl,
      all_ofOption_isPhrase (f := ofInitializer) isPhrase_ofInitializer]
    rfl
  | typeParameter p =>
    rw [children, List.all_cons, all_getD_isPhrase fun _ => all_map_isPhrase (fun _ => rfl) _]
    rfl
  | caseClause k => cases k <;> rfl
  | constraint k => cases k <;> rfl
  | _ =>
    simp only [children, List.all_append, List.all_cons, List.all_nil, bounds, isPhrase_ofName,
      all_ofAttributes_isPhrase, all_ofArguments_isPhrase, expressions,
      all_ofOption_isPhrase (f := simpleName) fun _ => rfl,
      all_ofOption_isPhrase (f := typeName) fun _ => rfl,
      all_map_isPhrase (f := ofInitializer) isPhrase_ofInitializer]
    all_goals rfl

theorem isPhrase_eq_false_of_child {n c : Node} (member : c ∈ n.children)
    (isItem : c.isPhrase = false) : n.isPhrase = false := by
  refine Bool.eq_false_iff.2 fun phrase => ?_
  rw [List.all_eq_true.1 (all_children_isPhrase phrase) c member] at isItem
  cases isItem

theorem everywhere_isPhrase {n : Node} (phrase : n.isPhrase = true) :
    n.Everywhere fun m => m.isPhrase = true := by
  fun_induction openBelow n with
  | case1 n ih =>
    have phrases := List.all_eq_true.1 (all_children_isPhrase phrase)
    exact everywhere_iff.2 ⟨phrase, fun c member => ih ⟨c, member⟩ (phrases c member)⟩

/-- Only a loop is closed by a `Next`. -/
theorem closing?_of_isPhrase {n : Node} (phrase : n.isPhrase = true) : n.closing? = none := by
  cases n with
  | statement => simp [isPhrase] at phrase
  | _ => rfl

theorem unclosed_of_isPhrase {n : Node} (phrase : n.isPhrase = true) : n.unclosed = [] := by
  cases n with
  | file | script | declaration | statement | ifPart | caseBlock | tryPart =>
    simp [isPhrase] at phrase
  | _ => rfl

/-- There are no blocks in a phrase. -/
theorem openBlocks_of_isPhrase {n : Node} (phrase : n.isPhrase = true) : n.openBlocks = [] := by
  rw [openBlocks, unclosed_of_isPhrase phrase, List.nil_append]
  fun_induction openBelow n with
  | case1 n ih =>
    have phrases := List.all_eq_true.1 (all_children_isPhrase phrase)
    refine List.flatMap_eq_nil_iff.2 fun child _ => ?_
    rw [ih child (phrases child.1 child.2), unclosed_of_isPhrase (phrases child.1 child.2)]
    simp

/-- An accessor that is implied by its property passes on the blocks within it. -/
theorem openBlocks_of_implied {n a : Node} {parts : List Node} (children : n.children = parts ++ [a])
    (phrases : parts.all isPhrase = true) (implied : n.implies a = true)
    (plain : ∀ c ∈ a.children, a.implies c = false) :
    n.openBlocks = n.unclosed ++ a.children.flatMap openBlocks := by
  have below : a.openBelow = a.children.flatMap openBlocks := by
    rw [openBelow_eq]
    refine List.flatMap_congr fun child member => ?_
    simp [plain child member, openBlocks]
  have none : (parts.flatMap fun child =>
      (if n.implies child then [] else child.unclosed) ++ child.openBelow) = [] := by
    refine List.flatMap_eq_nil_iff.2 fun child member => ?_
    have phrase := List.all_eq_true.1 phrases child member
    obtain ⟨own, below⟩ := List.append_eq_nil_iff.1 (openBlocks_of_isPhrase phrase)
    simp [own, below]
  rw [openBlocks, openBelow_eq, children, List.flatMap_append, none, List.flatMap_singleton,
    if_pos implied, below]
  rfl

/-- The blocks right below the node have their ends, an accessor that the node implies apart. -/
def EndsBlocks (n : Node) : Prop :=
  ∀ c ∈ n.children, n.implies c = false → ∀ kind ended, c.block? = some (kind, ended) → ended = true

theorem ended_of_unclosed_eq_nil {n : Node} (closed : n.unclosed = []) {kind : BlockKind}
    {ended : Bool} (block : n.block? = some (kind, ended)) : ended = true := by
  cases ended with
  | true => rfl
  | false => simp [unclosed, block] at closed

theorem endsBlocks_of_openBelow_eq_nil {n : Node} (closed : n.openBelow = []) :
    n.Everywhere EndsBlocks := by
  fun_induction openBelow n with
  | case1 n ih =>
    have each (c : Node) (member : c ∈ n.children) :
        (if n.implies c then [] else c.unclosed) = [] ∧ c.openBelow = [] :=
      List.append_eq_nil_iff.1 (List.flatMap_eq_nil_iff.1 closed ⟨c, member⟩ (List.mem_attach _ _))
    refine everywhere_iff.2 ⟨fun c member explicit kind ended block => ?_, fun c member => ?_⟩
    · have own := (each c member).1
      rw [explicit] at own
      exact ended_of_unclosed_eq_nil own block
    · exact ih ⟨c, member⟩ (each c member).2

-- How children are listed

/-- The child is not listed where it stands: an accessor that a property implies starts before the
name of the property, and the variable of a `Next` may close a loop that starts behind it. -/
def Displaced (n child : Node) : Prop := n.implies child = true ∨ n.ClosedBefore child

/-- A child starts no earlier than those listed before it, just when it is not displaced. -/
def InOrder (n : Node) : Prop :=
  ∀ before c after, n.children = before ++ c :: after →
    ((∀ a ∈ before, a.span.start.index ≤ c.span.start.index) ↔ ¬ n.Displaced c)

/-- The nodes start one after the other. -/
def Ascending (ns : List Node) : Prop :=
  ns.Pairwise fun a b => a.span.start.index ≤ b.span.start.index

instance (ns : List Node) : Decidable (Ascending ns) := inferInstanceAs (Decidable (List.Pairwise ..))

/-- Each of the nodes ends before the next one starts. -/
def Successive (ns : List Node) : Prop :=
  ns.Pairwise fun a b => a.span.finish.index ≤ b.span.start.index

/-- The nodes do not overlap, nor do the children of any node below them. -/
structure NoOverlap (ns : List Node) : Prop where
  own : Successive ns
  below : ∀ n ∈ ns, n.Everywhere fun m => Successive m.children

namespace NoOverlap

variable {ns ms : List Node} {n : Node}

theorem nil : NoOverlap [] := ⟨.nil, by simp⟩

theorem append (first : NoOverlap ns) (second : NoOverlap ms)
    (between : ∀ a ∈ ns, ∀ b ∈ ms, a.span.finish.index ≤ b.span.start.index) :
    NoOverlap (ns ++ ms) :=
  ⟨List.pairwise_append.2 ⟨first.own, second.own, between⟩, fun n member =>
    (List.mem_append.1 member).elim (first.below n) (second.below n)⟩

/-- A node whose children do not overlap. -/
theorem around (clear : NoOverlap n.children) : NoOverlap [n] :=
  ⟨List.pairwise_singleton _ _, fun _ member => by
    rw [List.mem_singleton.1 member]
    exact everywhere_iff.2 ⟨clear.own, clear.below⟩⟩

theorem children (clear : NoOverlap [n]) : NoOverlap n.children :=
  have below := everywhere_iff.1 (clear.below n (List.mem_singleton.2 rfl))
  ⟨below.1, below.2⟩

theorem of_mem (clear : NoOverlap ns) (member : n ∈ ns) : NoOverlap [n] :=
  ⟨List.pairwise_singleton _ _, fun _ single =>
    List.mem_singleton.1 single ▸ clear.below n member⟩

end NoOverlap

/-- The children lie within the node, one behind the other. -/
structure IsTight (n : Node) : Prop where
  order : n.span.start.index ≤ n.span.finish.index
  encloses : ∀ c ∈ n.children, n.span.contains c.span = true
  successive : Successive n.children

/-- In a phrase, spans that nest and do not overlap are tight. -/
theorem isTight_of_isPhrase {n : Node} (phrase : n.isPhrase = true) (nests : n.Everywhere Nests)
    (clear : n.Everywhere fun m => Successive m.children) : n.Everywhere IsTight := by
  intro m member
  have plain := closing?_of_isPhrase (everywhere_isPhrase phrase m member)
  exact ⟨(nests m member).order, fun c child =>
    ((nests m member).encloses c child).2 (not_closedBefore plain), clear m member⟩

theorem inOrder_of_ascending {n : Node} (ascending : Ascending n.children)
    (placed : ∀ c ∈ n.children, ¬ n.Displaced c) : n.InOrder := by
  intro before c after split
  refine iff_of_true (fun a early => ?_) (placed c (split ▸ by simp))
  rw [Ascending, split, List.pairwise_append] at ascending
  exact ascending.2.2 a early c List.mem_cons_self

/-- Only the last child may be displaced. -/
theorem inOrder_of_last {n last : Node} {ns : List Node} (children : n.children = ns ++ [last])
    (ascending : Ascending ns) (placed : ∀ c ∈ ns, ¬ n.Displaced c)
    (final : (∀ a ∈ ns, a.span.start.index ≤ last.span.start.index) ↔ ¬ n.Displaced last) :
    n.InOrder := by
  intro before c after split
  rw [children] at split
  rcases List.eq_nil_or_concat after with rfl | ⟨others, other, rfl⟩
  · obtain ⟨rfl, rfl⟩ : ns = before ∧ last = c := by simpa using List.append_inj' split rfl
    exact final
  · have same : ns ++ [last] = (before ++ c :: others) ++ [other] := by simpa using split
    obtain ⟨split, -⟩ := List.append_inj' same rfl
    refine iff_of_true (fun a early => ?_) (placed c (split ▸ by simp))
    rw [Ascending, split, List.pairwise_append] at ascending
    exact ascending.2.2 a early c List.mem_cons_self

theorem not_displaced {n c : Node} (noLoop : n.closing? = none) (explicit : n.implies c = false) :
    ¬ n.Displaced c := by
  rw [Displaced, explicit]
  exact not_or.2 ⟨Bool.false_ne_true, not_closedBefore noLoop⟩

end Node

end VisualBasic
