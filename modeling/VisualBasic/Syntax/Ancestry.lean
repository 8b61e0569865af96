import VisualBasic.Syntax.Walk

/-!
Visiting the nodes of a tree with a stack, and what each of them hangs from.  Nodes that look alike
are told apart by where they stand.
-/

set_option autoImplicit false

namespace VisualBasic

/-- A node and the way to it from the root: which child to take at each step, the last step first. -/
structure NodeRef where
  way : List Nat
  node : Node

namespace NodeRef

def root (n : Node) : NodeRef := ⟨[], n⟩

def children (p : NodeRef) : List NodeRef :=
  p.node.children.mapIdx fun i child => ⟨i :: p.way, child⟩

theorem mem_children {p c : NodeRef} :
    c ∈ p.children ↔
      ∃ i, ∃ within : i < p.node.children.length, ⟨i :: p.way, p.node.children[i]⟩ = c :=
  List.mem_mapIdx

theorem map_node_children (p : NodeRef) : p.children.map node = p.node.children := by
  apply List.ext_getElem <;> simp [children]

/-- A child is one step further from the root. -/
theorem length_way_of_mem {p c : NodeRef} (member : c ∈ p.children) :
    p.way.length < c.way.length := by
  obtain ⟨i, within, rfl⟩ := mem_children.1 member
  simp

theorem length_nodes (p : NodeRef) :
    p.node.nodes.length = (p.children.flatMap fun c => c.node.nodes).length + 1 := by
  rw [Node.nodes_eq, ← map_node_children, List.flatMap_map]
  rfl

end NodeRef

/-- Puts items on a stack, so that the last of them is on top. -/
def pushAll {α : Type} (items stack : List α) : List α :=
  items.foldl (fun stack item => item :: stack) stack

theorem pushAll_eq {α : Type} (items stack : List α) :
    pushAll items stack = items.reverse ++ stack := by
  simp [pushAll]

/-- Visits the nodes on a stack, the one on top first, and all nodes below them.  The visitor goes on
from what its visits have left so far. -/
def visitAll {σ : Type} (visitor : NodeRef → Nat → σ → σ) : List (NodeRef × Nat) → σ → σ
  | [], state => state
  | (p, depth) :: stack, state =>
    visitAll visitor (pushAll (p.children.map fun child => (child, depth + 1)).reverse stack)
      (visitor p depth state)
termination_by stack => (stack.flatMap fun entry => entry.1.node.nodes).length
decreasing_by
  have fewer := p.length_nodes
  simp only [pushAll_eq, List.reverse_reverse, List.flatMap_append, List.flatMap_map,
    List.flatMap_cons, List.length_append]
  omega

namespace Node

/-- Visits a node and all nodes below it, with their depths. -/
def visit {σ : Type} (n : Node) (visitor : NodeRef → Nat → σ → σ) (state : σ) : σ :=
  visitAll visitor [(.root n, 0)] state

/-- The visits in the order in which they are made. -/
def visits (n : Node) : List (NodeRef × Nat) :=
  (n.visit (fun p depth visits => (p, depth) :: visits) []).reverse

end Node

/-- What nodes hang from.  The entries lead upwards. -/
structure ParentMap where
  entries : List (List Nat × NodeRef)
  upward : ∀ entry ∈ entries, entry.2.way.length < entry.1.length

namespace ParentMap

def empty : ParentMap := ⟨[], by simp⟩

/-- Adds an entry, in the place of the one with the same key. -/
def insert (m : ParentMap) (child parent : NodeRef) (up : parent.way.length < child.way.length) :
    ParentMap where
  entries := (child.way, parent) :: m.entries.filter fun entry => entry.1 != child.way
  upward := List.forall_mem_cons.2
    ⟨up, fun entry member => m.upward entry (List.mem_filter.1 member).1⟩

/-- Notes what a child hangs from and puts it on a stack. -/
def addChild (p : NodeRef) (state : ParentMap × List NodeRef) (child : { c // c ∈ p.children }) :
    ParentMap × List NodeRef :=
  (state.1.insert child.1 p (NodeRef.length_way_of_mem child.2), child.1 :: state.2)

def addChildren (p : NodeRef) (m : ParentMap) (stack : List NodeRef) : ParentMap × List NodeRef :=
  p.children.attach.foldl (addChild p) (m, stack)

theorem foldl_addChild_snd (p : NodeRef) (children : List { c // c ∈ p.children })
    (state : ParentMap × List NodeRef) :
    (children.foldl (addChild p) state).2 = children.unattach.reverse ++ state.2 := by
  induction children generalizing state with
  | nil => rfl
  | cons child rest ih => simp [ih, addChild]

theorem addChildren_snd (p : NodeRef) (m : ParentMap) (stack : List NodeRef) :
    (addChildren p m stack).2 = p.children.reverse ++ stack := by
  rw [addChildren, foldl_addChild_snd, List.unattach_attach]

/-- Notes the parents of all that is below the nodes on a stack. -/
def fill (m : ParentMap) : List NodeRef → ParentMap
  | [] => m
  | p :: stack => fill (addChildren p m stack).1 (addChildren p m stack).2
termination_by stack => (stack.flatMap fun p => p.node.nodes).length
decreasing_by
  have fewer := p.length_nodes
  have turned := ((List.reverse_perm p.children).flatMap_right fun c => c.node.nodes).length_eq
  simp only [addChildren_snd, List.flatMap_append, List.flatMap_cons, List.length_append]
  omega

def build (root : Node) : ParentMap := fill empty [.root root]

def parent (m : ParentMap) (p : NodeRef) : Option NodeRef := m.entries.lookup p.way

theorem length_way_of_parent {m : ParentMap} {p q : NodeRef} (found : m.parent p = some q) :
    q.way.length < p.way.length := by
  obtain ⟨before, after, split, -⟩ := List.lookup_eq_some_iff.1 found
  exact m.upward (p.way, q) (by simp [split])

/-- What a node hangs from, what that hangs from, and so on. -/
def ancestors (m : ParentMap) (p : NodeRef) : List NodeRef :=
  match _found : m.parent p with
  | none => []
  | some q => q :: ancestors m q
termination_by p.way.length
decreasing_by exact length_way_of_parent _found

def size (m : ParentMap) : Nat := m.entries.length

def isEmpty (m : ParentMap) : Bool := m.entries.isEmpty

end ParentMap

end VisualBasic
