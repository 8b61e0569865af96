import Mathlib.Data.List.Nodup
import VisualBasic.Proofs.Syntax.Nodes
import VisualBasic.Syntax.Ancestry

/-!
The walk over a tree and the map of what its nodes hang from.  Both work on a stack; what they do is
said of the stack as a whole and by recursion over the tree.
-/

set_option autoImplicit false

namespace VisualBasic

namespace NodeRef

theorem sizeOf_of_mem_children {p c : NodeRef} (member : c ∈ p.children) :
    sizeOf c.node < sizeOf p.node :=
  Node.sizeOf_mem_children (map_node_children p ▸ List.mem_map_of_mem member)

/-- All nodes from a node down with their depths: the node, then for each of its children in order
all nodes from there down. -/
def preorder (p : NodeRef) (depth : Nat) : List (NodeRef × Nat) :=
  (p, depth) :: p.children.attach.flatMap fun child => preorder child.1 (depth + 1)
termination_by sizeOf p.node
decreasing_by exact sizeOf_of_mem_children child.2

theorem preorder_eq (p : NodeRef) (depth : Nat) :
    p.preorder depth = (p, depth) :: p.children.flatMap fun c => c.preorder (depth + 1) := by
  rw [preorder, List.flatMap_subtype (g := fun c => preorder c (depth + 1)) (by simp),
    List.unattach_attach]

/-- All nodes from a node down. -/
def nodes (p : NodeRef) : List NodeRef := (p.preorder 0).map Prod.fst

theorem map_fst_preorder (p : NodeRef) (depth : Nat) : (p.preorder depth).map Prod.fst = p.nodes := by
  unfold nodes
  generalize 0 = other
  induction p, depth using preorder.induct generalizing other with
  | case1 p depth ih =>
    rw [preorder_eq, preorder_eq p other]
    simp only [List.map_cons, List.map_flatMap]
    congr 1
    exact List.flatMap_congr fun c member => ih ⟨c, member⟩ (other + 1)

theorem nodes_eq (p : NodeRef) : p.nodes = p :: p.children.flatMap nodes := by
  rw [nodes, preorder_eq]
  simp only [List.map_cons, List.map_flatMap, map_fst_preorder]

theorem map_preorder (p : NodeRef) (depth : Nat) :
    (p.preorder depth).map (fun entry => (entry.1.node, entry.2)) = p.node.walk depth := by
  induction p, depth using preorder.induct with
  | case1 p depth ih =>
    rw [preorder_eq, Node.walk, List.flatMap_subtype (g := fun c => Node.walk c (depth + 1)) (by simp),
      List.unattach_attach, ← map_node_children, List.flatMap_map, List.map_cons, List.map_flatMap]
    congr 1
    exact List.flatMap_congr fun c member => ih ⟨c, member⟩

end NodeRef

-- The visits

theorem visitAll_eq_foldl {σ : Type} (visitor : NodeRef → Nat → σ → σ)
    (stack : List (NodeRef × Nat)) (state : σ) :
    visitAll visitor stack state = (stack.flatMap fun entry => entry.1.preorder entry.2).foldl
      (fun state entry => visitor entry.1 entry.2 state) state := by
  fun_induction visitAll visitor stack state with
  | case1 => rfl
  | case2 p depth stack state ih =>
    rw [ih, pushAll_eq, List.reverse_reverse, List.flatMap_append, List.flatMap_map,
      List.flatMap_cons, NodeRef.preorder_eq p depth]
    rfl

/-- A visitor is called on the nodes one after the other. -/
theorem Node.visit_eq_foldl {σ : Type} (n : Node) (visitor : NodeRef → Nat → σ → σ) (state : σ) :
    n.visit visitor state = ((NodeRef.root n).preorder 0).foldl
      (fun state entry => visitor entry.1 entry.2 state) state := by
  rw [visit, visitAll_eq_foldl, List.flatMap_singleton]

theorem Node.visits_eq (n : Node) : n.visits = (NodeRef.root n).preorder 0 := by
  simp [visits, visit_eq_foldl]

/-- Without the places of the nodes, the visits are the walk over the tree. -/
theorem Node.map_visits (n : Node) :
    n.visits.map (fun entry => (entry.1.node, entry.2)) = n.walk 0 := by
  rw [visits_eq, NodeRef.map_preorder]
  rfl

-- Where the nodes stand

/-- The node at the end of a way that begins at the root. -/
def Node.follow? (root : Node) : List Nat → Option Node
  | [] => some root
  | i :: way => (root.follow? way).bind fun n => n.children[i]?

namespace NodeRef

/-- The node stands in the tree, at the end of its way. -/
def Within (root : Node) (p : NodeRef) : Prop := root.follow? p.way = some p.node

variable {root : Node} {p q c : NodeRef} {d : Nat}

theorem root_within (n : Node) : (NodeRef.root n).Within n := rfl

theorem Within.child (within : p.Within root) (member : c ∈ p.children) : c.Within root := by
  obtain ⟨i, inside, rfl⟩ := mem_children.1 member
  rw [Within] at within ⊢
  simp [Node.follow?, within]

/-- A node in the tree is the root or hangs from a node in the tree. -/
theorem Within.root_or_child (within : c.Within root) :
    c = .root root ∨ ∃ p : NodeRef, p.Within root ∧ c ∈ p.children := by
  obtain ⟨way, node⟩ := c
  cases way with
  | nil =>
    left
    simp only [Within, Node.follow?, Option.some.injEq] at within
    rw [← within]
    rfl
  | cons i way =>
    right
    rw [Within, Node.follow?, Option.bind_eq_some_iff] at within
    obtain ⟨parent, within, child⟩ := within
    obtain ⟨inside, rfl⟩ := List.getElem?_eq_some_iff.1 child
    exact ⟨⟨way, parent⟩, within, mem_children.2 ⟨i, inside, rfl⟩⟩

/-- What is below a node of the tree is in the tree. -/
theorem within_of_mem_preorder {e : NodeRef × Nat} (within : p.Within root)
    (member : e ∈ p.preorder d) : e.1.Within root := by
  induction p, d using preorder.induct with
  | case1 p d ih =>
    rw [preorder_eq] at member
    rcases List.mem_cons.1 member with rfl | below
    · exact within
    · obtain ⟨c, child, inside⟩ := List.mem_flatMap.1 below
      exact ih ⟨c, child⟩ (within.child child) inside

/-- What a node stands for is given by where it stands. -/
theorem Within.eq (first : p.Within root) (second : q.Within root) (same : p.way = q.way) :
    p = q := by
  rw [Within] at first second
  rw [same, second] at first
  cases p
  cases q
  cases same
  cases first
  rfl

theorem suffix_of_mem_children (member : c ∈ p.children) : p.way <:+ c.way := by
  obtain ⟨i, inside, rfl⟩ := mem_children.1 member
  exact List.suffix_cons i p.way

theorem length_of_mem_children (member : c ∈ p.children) : c.way.length = p.way.length + 1 := by
  obtain ⟨i, inside, rfl⟩ := mem_children.1 member
  rfl

theorem nodup_children (p : NodeRef) : (p.children.map way).Nodup := by
  rw [children, List.nodup_iff_getElem?_ne_getElem?]
  intro i j before inside
  rw [List.length_map, List.length_mapIdx] at inside
  have ways (k : Nat) (inside : k < p.node.children.length) :
      ((p.node.children.mapIdx fun i child => (⟨i :: p.way, child⟩ : NodeRef)).map way)[k]?
        = some (k :: p.way) := by
    simp [inside]
  rw [ways i (by omega), ways j inside]
  simp only [ne_eq, Option.some.injEq, List.cons.injEq, and_true]
  omega

/-- The nodes below a node stand behind it. -/
theorem suffix_of_mem_preorder {e : NodeRef × Nat} (member : e ∈ p.preorder d) :
    p.way <:+ e.1.way := by
  induction p, d using preorder.induct with
  | case1 p d ih =>
    rw [preorder_eq] at member
    rcases List.mem_cons.1 member with rfl | below
    · exact List.suffix_refl _
    · obtain ⟨c, child, inside⟩ := List.mem_flatMap.1 below
      exact (suffix_of_mem_children child).trans (ih ⟨c, child⟩ inside)

/-- The depth of a node is the length of the way to it. -/
theorem depth_of_mem_preorder {e : NodeRef × Nat} (member : e ∈ p.preorder d) :
    e.2 + p.way.length = e.1.way.length + d := by
  induction p, d using preorder.induct with
  | case1 p d ih =>
    rw [preorder_eq] at member
    rcases List.mem_cons.1 member with rfl | below
    · exact Nat.add_comm _ _
    · obtain ⟨c, child, inside⟩ := List.mem_flatMap.1 below
      have deeper : e.2 + c.way.length = e.1.way.length + (d + 1) := ih ⟨c, child⟩ inside
      have := length_of_mem_children child
      omega

/-- No two nodes of a tree stand at the same place. -/
theorem nodup_preorder (p : NodeRef) (d : Nat) :
    ((p.preorder d).map fun entry => entry.1.way).Nodup := by
  induction p, d using preorder.induct with
  | case1 p d ih =>
    rw [preorder_eq, List.map_cons, List.map_flatMap, List.nodup_cons, List.nodup_flatMap]
    refine ⟨fun above => ?_, fun c member => ih ⟨c, member⟩, ?_⟩
    · obtain ⟨c, child, inside⟩ := List.mem_flatMap.1 above
      obtain ⟨e, member, same⟩ := List.mem_map.1 inside
      have longer := (suffix_of_mem_preorder member).length_le
      rw [same, length_of_mem_children child] at longer
      exact absurd longer (Nat.not_succ_le_self _)
    · -- two children stand at different places of equal length, so nothing stands behind both
      refine (List.pairwise_map.1 p.nodup_children).imp_of_mem fun first second apart => ?_
      refine List.disjoint_left.2 fun way behindFirst behindSecond => ?_
      obtain ⟨e, member, rfl⟩ := List.mem_map.1 behindFirst
      obtain ⟨e', member', same⟩ := List.mem_map.1 behindSecond
      have one := suffix_of_mem_preorder member
      have other := suffix_of_mem_preorder member'
      rw [same] at other
      have equal := (length_of_mem_children first).trans (length_of_mem_children second).symm
      exact apart ((List.suffix_of_suffix_length_le one other (Nat.le_of_eq equal)).eq_of_length equal)

/-- Below a node of the walk its children follow, one level deeper. -/
theorem child_mem_preorder {q : NodeRef} {k : Nat} (member : (q, k) ∈ p.preorder d)
    (child : c ∈ q.children) : (c, k + 1) ∈ p.preorder d := by
  induction p, d using preorder.induct with
  | case1 p d ih =>
    rw [preorder_eq] at member ⊢
    refine List.mem_cons_of_mem _ (List.mem_flatMap.2 ?_)
    rcases List.mem_cons.1 member with own | below
    · obtain ⟨rfl, rfl⟩ := Prod.mk.inj own
      exact ⟨c, child, by rw [preorder_eq]; exact List.mem_cons_self⟩
    · obtain ⟨b, next, inside⟩ := List.mem_flatMap.1 below
      exact ⟨b, next, ih ⟨b, next⟩ inside⟩

/-- The walk reaches just the nodes of the tree. -/
theorem within_iff_mem_preorder :
    p.Within root ↔ (p, p.way.length) ∈ (NodeRef.root root).preorder 0 := by
  refine ⟨fun within => ?_, fun member => within_of_mem_preorder (root_within root) member⟩
  induction way : p.way generalizing p with
  | nil =>
    rw [within.eq (root_within root) way, preorder_eq]
    exact List.mem_cons_self
  | cons i above ih =>
    rcases within.root_or_child with rfl | ⟨q, parent, child⟩
    · simp [NodeRef.root] at way
    · obtain ⟨j, inside, rfl⟩ := mem_children.1 child
      obtain ⟨rfl, rfl⟩ := List.cons.inj way
      exact child_mem_preorder (ih parent rfl) child

theorem mem_nodes_iff : p ∈ (NodeRef.root root).nodes ↔ p.Within root := by
  refine ⟨fun member => ?_, fun within => ?_⟩
  · obtain ⟨e, inside, rfl⟩ := List.mem_map.1 member
    exact within_of_mem_preorder (root_within root) inside
  · exact List.mem_map.2 ⟨_, within_iff_mem_preorder.1 within, rfl⟩

theorem nodup_nodes (root : Node) : ((NodeRef.root root).nodes.map way).Nodup := by
  rw [nodes, List.map_map]
  exact nodup_preorder _ 0

/-- A place is that of a child of one node only. -/
theorem eq_of_child {b : NodeRef} (first : p.Within root) (second : q.Within root)
    (child : c ∈ p.children) (other : b ∈ q.children) (same : c.way = b.way) : p = q := by
  obtain ⟨i, inside, rfl⟩ := mem_children.1 child
  obtain ⟨j, within, rfl⟩ := mem_children.1 other
  exact first.eq second (List.cons.inj same).2

end NodeRef

-- What nodes hang from

namespace ParentMap

variable {root : Node} {m : ParentMap} {p q c : NodeRef} {stack : List NodeRef} {key : List Nat}

/-- The nodes that have an entry. -/
def keys (m : ParentMap) : List (List Nat) := m.entries.map Prod.fst

/-- Each entry leads from a node of the tree to what it hangs from, and no node has two. -/
structure Sound (root : Node) (m : ParentMap) : Prop where
  hangs : ∀ key p, (key, p) ∈ m.entries → p.Within root ∧ ∃ c ∈ p.children, c.way = key
  distinct : m.keys.Nodup

theorem sound_empty : Sound root empty := ⟨by simp [empty], .nil⟩

theorem mem_keys_insert {up : p.way.length < c.way.length} :
    key ∈ (m.insert c p up).keys ↔ key = c.way ∨ key ∈ m.keys := by
  by_cases same : key = c.way <;> simp [keys, insert, same]

theorem Sound.insert (sound : m.Sound root) (within : p.Within root) (child : c ∈ p.children)
    (up : p.way.length < c.way.length) : (m.insert c p up).Sound root where
  hangs key q member := by
    rcases List.mem_cons.1 member with own | old
    · obtain ⟨rfl, rfl⟩ := Prod.mk.inj own
      exact ⟨within, c, child, rfl⟩
    · exact sound.hangs key q (List.mem_filter.1 old).1
  distinct := by
    refine List.nodup_cons.2 ⟨by simp, ?_⟩
    exact sound.distinct.sublist (List.filter_sublist.map _)

theorem sound_foldl_addChild (children : List { c // c ∈ p.children })
    (state : ParentMap × List NodeRef) (sound : state.1.Sound root) (within : p.Within root) :
    (children.foldl (addChild p) state).1.Sound root ∧
      ∀ key, key ∈ (children.foldl (addChild p) state).1.keys ↔
        key ∈ state.1.keys ∨ ∃ c ∈ children.unattach, c.way = key := by
  induction children generalizing state with
  | nil => exact ⟨sound, by simp⟩
  | cons child rest ih =>
    have noted : (addChild p state child).1.Sound root :=
      sound.insert within child.2 (NodeRef.length_way_of_mem child.2)
    obtain ⟨filled, keys⟩ := ih _ noted
    refine ⟨filled, fun key => (keys key).trans ?_⟩
    rw [addChild, mem_keys_insert]
    simp only [List.unattach_cons, List.mem_cons, exists_eq_or_imp, eq_comm (a := key)]
    tauto

theorem sound_addChildren (stack : List NodeRef) (sound : m.Sound root) (within : p.Within root) :
    (addChildren p m stack).1.Sound root ∧
      ∀ key, key ∈ (addChildren p m stack).1.keys ↔
        key ∈ m.keys ∨ ∃ c ∈ p.children, c.way = key := by
  have facts := sound_foldl_addChild p.children.attach (m, stack) sound within
  rwa [List.unattach_attach] at facts

/-- Filling keeps the map sound and adds an entry for all that is below the nodes on the stack. -/
theorem sound_fill (sound : m.Sound root) (within : ∀ p ∈ stack, p.Within root) :
    (m.fill stack).Sound root ∧
      ∀ key, key ∈ (m.fill stack).keys ↔ key ∈ m.keys ∨
        ∃ p ∈ stack, ∃ q ∈ p.nodes, ∃ c ∈ q.children, c.way = key := by
  fun_induction fill m stack with
  | case1 m => exact ⟨sound, by simp⟩
  | case2 m p stack ih =>
    rw [List.forall_mem_cons] at within
    obtain ⟨noted, added⟩ := sound_addChildren stack sound within.1
    rw [addChildren_snd] at ih ⊢
    obtain ⟨filled, keys⟩ := ih noted fun c member => (List.mem_append.1 member).elim
      (fun child => within.1.child (List.mem_reverse.1 child)) (within.2 c)
    refine ⟨filled, fun key => (keys key).trans ?_⟩
    rw [added]
    simp only [NodeRef.nodes_eq p, List.mem_append, List.mem_reverse, List.mem_cons,
      List.mem_flatMap, exists_eq_or_imp]
    grind

theorem sound_build (root : Node) :
    (build root).Sound root ∧ ∀ key, key ∈ (build root).keys ↔
      ∃ p : NodeRef, p.Within root ∧ ∃ c ∈ p.children, c.way = key := by
  have within : ∀ p ∈ [NodeRef.root root], p.Within root :=
    List.forall_mem_singleton.2 (NodeRef.root_within root)
  obtain ⟨sound, noted⟩ := sound_fill sound_empty within
  refine ⟨sound, fun key => (noted key).trans ?_⟩
  simp [keys, empty, NodeRef.mem_nodes_iff]

theorem mem_entries_of_parent {m : ParentMap} (found : m.parent c = some p) :
    (c.way, p) ∈ m.entries := by
  obtain ⟨before, after, split, -⟩ := List.lookup_eq_some_iff.1 found
  simp [split]

theorem isSome_parent_iff : (m.parent c).isSome = true ↔ c.way ∈ m.keys := by
  rw [parent, List.lookup_isSome_iff, keys, List.mem_map]
  simp only [beq_iff_eq, eq_comm (a := c.way)]

/-- Just the nodes of the tree that are children have a parent: the node with that child. -/
theorem parent_build_iff :
    (build root).parent c = some p ↔ p.Within root ∧ ∃ own ∈ p.children, own.way = c.way := by
  constructor
  next =>
    intro found
    exact (sound_build root).1.hangs c.way p (mem_entries_of_parent found)
  next =>
    rintro ⟨within, own, child, same⟩
    have noted := ((sound_build root).2 c.way).2 ⟨p, within, own, child, same⟩
    obtain ⟨q, found⟩ := Option.isSome_iff_exists.1 (isSome_parent_iff.2 noted)
    obtain ⟨other, own', child', same'⟩ :=
      (sound_build root).1.hangs c.way q (mem_entries_of_parent found)
    rw [found, NodeRef.eq_of_child within other child child' (same.trans same'.symm)]

theorem parent_root : (build root).parent (.root root) = none := by
  refine Option.eq_none_iff_forall_ne_some.2 fun p found => ?_
  have := length_way_of_parent found
  simp [NodeRef.root] at this

/-- In a tree each node but the root hangs from the node that lists it. -/
theorem parent_of_within (within : c.Within root) :
    (build root).parent c = some p ↔ p.Within root ∧ c ∈ p.children := by
  rw [parent_build_iff]
  refine and_congr_right fun above => ⟨?_, fun child => ⟨c, child, rfl⟩⟩
  rintro ⟨own, child, same⟩
  rwa [← (above.child child).eq within same]

/-- All nodes but the root have a parent. -/
theorem size_build (root : Node) : (build root).size + 1 = (NodeRef.root root).nodes.length := by
  obtain ⟨sound, keys⟩ := sound_build root
  have ways : ((NodeRef.root root).way :: (build root).keys).Perm
      ((NodeRef.root root).nodes.map NodeRef.way) := by
    refine (List.perm_ext_iff_of_nodup (List.nodup_cons.2 ⟨fun top => ?_, sound.distinct⟩)
      (NodeRef.nodup_nodes root)).2 fun way => ?_
    · have := isSome_parent_iff.2 top
      rw [parent_root] at this
      cases this
    · simp only [List.mem_cons, keys, List.mem_map, NodeRef.mem_nodes_iff]
      constructor
      next =>
        rintro (rfl | ⟨p, within, c, child, rfl⟩)
        · exact ⟨_, NodeRef.root_within root, rfl⟩
        · exact ⟨c, within.child child, rfl⟩
      next =>
        rintro ⟨c, within, rfl⟩
        rcases within.root_or_child with rfl | ⟨p, above, child⟩
        · exact .inl rfl
        · exact .inr ⟨p, above, c, child, rfl⟩
  have lengths := ways.length_eq
  simpa [ParentMap.keys, size] using lengths

/-- As many nodes are above a node as steps lead to it, and the last of them is the root. -/
theorem ancestors_of_within (within : p.Within root) :
    ((build root).ancestors p).length = p.way.length ∧
      (p :: (build root).ancestors p).getLast? = some (.root root) := by
  fun_induction ancestors (build root) p with
  | case1 p none =>
    rcases within.root_or_child with rfl | ⟨q, above, child⟩
    · exact ⟨rfl, rfl⟩
    · rw [(parent_of_within within).2 ⟨above, child⟩] at none
      cases none
  | case2 p q found ih =>
    obtain ⟨above, child⟩ := (parent_of_within within).1 found
    obtain ⟨length, last⟩ := ih above
    refine ⟨?_, last⟩
    rw [List.length_cons, length, NodeRef.length_of_mem_children child]

end ParentMap

/-- The map leads from each node of a tree but the root to the node that lists it among its
children, and from nowhere else. -/
structure ParentMap.IsAncestry (m : ParentMap) (root : Node) : Prop where
  top : m.parent (.root root) = none
  parent : ∀ c ∈ (NodeRef.root root).nodes, ∀ p,
    m.parent c = some p ↔ p ∈ (NodeRef.root root).nodes ∧ c ∈ p.children
  hangs : ∀ c ∈ (NodeRef.root root).nodes, c ≠ .root root → (m.parent c).isSome = true
  nothingElse : ∀ c p, m.parent c = some p →
    p ∈ (NodeRef.root root).nodes ∧ ∃ own ∈ p.children, own.way = c.way
  size : m.size + 1 = (NodeRef.root root).nodes.length
  ancestors : ∀ e ∈ (NodeRef.root root).preorder 0, (m.ancestors e.1).length = e.2 ∧
    (0 < e.2 → (m.ancestors e.1).getLast? = some (.root root))

theorem ParentMap.isAncestry_build (root : Node) : (build root).IsAncestry root where
  top := parent_root
  parent c member p := by
    rw [NodeRef.mem_nodes_iff] at member ⊢
    exact parent_of_within member
  hangs c member lower := by
    obtain rfl | ⟨p, above, child⟩ := (NodeRef.mem_nodes_iff.1 member).root_or_child
    · exact absurd rfl lower
    · rw [parent_build_iff.2 ⟨above, c, child, rfl⟩]
      rfl
  nothingElse c p found := by
    rw [NodeRef.mem_nodes_iff]
    exact parent_build_iff.1 found
  size := size_build root
  ancestors e member := by
    have within := NodeRef.within_of_mem_preorder (NodeRef.root_within root) member
    have depth := NodeRef.depth_of_mem_preorder member
    obtain ⟨length, last⟩ := ancestors_of_within within
    refine ⟨length.trans depth.symm, fun below => ?_⟩
    obtain ⟨q, above, some⟩ := List.exists_cons_of_length_pos (l := (build root).ancestors e.1)
      (length.trans depth.symm ▸ below)
    rwa [some, List.getLast?_cons_cons, ← some] at last

/-- A visitor is called on the nodes in the order of the recursion over the tree, with their depths.
No two of them stand at the same place, and the map built for the tree is their ancestry. -/
theorem walk_is_preorder_with_ancestry (root : Node) :
    (∀ (σ : Type) (visitor : NodeRef → Nat → σ → σ) (state : σ),
      root.visit visitor state = ((NodeRef.root root).preorder 0).foldl
        (fun state entry => visitor entry.1 entry.2 state) state) ∧
      ((NodeRef.root root).nodes.map NodeRef.way).Nodup ∧
      (ParentMap.build root).IsAncestry root :=
  ⟨fun _ visitor state => root.visit_eq_foldl visitor state, NodeRef.nodup_nodes root,
    ParentMap.isAncestry_build root⟩

end VisualBasic
