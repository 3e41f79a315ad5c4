import Archetype.Scope.Lookup

/-!
Scope trees only grow. Every operation keeps the scopes there are, with their names, their places
and the values bound to them; a scope takes the kind of a block at most once. What an earlier tree
of a run finds by name is therefore found in every later one.
-/

namespace Archetype

structure ScopeNode.Grows (before after : ScopeNode) : Prop where
  name : after.name = before.name
  parent : after.parent = before.parent
  children : before.children <+: after.children
  index : ∀ name id, before.index.lookup name = some id → after.index.lookup name = some id
  frame : before.frame ≠ .value → after.frame = before.frame
  variants : before.variants <+: after.variants
  visited : before.visited = true → after.visited = true

theorem ScopeNode.Grows.refl (node : ScopeNode) : node.Grows node where
  name := rfl
  parent := rfl
  children := List.prefix_rfl
  index := fun _ _ found => found
  frame := fun _ => rfl
  variants := List.prefix_rfl
  visited := id

theorem ScopeNode.Grows.trans {a b c : ScopeNode} (first : a.Grows b) (second : b.Grows c) :
    a.Grows c where
  name := second.name.trans first.name
  parent := second.parent.trans first.parent
  children := first.children.trans second.children
  index := fun name id found => second.index name id (first.index name id found)
  frame := by
    intro block
    have kept := first.frame block
    exact (second.frame (kept ▸ block)).trans kept
  variants := first.variants.trans second.variants
  visited := fun seen => second.visited (first.visited seen)

/-- The scopes hold the same and were visited or skipped alike; where they are does not count. -/
structure ScopeNode.SameContent (before after : ScopeNode) : Prop where
  variants : after.variants = before.variants
  inEffect : after.inEffect = before.inEffect
  visited : after.visited = before.visited
  skipped : after.skipped = before.skipped

namespace ScopeTree

variable {tree : ScopeTree}

/-! The scopes of a changed tree. -/

@[simp] theorem size_modify (id : ScopeId) (f : ScopeNode → ScopeNode) :
    (tree.modify id f).size = tree.size := by
  simp [modify, size]

@[simp] theorem frames_modify (id : ScopeId) (f : ScopeNode → ScopeNode) :
    (tree.modify id f).frames = tree.frames := rfl

theorem node_of_size_le {id : ScopeId} (outside : tree.size ≤ id) : tree.node id = {} := by
  simp only [node, size] at *
  simp [outside]

theorem node_modify (id other : ScopeId) (f : ScopeNode → ScopeNode) :
    (tree.modify id f).node other =
      if other = id ∧ id < tree.size then f (tree.node other) else tree.node other := by
  by_cases inside : other < tree.nodes.size
  · by_cases same : id = other
    · subst same
      simp [node, modify, size, Array.getD, inside, Array.getElem_modify]
    · have differ : ¬other = id := fun eq => same eq.symm
      simp [node, modify, Array.getD, inside, Array.getElem_modify, same, differ]
  · have outside : tree.size ≤ other := Nat.le_of_not_lt inside
    rw [node_of_size_le (by simpa using outside), node_of_size_le outside, if_neg]
    rintro ⟨rfl, bounded⟩
    exact inside bounded

theorem node_modify_self {id : ScopeId} (bounded : id < tree.size) (f : ScopeNode → ScopeNode) :
    (tree.modify id f).node id = f (tree.node id) := by
  rw [node_modify, if_pos ⟨rfl, bounded⟩]

def addChild (tree : ScopeTree) (parent : ScopeId) (name : String) (frame : FrameKind) :
    ScopeTree :=
  { tree with
    nodes := (tree.nodes.modify parent fun node =>
      { node with
        children := node.children ++ [tree.size]
        index := (name, tree.size) :: node.index }).push
          { name, parent := some parent, frame } }

def promote (tree : ScopeTree) (id : ScopeId) (frame : FrameKind) : ScopeTree :=
  tree.modify id fun node =>
    { node with frame := if node.frame = .value then frame else node.frame }

theorem ensureChild_eq (parent : ScopeId) (name : String) (frame : FrameKind) :
    tree.ensureChild parent name frame =
      match tree.child? parent name with
      | some id => (id, tree.promote id frame)
      | none => (tree.size, tree.addChild parent name frame) := rfl

@[simp] theorem frames_ensureChild (around : ScopeId) (name : String) (frame : FrameKind) :
    (tree.ensureChild around name frame).2.frames = tree.frames := by
  rw [ensureChild_eq]
  split <;> rfl

theorem push_eq (name : String) (frame : FrameKind) :
    tree.push name frame =
      ((tree.ensureChild tree.current name frame).1,
        ⟨(tree.ensureChild tree.current name frame).2.nodes,
          (tree.ensureChild tree.current name frame).1 :: tree.frames⟩) := by
  rw [← frames_ensureChild tree.current name frame]
  rfl

@[simp] theorem frames_push (name : String) (frame : FrameKind) :
    (tree.push name frame).2.frames = (tree.push name frame).1 :: tree.frames := by
  rw [push_eq]

/-- Leaving a frame that is the innermost again brings back the frames around it. -/
theorem frames_leaveTo_of_push {left : ScopeTree} {name : String} {frame : FrameKind}
    (back : left.frames = (tree.push name frame).2.frames) :
    (left.leaveTo tree.frames.length).frames = tree.frames := by
  rw [leaveTo, back, frames_push]
  simp

@[simp] theorem size_addChild (parent : ScopeId) (name : String) (frame : FrameKind) :
    (tree.addChild parent name frame).size = tree.size + 1 := by
  simp [addChild, size]

@[simp] theorem frames_addChild (parent : ScopeId) (name : String) (frame : FrameKind) :
    (tree.addChild parent name frame).frames = tree.frames := rfl

theorem node_addChild_new (parent : ScopeId) (name : String) (frame : FrameKind) :
    (tree.addChild parent name frame).node tree.size =
      { name, parent := some parent, frame } := by
  simp [addChild, node, size, Array.getD, Array.getElem_push]

theorem node_addChild_of_lt {id : ScopeId} (bounded : id < tree.size) (parent : ScopeId)
    (name : String) (frame : FrameKind) :
    (tree.addChild parent name frame).node id =
      if id = parent then
        { tree.node id with
          children := (tree.node id).children ++ [tree.size]
          index := (name, tree.size) :: (tree.node id).index }
      else tree.node id := by
  have old : (tree.addChild parent name frame).node id =
      (tree.modify parent fun node =>
        { node with
          children := node.children ++ [tree.size]
          index := (name, tree.size) :: node.index }).node id := by
    simp only [size] at bounded
    simp [addChild, modify, node, size, Array.getD, Array.getElem_push, bounded,
      Nat.lt_succ_of_lt bounded]
  rw [old, node_modify]
  by_cases same : id = parent
  · subst same
    simp [bounded]
  · simp [same]

theorem node_addChild {around : ScopeId} (bounded : around < tree.size) (name : String)
    (frame : FrameKind) (id : ScopeId) :
    (tree.addChild around name frame).node id =
      if id = tree.size then { name, parent := some around, frame }
      else if id = around then
        { tree.node id with
          children := (tree.node id).children ++ [tree.size]
          index := (name, tree.size) :: (tree.node id).index }
      else tree.node id := by
  rcases Nat.lt_trichotomy id tree.size with inside | rfl | beyond
  · rw [node_addChild_of_lt inside, if_neg (Nat.ne_of_lt inside)]
  · rw [node_addChild_new, if_pos rfl]
  · have differ : id ≠ around := Nat.ne_of_gt (Nat.lt_trans bounded beyond)
    rw [if_neg (Nat.ne_of_gt beyond), if_neg differ, node_of_size_le (Nat.le_of_lt beyond),
      node_of_size_le (by rw [size_addChild]; exact beyond)]

theorem children_addChild {around : ScopeId} (bounded : around < tree.size) (name : String)
    (frame : FrameKind) (id : ScopeId) :
    ((tree.addChild around name frame).node id).children =
      if id = around then (tree.node id).children ++ [tree.size] else (tree.node id).children := by
  rw [node_addChild bounded]
  by_cases new : id = tree.size
  · rw [if_pos new, if_neg (new ▸ Nat.ne_of_gt bounded), node_of_size_le (Nat.le_of_eq new.symm)]
  · rw [if_neg new]
    split <;> rfl

theorem child?_addChild {around : ScopeId} (bounded : around < tree.size) (name : String)
    (frame : FrameKind) (id : ScopeId) (word : String) :
    (tree.addChild around name frame).child? id word =
      if id = around ∧ word = name then some tree.size else tree.child? id word := by
  rw [child?, child?, node_addChild bounded]
  by_cases new : id = tree.size
  · rw [if_pos new, if_neg fun same => Nat.ne_of_gt bounded (new ▸ same.1),
      node_of_size_le (Nat.le_of_eq new.symm)]
  · rw [if_neg new]
    by_cases below : id = around
    · by_cases named : word = name
      · simp [below, named]
      · simp [below, named, List.lookup_cons, beq_false_of_ne named]
    · simp [below]

/-- A scope that is created holds nothing, and entering one changes nothing that it holds. -/
theorem sameContent_ensureChild (around : ScopeId) (name : String) (frame : FrameKind)
    (id : ScopeId) :
    (tree.node id).SameContent ((tree.ensureChild around name frame).2.node id) := by
  rw [ensureChild_eq]
  split
  · rw [promote, node_modify]
    split <;> exact ⟨rfl, rfl, rfl, rfl⟩
  · rcases Nat.lt_trichotomy id tree.size with inside | rfl | beyond
    · rw [node_addChild_of_lt inside]
      split <;> exact ⟨rfl, rfl, rfl, rfl⟩
    · rw [node_addChild_new, node_of_size_le (Nat.le_refl _)]
      exact ⟨rfl, rfl, rfl, rfl⟩
    · rw [node_of_size_le (Nat.le_of_lt beyond), node_of_size_le (by rwa [size_addChild])]
      exact ⟨rfl, rfl, rfl, rfl⟩

@[simp] theorem size_promote (id : ScopeId) (frame : FrameKind) :
    (tree.promote id frame).size = tree.size := by
  simp [promote]

theorem exists_ancestry (tree : ScopeTree) (id : ScopeId) :
    ∃ around, tree.ancestry id = id :: around := by
  rw [ancestry]
  split
  · exact ⟨_, rfl⟩
  · split <;> exact ⟨_, rfl⟩

/-- The scopes around a scope go by the links among those up to it. -/
theorem ancestry_congr {later : ScopeTree} {here : ScopeId}
    (same : ∀ id ≤ here, (later.node id).parent = (tree.node id).parent) :
    later.ancestry here = tree.ancestry here := by
  fun_induction ScopeTree.ancestry tree here with
  | case1 id top =>
      rw [ancestry, same id (Nat.le_refl id), top]
  | case2 id around link lower ih =>
      rw [ancestry, same id (Nat.le_refl id), link]
      have below := ih fun a inside => same a (Nat.le_of_lt (Nat.lt_of_le_of_lt inside lower))
      simp only [dif_pos lower, below]
  | case3 id around link notLower =>
      rw [ancestry, same id (Nat.le_refl id), link]
      simp only [dif_neg notLower]

/-! Growth of a whole tree. -/

/-- Every scope of the earlier tree is one of the later tree, and may have grown. -/
structure Grows (before after : ScopeTree) : Prop where
  size : before.size ≤ after.size
  node : ∀ id, id < before.size → (before.node id).Grows (after.node id)

theorem Grows.refl (tree : ScopeTree) : tree.Grows tree :=
  ⟨Nat.le_refl _, fun id _ => .refl (tree.node id)⟩

theorem Grows.trans {a b c : ScopeTree} (first : a.Grows b) (second : b.Grows c) : a.Grows c where
  size := Nat.le_trans first.size second.size
  node id bounded :=
    (first.node id bounded).trans (second.node id (Nat.lt_of_lt_of_le bounded first.size))

theorem Grows.visited {later : ScopeTree} (grows : tree.Grows later) {id : ScopeId}
    (seen : (tree.node id).visited = true) : (later.node id).visited = true := by
  refine (grows.node id (Nat.lt_of_not_le fun outside => ?_)).visited seen
  rw [node_of_size_le outside] at seen
  cases seen

/-- Growth is about the scopes alone; which frames are open does not count. -/
theorem Grows.of_nodes {a b a' b' : ScopeTree} (grows : a.Grows b) (first : a'.nodes = a.nodes)
    (second : b'.nodes = b.nodes) : a'.Grows b' := by
  obtain ⟨_, _⟩ := a
  obtain ⟨_, _⟩ := b
  obtain ⟨_, _⟩ := a'
  obtain ⟨_, _⟩ := b'
  simp only at first second
  subst first second
  exact ⟨grows.size, grows.node⟩

theorem grows_modify (id : ScopeId) {f : ScopeNode → ScopeNode}
    (keeps : ∀ node : ScopeNode, node.Grows (f node)) :
    tree.Grows (tree.modify id f) where
  size := by simp
  node other _ := by
    rw [node_modify]
    split
    · exact keeps _
    · exact .refl _

theorem grows_promote (id : ScopeId) (frame : FrameKind) : tree.Grows (tree.promote id frame) := by
  refine grows_modify id fun node => { ScopeNode.Grows.refl node with frame := ?_ }
  intro block
  simp [block]

theorem grows_addChild {parent : ScopeId} {name : String}
    (missing : tree.child? parent name = none) (frame : FrameKind) :
    tree.Grows (tree.addChild parent name frame) where
  size := by simp
  node id bounded := by
    rw [node_addChild_of_lt bounded]
    split
    · next same =>
      subst same
      refine { ScopeNode.Grows.refl (tree.node id) with
        children := List.prefix_append _ _
        index := fun other child found => ?_ }
      have differ : other ≠ name := by
        rintro rfl
        rw [child?, found] at missing
        cases missing
      rw [List.lookup_cons, beq_false_of_ne differ]
      exact found
    · exact .refl _

theorem grows_ensureChild (parent : ScopeId) (name : String) (frame : FrameKind) :
    tree.Grows (tree.ensureChild parent name frame).2 := by
  rw [ensureChild_eq]
  split
  · exact grows_promote _ frame
  · next missing => exact grows_addChild missing frame

theorem grows_push (name : String) (frame : FrameKind) : tree.Grows (tree.push name frame).2 :=
  (grows_ensureChild tree.current name frame).of_nodes rfl rfl

theorem grows_bindAt (id : ScopeId) (value : Value) (origin : Origin) :
    tree.Grows (tree.bindAt id value origin) :=
  grows_modify id fun node =>
    { ScopeNode.Grows.refl node with variants := List.prefix_append _ _ }

theorem grows_markVisited (id : ScopeId) : tree.Grows (tree.markVisited id) :=
  grows_modify id fun node => { ScopeNode.Grows.refl node with visited := fun _ => rfl }

theorem grows_markSkipped (id : ScopeId) : tree.Grows (tree.markSkipped id) :=
  grows_modify id fun node => { ScopeNode.Grows.refl node with }

end ScopeTree

end Archetype
