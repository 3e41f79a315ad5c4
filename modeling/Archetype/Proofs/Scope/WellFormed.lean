import Archetype.Proofs.Scope.Growth
import Mathlib.Data.List.Find

/-!
The shape of a scope tree: the scopes below a scope are those that name it as the scope around
them, in creation order and under distinct names, by which they are found; a value is in effect
wherever one was bound; and the open frames lead from the root down. Every operation keeps this
shape.
-/

namespace Archetype.ScopeTree

variable {tree : ScopeTree}

/-- Open frames, the innermost first, of which each is below the next and the last below the
root. -/
def Stacked (tree : ScopeTree) : List ScopeId → Prop
  | [] => True
  | id :: rest =>
      id < tree.size ∧ (tree.node id).parent = some (rest.headD root) ∧ tree.Stacked rest

end ScopeTree

/-- The values of a scope: one is in effect if any is there, and none is there if the scope was
skipped. -/
structure ScopeNode.Settled (node : ScopeNode) : Prop where
  effective : node.effective?.isSome = node.isBound
  bound : node.isBound = true ↔ node.variants ≠ []
  skipped : node.skipped = true → node.variants = []

theorem ScopeNode.Settled.of_unbound {node : ScopeNode} (variants : node.variants = [])
    (inEffect : node.inEffect = none) : node.Settled where
  effective := by simp [effective?, isBound, inEffect]
  bound := by simp [isBound, inEffect, variants]
  skipped := fun _ => variants

/-- A variant that is added takes effect unless the one in effect has a higher origin. -/
theorem ScopeNode.effective?_bind (node : ScopeNode) (v : Variant) :
    (node.bind v).effective? =
      if node.effective?.all (·.origin.rank ≤ v.origin.rank) then some v
      else node.effective? := by
  have placed : (node.bind v).effective? =
      (if node.effective?.all (·.origin.rank ≤ v.origin.rank) then some node.variants.length
        else node.inEffect).bind fun place => (node.variants ++ [v])[place]? := rfl
  rw [placed]
  split
  · simp
  · next outranked =>
    cases effective : node.effective? with
    | none => simp [effective] at outranked
    | some w =>
        obtain ⟨place, inEffect, found⟩ := Option.bind_eq_some_iff.1 effective
        have inside := (List.getElem?_eq_some_iff.1 found).1
        rw [inEffect, Option.bind_some, List.getElem?_append_left inside, found]

theorem ScopeNode.settled_bind (node : ScopeNode) (v : Variant) : (node.bind v).Settled := by
  have effective : (node.bind v).effective?.isSome = true := by
    rw [effective?_bind]
    split
    · rfl
    · next outranked => cases effective : node.effective? <;> simp_all
  obtain ⟨w, some⟩ := Option.isSome_iff_exists.1 effective
  obtain ⟨place, inEffect, -⟩ := Option.bind_eq_some_iff.1 some
  have bound : (node.bind v).isBound = true := by rw [isBound, inEffect]; rfl
  refine ⟨effective.trans bound.symm, iff_of_true bound ?_, fun skipped => ?_⟩
  · exact List.append_ne_nil_of_right_ne_nil _ (List.cons_ne_nil _ _)
  · cases skipped

namespace ScopeTree

variable {tree : ScopeTree}

structure WellFormed (tree : ScopeTree) : Prop where
  nonempty : 0 < tree.size
  root_parent : (tree.node root).parent = none
  parent : ∀ id, id < tree.size → id ≠ root → ∃ around < id, (tree.node id).parent = some around
  children : ∀ id child, child ∈ (tree.node id).children ↔
    child < tree.size ∧ (tree.node child).parent = some id
  ascending : ∀ id, (tree.node id).children.Pairwise (· < ·)
  distinct : ∀ id, ((tree.node id).children.map fun child => (tree.node child).name).Nodup
  indexed : ∀ id name child, tree.child? id name = some child ↔
    child ∈ (tree.node id).children ∧ (tree.node child).name = name
  settled : ∀ id, (tree.node id).Settled
  stacked : tree.Stacked tree.frames

namespace WellFormed

theorem init : WellFormed {} := by
  have empty : ∀ id, ({} : ScopeTree).node id = {} := by
    intro id
    cases id with
    | zero => rfl
    | succ id => exact node_of_size_le (Nat.le_add_left 1 id)
  exact {
    nonempty := Nat.one_pos
    root_parent := rfl
    parent := fun id bounded differ => absurd (Nat.lt_one_iff.1 bounded) differ
    children := fun id child => by simp [empty]
    ascending := fun id => by simp [empty]
    distinct := fun id => by simp [empty]
    indexed := fun id name child => by simp [child?, empty]
    settled := fun id => by rw [empty]; exact .of_unbound rfl rfl
    stacked := trivial }

theorem parent_lt (wf : tree.WellFormed) {id around : ScopeId}
    (link : (tree.node id).parent = some around) : around < id ∧ id < tree.size := by
  by_cases bounded : id < tree.size
  · by_cases isRoot : id = root
    · rw [isRoot, wf.root_parent] at link
      cases link
    · obtain ⟨found, lower, eq⟩ := wf.parent id bounded isRoot
      rw [link, Option.some.injEq] at eq
      exact ⟨eq ▸ lower, bounded⟩
  · rw [node_of_size_le (Nat.le_of_not_lt bounded)] at link
    cases link

theorem child_lt (wf : tree.WellFormed) {id child : ScopeId}
    (member : child ∈ (tree.node id).children) : id < child ∧ child < tree.size :=
  wf.parent_lt ((wf.children id child).1 member).2

theorem current_lt (wf : tree.WellFormed) : tree.current < tree.size := by
  have stacked := wf.stacked
  simp only [current]
  cases frames : tree.frames with
  | nil => exact wf.nonempty
  | cons id rest => rw [frames] at stacked; exact stacked.1

end WellFormed

/-! A scope below another, found by name. -/

theorem WellFormed.child?_eq_none (wf : tree.WellFormed) {around : ScopeId} {name : String} :
    tree.child? around name = none ↔
      ∀ id ∈ (tree.node around).children, (tree.node id).name ≠ name := by
  rw [Option.eq_none_iff_forall_ne_some]
  constructor
  · intro missing id member named
    exact missing id ((wf.indexed around name id).2 ⟨member, named⟩)
  · intro free id found
    obtain ⟨member, named⟩ := (wf.indexed around name id).1 found
    exact free id member named

theorem Grows.child? {after : ScopeTree} (grows : tree.Grows after) (wf : tree.WellFormed)
    {around id : ScopeId} {name : String} (found : tree.child? around name = some id) :
    after.child? around name = some id := by
  have below := wf.child_lt ((wf.indexed around name id).1 found).1
  exact (grows.node around (Nat.lt_trans below.1 below.2)).index name id found

/-! Changes that keep the shape. -/

theorem Stacked.of_grows {after : ScopeTree} (grows : tree.Grows after) {frames : List ScopeId}
    (stacked : tree.Stacked frames) : after.Stacked frames := by
  induction frames with
  | nil => trivial
  | cons id rest ih =>
      obtain ⟨bounded, link, below⟩ := stacked
      exact ⟨Nat.lt_of_lt_of_le bounded grows.size, (grows.node id bounded).parent.trans link,
        ih below⟩

theorem Stacked.drop {frames : List ScopeId} (stacked : tree.Stacked frames) (count : Nat) :
    tree.Stacked (frames.drop count) := by
  induction count generalizing frames with
  | zero => exact stacked
  | succ count ih =>
      cases frames with
      | nil => trivial
      | cons id rest => exact ih stacked.2.2

namespace WellFormed

theorem of_nodes {after : ScopeTree} (wf : tree.WellFormed) (nodes : after.nodes = tree.nodes)
    (stacked : after.Stacked after.frames) : after.WellFormed := by
  obtain ⟨_, _⟩ := tree
  obtain ⟨_, _⟩ := after
  simp only at nodes
  subst nodes
  exact { wf with stacked }

theorem leaveTo (wf : tree.WellFormed) (count : Nat) : (tree.leaveTo count).WellFormed :=
  have same : tree.Grows (tree.leaveTo count) := (Grows.refl tree).of_nodes rfl rfl
  wf.of_nodes rfl ((wf.stacked.drop _).of_grows same)

theorem modify (wf : tree.WellFormed) (id : ScopeId) {f : ScopeNode → ScopeNode}
    (name : ∀ node, (f node).name = node.name) (parent : ∀ node, (f node).parent = node.parent)
    (children : ∀ node, (f node).children = node.children)
    (index : ∀ node, (f node).index = node.index)
    (settled : ∀ node : ScopeNode, node.Settled → (f node).Settled) :
    (tree.modify id f).WellFormed := by
  have kept : ∀ other, ((tree.modify id f).node other).name = (tree.node other).name ∧
      ((tree.modify id f).node other).parent = (tree.node other).parent ∧
      ((tree.modify id f).node other).children = (tree.node other).children ∧
      ((tree.modify id f).node other).index = (tree.node other).index := by
    intro other
    rw [node_modify]
    split
    · exact ⟨name _, parent _, children _, index _⟩
    · exact ⟨rfl, rfl, rfl, rfl⟩
  constructor
  case nonempty => simpa using wf.nonempty
  case root_parent => rw [(kept root).2.1]; exact wf.root_parent
  case parent =>
    intro other bounded differ
    rw [(kept other).2.1]
    exact wf.parent other (by simpa using bounded) differ
  case children =>
    intro other child
    rw [(kept other).2.2.1, (kept child).2.1, size_modify]
    exact wf.children other child
  case ascending => intro other; rw [(kept other).2.2.1]; exact wf.ascending other
  case distinct =>
    intro other
    simp only [(kept other).2.2.1, (kept _).1]
    exact wf.distinct other
  case indexed =>
    intro other word child
    rw [child?, (kept other).2.2.2, (kept other).2.2.1, (kept child).1]
    exact wf.indexed other word child
  case settled =>
    intro other
    rw [node_modify]
    split
    · exact settled _ (wf.settled other)
    · exact wf.settled other
  case stacked =>
    have stays : ∀ frames, tree.Stacked frames → (tree.modify id f).Stacked frames := by
      intro frames
      induction frames with
      | nil => exact fun stacked => stacked
      | cons first rest ih =>
          rintro ⟨bounded, link, below⟩
          exact ⟨by simpa using bounded, (kept first).2.1.trans link, ih below⟩
    exact stays _ wf.stacked

theorem promote (wf : tree.WellFormed) (id : ScopeId) (frame : FrameKind) :
    (tree.promote id frame).WellFormed :=
  wf.modify id (fun _ => rfl) (fun _ => rfl) (fun _ => rfl) (fun _ => rfl)
    fun _ settled => ⟨settled.effective, settled.bound, settled.skipped⟩

theorem bindAt (wf : tree.WellFormed) (id : ScopeId) (value : Value) (origin : Origin) :
    (tree.bindAt id value origin).WellFormed :=
  wf.modify id (fun _ => rfl) (fun _ => rfl) (fun _ => rfl) (fun _ => rfl)
    fun node _ => node.settled_bind _

theorem markVisited (wf : tree.WellFormed) (id : ScopeId) : (tree.markVisited id).WellFormed :=
  wf.modify id (fun _ => rfl) (fun _ => rfl) (fun _ => rfl) (fun _ => rfl)
    fun _ settled => ⟨settled.effective, settled.bound, settled.skipped⟩

theorem markSkipped (wf : tree.WellFormed) (id : ScopeId) : (tree.markSkipped id).WellFormed := by
  refine wf.modify id (fun _ => rfl) (fun _ => rfl) (fun _ => rfl) (fun _ => rfl) ?_
  intro node settled
  refine ⟨settled.effective, settled.bound, fun skipped => ?_⟩
  rcases Bool.or_eq_true_iff.1 skipped with already | unbound
  · exact settled.skipped already
  · by_contra filled
    rw [settled.bound.2 filled] at unbound
    cases unbound

section

variable (wf : tree.WellFormed) {around : ScopeId} (bounded : around < tree.size) {name : String}
  (missing : tree.child? around name = none) (frame : FrameKind)

include bounded in
theorem mem_children_addChild {id child : ScopeId} :
    child ∈ ((tree.addChild around name frame).node id).children ↔
      child ∈ (tree.node id).children ∨ (id = around ∧ child = tree.size) := by
  rw [children_addChild bounded]
  by_cases same : id = around <;> simp [same]

include wf in
theorem name_of_grows {later : ScopeTree} (grows : tree.Grows later) {id child : ScopeId}
    (below : child ∈ (tree.node id).children) :
    (later.node child).name = (tree.node child).name :=
  (grows.node _ (wf.child_lt below).2).name

include wf bounded missing

theorem linked_addChild (id child : ScopeId) :
    child ∈ ((tree.addChild around name frame).node id).children ↔
      child < (tree.addChild around name frame).size ∧
        ((tree.addChild around name frame).node child).parent = some id := by
  have grows := grows_addChild missing frame
  rw [mem_children_addChild bounded, wf.children id child, size_addChild]
  constructor
  · rintro (⟨inside, link⟩ | ⟨rfl, rfl⟩)
    · exact ⟨Nat.lt_succ_of_lt inside, (grows.node child inside).parent.trans link⟩
    · exact ⟨Nat.lt_succ_self _, by rw [node_addChild_new]⟩
  · rintro ⟨inside, link⟩
    rcases Nat.lt_succ_iff_lt_or_eq.1 inside with inside | rfl
    · exact .inl ⟨inside, (grows.node child inside).parent ▸ link⟩
    · rw [node_addChild_new, Option.some.injEq] at link
      exact .inr ⟨link.symm, rfl⟩

theorem distinct_addChild (id : ScopeId) :
    (((tree.addChild around name frame).node id).children.map fun child =>
      ((tree.addChild around name frame).node child).name).Nodup := by
  have names := List.map_congr_left fun child (below : child ∈ (tree.node id).children) =>
    wf.name_of_grows (grows_addChild missing frame) below
  rw [children_addChild bounded]
  split
  · next same =>
    subst same
    rw [List.map_append, names, List.map_singleton, node_addChild_new]
    refine List.nodup_append.2 ⟨wf.distinct id, List.pairwise_singleton _ _, ?_⟩
    intro old isOld new isNew eq
    obtain ⟨child, below, rfl⟩ := List.mem_map.1 isOld
    exact wf.child?_eq_none.1 missing child below (eq.trans (List.mem_singleton.1 isNew))
  · rw [names]
    exact wf.distinct id

theorem indexed_addChild (id : ScopeId) (word : String) (child : ScopeId) :
    (tree.addChild around name frame).child? id word = some child ↔
      child ∈ ((tree.addChild around name frame).node id).children ∧
        ((tree.addChild around name frame).node child).name = word := by
  have kept := fun {child : ScopeId} (below : child ∈ (tree.node id).children) =>
    wf.name_of_grows (grows_addChild missing frame) below
  rw [child?_addChild bounded, mem_children_addChild bounded]
  split
  · next here =>
    obtain ⟨rfl, rfl⟩ := here
    rw [Option.some.injEq]
    constructor
    · rintro rfl
      exact ⟨.inr ⟨rfl, rfl⟩, by rw [node_addChild_new]⟩
    · rintro ⟨below | ⟨-, rfl⟩, named⟩
      · exact absurd ((kept below).symm.trans named) (wf.child?_eq_none.1 missing child below)
      · rfl
  · next elsewhere =>
    rw [wf.indexed id word child]
    constructor
    · rintro ⟨below, named⟩
      exact ⟨.inl below, (kept below).trans named⟩
    · rintro ⟨below | ⟨same, rfl⟩, named⟩
      · exact ⟨below, (kept below).symm.trans named⟩
      · rw [node_addChild_new] at named
        exact absurd ⟨same, named.symm⟩ elsewhere

theorem addChild : (tree.addChild around name frame).WellFormed := by
  have grows : tree.Grows (tree.addChild around name frame) := grows_addChild missing frame
  constructor
  case nonempty => exact Nat.lt_of_lt_of_le wf.nonempty grows.size
  case root_parent => rw [(grows.node root wf.nonempty).parent]; exact wf.root_parent
  case parent =>
    intro id inside differ
    rw [size_addChild] at inside
    rcases Nat.lt_succ_iff_lt_or_eq.1 inside with inside | rfl
    · rw [(grows.node id inside).parent]
      exact wf.parent id inside differ
    · exact ⟨around, bounded, by rw [node_addChild_new]⟩
  case children => exact wf.linked_addChild bounded missing frame
  case ascending =>
    intro id
    rw [children_addChild bounded]
    split
    · refine List.pairwise_append.2 ⟨wf.ascending id, List.pairwise_singleton _ _, ?_⟩
      intro child old new fromNew
      rw [List.mem_singleton.1 fromNew]
      exact (wf.child_lt old).2
    · exact wf.ascending id
  case distinct => exact wf.distinct_addChild bounded missing frame
  case indexed => exact wf.indexed_addChild bounded missing frame
  case settled =>
    intro id
    have old := wf.settled id
    rw [node_addChild bounded]
    split
    · exact .of_unbound rfl rfl
    · split
      · exact ⟨old.effective, old.bound, old.skipped⟩
      · exact old
  case stacked => exact wf.stacked.of_grows grows

end

theorem ensureChild (wf : tree.WellFormed) {around : ScopeId} (bounded : around < tree.size)
    (name : String) (frame : FrameKind) : (tree.ensureChild around name frame).2.WellFormed := by
  rw [ensureChild_eq]
  split
  · exact wf.promote _ frame
  · next missing => exact wf.addChild bounded missing frame

end WellFormed

/-! The scope that a name leads to once it is entered. -/

theorem child?_ensureChild (wf : tree.WellFormed) {around : ScopeId} (bounded : around < tree.size)
    (name : String) (frame : FrameKind) :
    (tree.ensureChild around name frame).2.child? around name =
      some (tree.ensureChild around name frame).1 := by
  rw [ensureChild_eq]
  cases found : tree.child? around name with
  | some id => exact (grows_promote id frame).child? wf found
  | none => simp [child?_addChild bounded]

theorem ensureChild_lt (wf : tree.WellFormed) {around : ScopeId} (bounded : around < tree.size)
    (name : String) (frame : FrameKind) :
    (tree.ensureChild around name frame).1 < (tree.ensureChild around name frame).2.size ∧
      ((tree.ensureChild around name frame).2.node (tree.ensureChild around name frame).1).parent =
        some around := by
  have found := child?_ensureChild wf bounded name frame
  have shaped := wf.ensureChild bounded name frame
  exact (shaped.children _ _).1 ((shaped.indexed _ _ _).1 found).1

theorem WellFormed.push (wf : tree.WellFormed) (name : String) (frame : FrameKind) :
    (tree.push name frame).2.WellFormed := by
  have entered := ensureChild_lt wf wf.current_lt name frame
  have kept : (tree.push name frame).2.Stacked tree.frames :=
    wf.stacked.of_grows (grows_push name frame)
  rw [push_eq] at kept ⊢
  exact (wf.ensureChild wf.current_lt name frame).of_nodes rfl ⟨entered.1, entered.2, kept⟩

theorem promote_of_block {id : ScopeId} (block : (tree.node id).frame ≠ .value)
    (frame : FrameKind) : tree.promote id frame = tree := by
  have same : (tree.promote id frame).nodes = tree.nodes := by
    apply Array.ext
    · exact size_promote id frame
    · intro other inside _
      have bounded : other < tree.nodes.size := by simpa [promote, modify] using inside
      have kept : (tree.promote id frame).node other = tree.node other := by
        rw [promote, node_modify]
        split
        · next both => rw [both.1, if_neg block]
        · rfl
      simpa [node, Array.getD, inside, bounded] using kept
  obtain ⟨nodes, frames⟩ := tree
  exact congrArg (ScopeTree.mk · frames) same

theorem frame_ensureChild (wf : tree.WellFormed) (around : ScopeId) (name : String)
    {frame : FrameKind} (block : frame ≠ .value) :
    ((tree.ensureChild around name frame).2.node (tree.ensureChild around name frame).1).frame ≠
      .value := by
  rw [ensureChild_eq]
  cases found : tree.child? around name with
  | some id =>
      simp only [promote]
      rw [node_modify_self (wf.child_lt ((wf.indexed _ _ _).1 found).1).2]
      split
      · exact block
      · assumption
  | none =>
      simp only [node_addChild_new]
      exact block

/-- A frame that was entered before is entered in any later tree without a change. -/
theorem push_of_grows (wf : tree.WellFormed) {name : String} {frame : FrameKind}
    (block : frame ≠ .value) {later : ScopeTree} (grows : (tree.push name frame).2.Grows later) :
    (⟨later.nodes, tree.frames⟩ : ScopeTree).push name frame =
      ((tree.push name frame).1, ⟨later.nodes, (tree.push name frame).2.frames⟩) := by
  let again : ScopeTree := ⟨later.nodes, tree.frames⟩
  have grown : (tree.ensureChild tree.current name frame).2.Grows again := by
    rw [push_eq] at grows
    exact grows.of_nodes rfl rfl
  have shaped := wf.ensureChild wf.current_lt name frame
  have found : again.child? again.current name =
      some (tree.ensureChild tree.current name frame).1 :=
    grown.child? shaped (child?_ensureChild wf wf.current_lt name frame)
  have entered := frame_ensureChild wf tree.current name block
  have settled : (again.node (tree.ensureChild tree.current name frame).1).frame ≠ .value := by
    rw [(grown.node _ (ensureChild_lt wf wf.current_lt name frame).1).frame entered]
    exact entered
  have still : again.ensureChild again.current name frame =
      ((tree.ensureChild tree.current name frame).1, again) := by
    rw [ensureChild_eq, found]
    exact congrArg _ (promote_of_block settled frame)
  rw [push_eq, push_eq, still]

theorem WellFormed.declare (wf : tree.WellFormed) (name : String) :
    (tree.declare name).2.WellFormed :=
  wf.ensureChild wf.current_lt name .value

end Archetype.ScopeTree
