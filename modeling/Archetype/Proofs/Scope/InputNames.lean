import Archetype.Proofs.Scope.Routes

/-!
The names of the inputs around a scope. They go by the kinds of the scopes around it, and a scope
that is the one of a block keeps its kind; so where blocks are open, growth changes none of the
names, and entering a scope adds its name if it is the scope of an input.
-/

namespace Archetype.ScopeTree

variable {tree later : ScopeTree}

/-- The names of the inputs around a scope and its own if it is an input. -/
def inputNames (tree : ScopeTree) (id : ScopeId) : List String :=
  tree.namesTo (fun a => (tree.node a).frame = .input) id

theorem inputPath_eq (id : ScopeId) : tree.inputPath id = ".".intercalate (tree.inputNames id) :=
  rfl

def Enclosed (tree : ScopeTree) (id : ScopeId) : Prop :=
  ∀ a ∈ tree.ancestry id, (tree.node a).frame ≠ .value

theorem ancestry_of_parent {id around : ScopeId} (link : (tree.node id).parent = some around)
    (below : around < id) : tree.ancestry id = id :: tree.ancestry around := by
  rw [ancestry]
  simp only [link, below, dite_true]

theorem le_of_mem_ancestry {id a : ScopeId} (member : a ∈ tree.ancestry id) : a ≤ id := by
  fun_induction ScopeTree.ancestry tree id with
  | case1 id top => exact Nat.le_of_eq (List.mem_singleton.1 member)
  | case2 id around link lower ih =>
      rcases List.mem_cons.1 member with rfl | above
      · exact Nat.le_refl _
      · exact Nat.le_of_lt (Nat.lt_of_le_of_lt (ih above) lower)
  | case3 id around link notLower => exact Nat.le_of_eq (List.mem_singleton.1 member)

theorem ancestry_of_grows (grows : tree.Grows later) {id : ScopeId} (bounded : id < tree.size) :
    later.ancestry id = tree.ancestry id :=
  ancestry_congr fun a inside => (grows.node a (Nat.lt_of_le_of_lt inside bounded)).parent

theorem Enclosed.of_grows {id : ScopeId} (enclosed : tree.Enclosed id) (grows : tree.Grows later)
    (bounded : id < tree.size) :
    later.Enclosed id ∧ later.inputNames id = tree.inputNames id := by
  have kept : ∀ a ∈ tree.ancestry id, (later.node a).frame = (tree.node a).frame ∧
      (later.node a).name = (tree.node a).name := by
    intro a member
    have grown := grows.node a (Nat.lt_of_le_of_lt (le_of_mem_ancestry member) bounded)
    exact ⟨grown.frame (enclosed a member), grown.name⟩
  have same := ancestry_of_grows grows bounded
  constructor
  · intro a member
    rw [same] at member
    rw [(kept a member).1]
    exact enclosed a member
  · unfold inputNames namesTo
    rw [same, List.filter_congr fun a member => by rw [(kept a (List.mem_reverse.1 member)).1]]
    exact List.map_congr_left fun a member =>
      (kept a (List.mem_reverse.1 (List.mem_filter.1 member).1)).2

/-! The scope that a frame enters. -/

theorem parent_push (wf : tree.WellFormed) (name : String) (frame : FrameKind) :
    ((tree.push name frame).2.node (tree.push name frame).2.current).parent = some tree.current :=
  (ensureChild_lt wf wf.current_lt name frame).2

theorem name_push (wf : tree.WellFormed) (name : String) (frame : FrameKind) :
    ((tree.push name frame).2.node (tree.push name frame).2.current).name = name :=
  (((wf.ensureChild wf.current_lt name frame).indexed _ _ _).1
    (child?_ensureChild wf wf.current_lt name frame)).2

theorem frame_push (wf : tree.WellFormed) (name : String) {frame : FrameKind}
    (block : frame ≠ .value) :
    ((tree.push name frame).2.node (tree.push name frame).2.current).frame ≠ .value :=
  frame_ensureChild wf tree.current name block

/-- A scope is entered with the kind of the frame, unless it is that of a block already. -/
theorem frame_push_of_value (wf : tree.WellFormed) (name : String) (frame : FrameKind)
    (plain : (tree.push name frame).2.current < tree.size →
      (tree.node (tree.push name frame).2.current).frame = .value) :
    ((tree.push name frame).2.node (tree.push name frame).2.current).frame = frame := by
  have current : (tree.push name frame).2.current =
      (tree.ensureChild tree.current name frame).1 := rfl
  have node : ∀ id, (tree.push name frame).2.node id =
      (tree.ensureChild tree.current name frame).2.node id := fun _ => rfl
  rw [node]
  rw [current] at plain ⊢
  rw [ensureChild_eq] at plain ⊢
  cases found : tree.child? tree.current name with
  | some id =>
      have bounded := (wf.child_lt ((wf.indexed _ _ _).1 found).1).2
      simp only [found] at plain ⊢
      rw [promote, node_modify_self bounded, plain bounded, if_pos rfl]
  | none => simp only [node_addChild_new]

theorem frame_push_of_ne (name : String) (frame : FrameKind) {id : ScopeId}
    (bounded : id < (tree.push name frame).2.size)
    (other : id ≠ (tree.push name frame).2.current) :
    id < tree.size ∧ ((tree.push name frame).2.node id).frame = (tree.node id).frame := by
  have node : (tree.push name frame).2.node id =
      (tree.ensureChild tree.current name frame).2.node id := rfl
  have size : (tree.push name frame).2.size =
      (tree.ensureChild tree.current name frame).2.size := rfl
  have current : (tree.push name frame).2.current =
      (tree.ensureChild tree.current name frame).1 := rfl
  rw [node]
  rw [size] at bounded
  rw [current] at other
  rw [ensureChild_eq] at bounded other ⊢
  cases found : tree.child? tree.current name with
  | some entered =>
      simp only [found] at bounded other ⊢
      rw [size_promote] at bounded
      rw [promote, node_modify, if_neg fun same => other same.1]
      exact ⟨bounded, rfl⟩
  | none =>
      simp only [found] at bounded other ⊢
      rw [size_addChild] at bounded
      have old : id < tree.size := Nat.lt_of_le_of_ne (Nat.le_of_lt_succ bounded) other
      rw [node_addChild_of_lt old]
      refine ⟨old, ?_⟩
      split <;> rfl

/-- The names of the inputs around a scope that a frame enters. -/
theorem inputNames_push (wf : tree.WellFormed) (enclosed : tree.Enclosed tree.current)
    (name : String) {frame : FrameKind} (block : frame ≠ .value) :
    (tree.push name frame).2.Enclosed (tree.push name frame).2.current ∧
      (tree.push name frame).2.inputNames (tree.push name frame).2.current =
        tree.inputNames tree.current ++
          if ((tree.push name frame).2.node (tree.push name frame).2.current).frame = .input
            then [name] else [] := by
  have link := parent_push wf name frame
  have below := ((wf.push name frame).parent_lt link).1
  have ancestry := ancestry_of_parent link below
  obtain ⟨outer, names⟩ := enclosed.of_grows (grows_push name frame) wf.current_lt
  constructor
  · intro a member
    rw [ancestry] at member
    rcases List.mem_cons.1 member with rfl | above
    · exact frame_push wf name block
    · exact outer a above
  · rw [← names]
    unfold inputNames namesTo
    rw [ancestry, List.reverse_cons, List.filter_append, List.map_append]
    split
    · next input => simp [input, name_push wf]
    · next other => simp [other]

/-- The later tree has no scopes of blocks but those of the earlier one. -/
def AddsValues (before after : ScopeTree) : Prop :=
  ∀ id < after.size, (after.node id).frame ≠ .value →
    id < before.size ∧ (before.node id).frame = (after.node id).frame

namespace AddsValues

theorem refl (tree : ScopeTree) : tree.AddsValues tree := fun _ bounded _ => ⟨bounded, rfl⟩

theorem trans {a b c : ScopeTree} (first : a.AddsValues b) (second : b.AddsValues c) :
    a.AddsValues c := by
  intro id bounded block
  obtain ⟨between, same⟩ := second id bounded block
  obtain ⟨old, same'⟩ := first id between (same ▸ block)
  exact ⟨old, same'.trans same⟩

theorem modify (id : ScopeId) {f : ScopeNode → ScopeNode}
    (frame : ∀ node, (f node).frame = node.frame) : tree.AddsValues (tree.modify id f) := by
  intro other bounded _
  rw [size_modify] at bounded
  rw [node_modify]
  split
  · exact ⟨bounded, (frame _).symm⟩
  · exact ⟨bounded, rfl⟩

theorem declare (tree : ScopeTree) (name : String) : tree.AddsValues (tree.declare name).2 := by
  unfold ScopeTree.declare
  rw [ensureChild_eq]
  split
  · refine modify _ fun node => ?_
    split
    · next plain => exact plain.symm
    · rfl
  · intro id bounded block
    rw [size_addChild] at bounded
    by_cases new : id = tree.size
    · subst new
      rw [node_addChild_new] at block
      exact absurd rfl block
    · have old : id < tree.size := Nat.lt_of_le_of_ne (Nat.le_of_lt_succ bounded) new
      rw [node_addChild_of_lt old]
      refine ⟨old, ?_⟩
      split <;> rfl

end AddsValues

end Archetype.ScopeTree
