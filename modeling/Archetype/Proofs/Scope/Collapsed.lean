import Archetype.Proofs.Scope.Dissolving

/-!
Trees with and without frames that dissolve. What is done to the one can be done to the other as
long as no scope comes to bear the name of another that has the same holder around it.
-/

namespace Archetype

structure ScopeNode.Stands (δ : Dissolving) (number : ScopeId → ScopeId) (node twin : ScopeNode) :
    Prop extends ScopeNode.SameContent node twin where
  name : twin.name = δ.apply node.name
  parent : twin.parent = node.parent.map number
  frame : twin.frame = node.frame

theorem ScopeNode.Stands.congr {δ : Dissolving} {number number' : ScopeId → ScopeId}
    {node twin : ScopeNode} (stands : node.Stands δ number twin)
    (same : ∀ around, node.parent = some around → number' around = number around) :
    node.Stands δ number' twin :=
  { stands with
    parent := stands.parent.trans (Option.map_congr fun around link => (same around link).symm) }

namespace ScopeTree

/-- The second tree has the scopes of the first that stay, in order, and the same frames open. -/
structure Collapsed (δ : Dissolving) (a b : ScopeTree) : Prop where
  before : a.WellFormed
  after : b.WellFormed
  top : a.stays δ root = true
  size : b.size = (a.staying δ a.size).length
  node : ∀ id < a.size, a.stays δ id = true →
    (a.node id).Stands δ (a.rank δ) (b.node (a.rank δ id))
  frames : b.frames = (a.frames.filter (a.stays δ)).map (a.rank δ)
  marked : ∀ id, '#' ∈ (a.node id).name.toList → (a.node id).frame = .invocation

/-- No two scopes that stay are of one name and have one holder around them. -/
def Unmerged (δ : Dissolving) (tree : ScopeTree) : Prop :=
  ∀ id < tree.size, ∀ other < tree.size, tree.stays δ id = true → tree.stays δ other = true →
    (tree.node id).name = (tree.node other).name →
    (tree.node id).parent.map (tree.holder δ) = (tree.node other).parent.map (tree.holder δ) →
      id = other

variable {δ : Dissolving} {a b a' b' : ScopeTree} {id around number : ScopeId} {name : String}
  {frame : FrameKind}

/-- Scopes that are apart at last were so before. -/
theorem Unmerged.of_grows (unmerged : a'.Unmerged δ) (grows : a.Grows a') (wf : a.WellFormed) :
    a.Unmerged δ := by
  have holders : ∀ id < a.size, (a'.node id).parent.map (a'.holder δ) =
      (a.node id).parent.map (a.holder δ) := by
    intro id inside
    rw [(grows.node id inside).parent]
    refine Option.map_congr fun around link => ?_
    exact grows.holder (Nat.lt_trans (wf.parent_lt link).1 inside)
  intro id inside other inside' stays stays' named held
  refine unmerged id (Nat.lt_of_lt_of_le inside grows.size) other
    (Nat.lt_of_lt_of_le inside' grows.size) ?_ ?_ ?_ ?_
  · rwa [grows.stays inside]
  · rwa [grows.stays inside']
  · rwa [(grows.node id inside).name, (grows.node other inside').name]
  · rwa [holders id inside, holders other inside']

namespace Collapsed

theorem init : Collapsed δ {} {} := by
  have only : ∀ id, ({} : ScopeTree).node id = {} := by
    intro id
    cases id with
    | zero => rfl
    | succ id => exact node_of_size_le (Nat.le_add_left 1 id)
  have stays : ∀ id, ({} : ScopeTree).stays δ id = true := by
    intro id
    rw [ScopeTree.stays, only, δ.stays (by simp)]
    rfl
  exact {
    before := .init
    after := .init
    top := stays root
    size := by
      rw [staying, List.filter_eq_self.2 fun id _ => stays id]
      rfl
    node := fun id _ _ => by
      rw [only, only]
      exact { variants := rfl, inEffect := rfl, visited := rfl, skipped := rfl
              name := (δ.keeps "" (by simp)).symm, parent := rfl, frame := rfl }
    frames := rfl
    marked := fun id hash => by simp [only] at hash }

section Lookups

variable (collapsed : Collapsed δ a b)
include collapsed

theorem rank_lt (inside : id < a.size) : a.rank δ id < b.size := by
  rw [collapsed.size]
  exact ScopeTree.rank_lt collapsed.top inside

theorem exists_rank {number : ScopeId} (inside : number < b.size) :
    ∃ id < a.size, a.stays δ id = true ∧ a.rank δ id = number :=
  exists_rank_eq (collapsed.size ▸ inside)

theorem frame_of_gone (gone : a.stays δ id = false) : (a.node id).frame = .invocation :=
  collapsed.marked id (δ.marked _ (by simpa [ScopeTree.stays] using gone))

/-- A scope that goes has one around it, with which it shares the number. -/
theorem exists_around (inside : id < a.size) (gone : a.stays δ id = false) :
    ∃ around < id, (a.node id).parent = some around ∧ a.rank δ id = a.rank δ around := by
  have differ : id ≠ root := by
    rintro rfl
    exact absurd collapsed.top (by simp [gone])
  obtain ⟨around, below, link⟩ := collapsed.before.parent id inside differ
  exact ⟨around, below, link, rank_of_gone gone link below⟩

theorem headD_frames {frames : List ScopeId} (stacked : a.Stacked frames) :
    ((frames.filter (a.stays δ)).map (a.rank δ)).headD root = a.rank δ (frames.headD root) := by
  induction frames with
  | nil => exact rank_root.symm
  | cons id rest ih =>
      obtain ⟨inside, link, stacked⟩ := stacked
      cases stays : a.stays δ id with
      | true => rw [List.filter_cons_of_pos stays, List.map_cons, List.headD_cons, List.headD_cons]
      | false =>
          rw [List.filter_cons_of_neg (by simp [stays]), ih stacked, List.headD_cons,
            rank_of_gone stays link (collapsed.before.parent_lt link).1]

theorem current : b.current = a.rank δ a.current := by
  rw [ScopeTree.current, collapsed.frames, collapsed.headD_frames collapsed.before.stacked,
    ScopeTree.current]

/-- The scopes around one are those around it that stay. -/
theorem ancestry (inside : id < a.size) :
    b.ancestry (a.rank δ id) = ((a.ancestry id).filter (a.stays δ)).map (a.rank δ) := by
  induction id using Nat.strongRecOn with
  | ind id ih =>
      cases stays : a.stays δ id with
      | false =>
          obtain ⟨around, below, link, same⟩ := collapsed.exists_around inside stays
          rw [same, ih around below (Nat.lt_trans below inside), ancestry_of_parent link below,
            List.filter_cons_of_neg (by simp [stays])]
      | true =>
          have parent := (collapsed.node id inside stays).parent
          cases link : (a.node id).parent with
          | none =>
              rw [link, Option.map_none] at parent
              rw [ScopeTree.ancestry, ScopeTree.ancestry]
              simp only [link, parent]
              rw [List.filter_cons_of_pos stays, List.filter_nil, List.map_singleton]
          | some around =>
              rw [link, Option.map_some] at parent
              have below := (collapsed.before.parent_lt link).1
              rw [ancestry_of_parent parent (collapsed.after.parent_lt parent).1,
                ancestry_of_parent link below, List.filter_cons_of_pos stays, List.map_cons,
                ih around below (Nat.lt_trans below inside)]

/-- A scope that stays is below a scope where the holder of the one around it is. -/
theorem mem_children (inside : id < a.size) (stays : a.stays δ id = true) :
    a.rank δ id ∈ (b.node (a.rank δ around)).children ↔
      ∃ outer, (a.node id).parent = some outer ∧ a.rank δ outer = a.rank δ around := by
  rw [collapsed.after.children, (collapsed.node id inside stays).parent, Option.map_eq_some_iff]
  exact and_iff_right (collapsed.rank_lt inside)

theorem child?_of_some (plain : δ.gone name = false) (found : a.child? around name = some id) :
    b.child? (a.rank δ around) (δ.apply name) = some (a.rank δ id) := by
  obtain ⟨member, named⟩ := (collapsed.before.indexed _ _ _).1 found
  obtain ⟨inside, link⟩ := (collapsed.before.children _ _).1 member
  have stays : a.stays δ id = true := by rw [ScopeTree.stays, named, plain]; rfl
  refine (collapsed.after.indexed _ _ _).2 ⟨?_, ?_⟩
  · exact (collapsed.mem_children inside stays).2 ⟨around, link, rfl⟩
  · rw [(collapsed.node id inside stays).name, named]

/-- What is found below a scope without the frames is a scope of that name around which the same
holder is. -/
theorem exists_child (found : b.child? (a.rank δ around) (δ.apply name) = some number) :
    ∃ id < a.size, a.stays δ id = true ∧ (a.node id).name = name ∧ a.rank δ id = number ∧
      ∃ outer, (a.node id).parent = some outer ∧ a.holder δ outer = a.holder δ around := by
  obtain ⟨member, named⟩ := (collapsed.after.indexed _ _ _).1 found
  obtain ⟨id, inside, stays, rfl⟩ := collapsed.exists_rank (collapsed.after.child_lt member).2
  obtain ⟨outer, link, same⟩ := (collapsed.mem_children inside stays).1 member
  rw [(collapsed.node id inside stays).name] at named
  exact ⟨id, inside, stays, δ.injective named, rfl, outer, link,
    (rank_eq_iff collapsed.top).1 same⟩

end Lookups

/-! What is done to both trees. -/

theorem withFrames (collapsed : Collapsed δ a b) {frames frames' : List ScopeId}
    (stacked : a.Stacked frames) (stacked' : b.Stacked frames')
    (opened : frames' = (frames.filter (a.stays δ)).map (a.rank δ)) :
    Collapsed δ ⟨a.nodes, frames⟩ ⟨b.nodes, frames'⟩ := by
  have same : a.SameNames ⟨a.nodes, frames⟩ := .of_nodes rfl
  have grown : a.Grows ⟨a.nodes, frames⟩ := (Grows.refl a).of_nodes rfl rfl
  have grown' : b.Grows ⟨b.nodes, frames'⟩ := (Grows.refl b).of_nodes rfl rfl
  exact {
    before := collapsed.before.of_nodes rfl (stacked.of_grows grown)
    after := collapsed.after.of_nodes rfl (stacked'.of_grows grown')
    top := same.stays ▸ collapsed.top
    size := by
      rw [staying, same.stays]
      exact collapsed.size
    node := fun id inside stays => by
      rw [same.rank]
      exact collapsed.node id inside (same.stays ▸ stays)
    frames := by
      rw [same.stays, same.rank]
      exact opened
    marked := collapsed.marked }

theorem modify (collapsed : Collapsed δ a b) (inside : id < a.size) (stays : a.stays δ id = true)
    {f : ScopeNode → ScopeNode} (name : ∀ node, (f node).name = node.name)
    (parent : ∀ node, (f node).parent = node.parent)
    (stands : ∀ {number node twin}, ScopeNode.Stands δ number node twin →
      (f node).Stands δ number (f twin))
    (marked : ∀ node, node.frame = .invocation → (f node).frame = .invocation)
    (before : (a.modify id f).WellFormed) (after : (b.modify (a.rank δ id) f).WellFormed) :
    Collapsed δ (a.modify id f) (b.modify (a.rank δ id) f) := by
  have same : a.SameNames (a.modify id f) := .modify id name parent
  exact {
    before, after
    top := same.stays ▸ collapsed.top
    size := by rw [size_modify, size_modify, staying, same.stays, collapsed.size, staying]
    node := fun other inside' stays' => by
      rw [size_modify] at inside'
      rw [same.stays] at stays'
      have old := collapsed.node other inside' stays'
      rw [same.rank, node_modify, node_modify]
      by_cases equal : other = id
      · subst equal
        rw [if_pos ⟨rfl, inside⟩, if_pos ⟨rfl, collapsed.rank_lt inside⟩]
        exact stands old
      · rw [if_neg fun both => equal both.1,
          if_neg fun both => equal ((rank_inj stays' stays).1 both.1)]
        exact old
    frames := by rw [frames_modify, frames_modify, same.stays, same.rank, collapsed.frames]
    marked := fun other hash => by
      rw [same.name] at hash
      rw [node_modify]
      split
      · exact marked _ (collapsed.marked other hash)
      · exact collapsed.marked other hash }

section Binding

variable (collapsed : Collapsed δ a b) (inside : id < a.size) (stays : a.stays δ id = true)
include collapsed inside stays

theorem bindAt (value : Value) (origin : Origin) :
    Collapsed δ (a.bindAt id value origin) (b.bindAt (a.rank δ id) value origin) := by
  refine collapsed.modify inside stays (fun _ => rfl) (fun _ => rfl)
    (fun {_ node twin} stands => ?_) (fun _ kind => kind) (collapsed.before.bindAt _ _ _)
    (collapsed.after.bindAt _ _ _)
  have effective : twin.effective? = node.effective? := by
    rw [ScopeNode.effective?, stands.inEffect, stands.variants, ScopeNode.effective?]
  exact { stands with
    variants := by simp only [ScopeNode.bind, stands.variants]
    inEffect := by simp only [ScopeNode.bind, effective, stands.variants, stands.inEffect]
    skipped := rfl }

theorem markVisited : Collapsed δ (a.markVisited id) (b.markVisited (a.rank δ id)) :=
  collapsed.modify inside stays (fun _ => rfl) (fun _ => rfl)
    (fun stands => { stands with visited := rfl }) (fun _ kind => kind)
    (collapsed.before.markVisited _) (collapsed.after.markVisited _)

theorem markSkipped : Collapsed δ (a.markSkipped id) (b.markSkipped (a.rank δ id)) :=
  collapsed.modify inside stays (fun _ => rfl) (fun _ => rfl)
    (fun stands => { stands with
      skipped := by simp only [stands.skipped, ScopeNode.isBound, stands.inEffect] })
    (fun _ kind => kind) (collapsed.before.markSkipped _) (collapsed.after.markSkipped _)

theorem promote (frame : FrameKind) :
    Collapsed δ (a.promote id frame) (b.promote (a.rank δ id) frame) :=
  collapsed.modify inside stays (fun _ => rfl) (fun _ => rfl)
    (fun stands => { stands with frame := by simp only [stands.frame] })
    (fun node invocation => by simp [invocation])
    (collapsed.before.promote _ _) (collapsed.after.promote _ _)

end Binding

/-! A new scope. -/

theorem node_addChild_eq (inside : id < a.size) :
    (a.addChild around name frame).node id =
      { a.node id with
        children := ((a.addChild around name frame).node id).children
        index := ((a.addChild around name frame).node id).index } := by
  rw [node_addChild_of_lt inside]
  split <;> rfl

section Adding

variable (collapsed : Collapsed δ a b) (inside : around < a.size)
  (missing : a.child? around name = none) (mark : '#' ∈ name.toList → frame = .invocation)
include collapsed inside missing mark

/-- The scopes there are stand as before; it is left to say where the new one stands. -/
theorem of_addChild (after : b'.WellFormed) (frames : b'.frames = b.frames)
    (size : b'.size = ((a.addChild around name frame).staying δ (a.size + 1)).length)
    (old : ∀ id < b.size, b'.node id =
      { b.node id with children := (b'.node id).children, index := (b'.node id).index })
    (new : (a.addChild around name frame).stays δ a.size = true →
      ScopeNode.Stands δ ((a.addChild around name frame).rank δ)
        { name, parent := some around, frame }
        (b'.node ((a.addChild around name frame).rank δ a.size))) :
    Collapsed δ (a.addChild around name frame) b' := by
  have grows : a.Grows (a.addChild around name frame) := grows_addChild missing frame
  exact {
    before := collapsed.before.addChild inside missing frame
    after
    top := (grows.stays collapsed.before.nonempty).trans collapsed.top
    size := by rw [size_addChild, size]
    node := fun id inside' stays => by
      rw [size_addChild] at inside'
      rcases Nat.lt_succ_iff_lt_or_eq.1 inside' with inside' | rfl
      · rw [grows.stays inside'] at stays
        have stands : (a.node id).Stands δ ((a.addChild around name frame).rank δ) _ :=
          (collapsed.node id inside' stays).congr fun outer above =>
            grows.rank (Nat.lt_trans (collapsed.before.parent_lt above).1 inside')
        rw [grows.rank inside', old _ (collapsed.rank_lt inside'), node_addChild_eq inside']
        exact { stands with }
      · rw [node_addChild_new]
        exact new stays
    frames := by
      rw [frames, collapsed.frames, frames_addChild,
        grows.map_rank_filter collapsed.before.stacked]
    marked := fun id hash => by
      rcases Nat.lt_trichotomy id a.size with inside' | rfl | beyond
      · rw [node_addChild_eq inside'] at hash ⊢
        exact collapsed.marked id hash
      · rw [node_addChild_new] at hash ⊢
        exact mark hash
      · rw [node_of_size_le (by rw [size_addChild]; exact beyond)] at hash
        simp at hash }

theorem addChild_gone (gone : δ.gone name = true) :
    Collapsed δ (a.addChild around name frame) b := by
  have grows : a.Grows (a.addChild around name frame) := grows_addChild missing frame
  have goes : (a.addChild around name frame).stays δ a.size = false := by
    rw [ScopeTree.stays, node_addChild_new, gone]
    rfl
  refine collapsed.of_addChild inside missing mark collapsed.after rfl ?_ (fun _ _ => rfl)
    fun stays => ?_
  · rw [staying_succ, goes, grows.staying (Nat.le_refl _), collapsed.size]
    simp
  · rw [goes] at stays
    cases stays

theorem addChild (plain : δ.gone name = false)
    (missing' : b.child? (a.rank δ around) (δ.apply name) = none) :
    (a.addChild around name frame).rank δ a.size = b.size ∧
      Collapsed δ (a.addChild around name frame)
        (b.addChild (a.rank δ around) (δ.apply name) frame) := by
  have grows : a.Grows (a.addChild around name frame) := grows_addChild missing frame
  have stays : (a.addChild around name frame).stays δ a.size = true := by
    rw [ScopeTree.stays, node_addChild_new, plain]
    rfl
  have last : (a.addChild around name frame).rank δ a.size = b.size := by
    rw [rank_of_stays stays, grows.staying (Nat.le_refl _), collapsed.size]
  refine ⟨last, collapsed.of_addChild inside missing mark
    (collapsed.after.addChild (collapsed.rank_lt inside) missing' frame) rfl ?_
    (fun id inside => node_addChild_eq inside) fun _ => ?_⟩
  · rw [staying_succ, stays, size_addChild, grows.staying (Nat.le_refl _), collapsed.size]
    simp
  · rw [last, node_addChild_new]
    exact {
      variants := rfl, inEffect := rfl, visited := rfl, skipped := rfl, name := rfl, frame := rfl
      parent := by rw [Option.map_some, grows.rank inside] }

end Adding

/-- A child that stays is found in both trees or created in both, unless it comes to bear the name
of another scope with the same holder around it. -/
theorem ensureChild (collapsed : Collapsed δ a b) (inside : around < a.size)
    (plain : δ.gone name = false) (mark : '#' ∈ name.toList → frame = .invocation)
    (unmerged : (a.ensureChild around name frame).2.Unmerged δ) :
    (b.ensureChild (a.rank δ around) (δ.apply name) frame).1 =
        (a.ensureChild around name frame).2.rank δ (a.ensureChild around name frame).1 ∧
      Collapsed δ (a.ensureChild around name frame).2
        (b.ensureChild (a.rank δ around) (δ.apply name) frame).2 := by
  rw [ensureChild_eq] at unmerged
  rw [ensureChild_eq, ensureChild_eq]
  cases found : a.child? around name with
  | some id =>
      have found' := collapsed.child?_of_some plain found
      obtain ⟨member, named⟩ := (collapsed.before.indexed _ _ _).1 found
      have stays : a.stays δ id = true := by rw [ScopeTree.stays, named, plain]; rfl
      rw [found']
      exact ⟨congrFun (SameNames.promote id frame).rank.symm id,
        collapsed.promote (collapsed.before.child_lt member).2 stays frame⟩
  | none =>
      rw [found] at unmerged
      have grows : a.Grows (a.addChild around name frame) := grows_addChild found frame
      have missing' : b.child? (a.rank δ around) (δ.apply name) = none := by
        rw [Option.eq_none_iff_forall_ne_some]
        intro number found'
        obtain ⟨id, inside', stays, named, -, outer, link, held⟩ := collapsed.exists_child found'
        have above := (collapsed.before.parent_lt link).1
        refine absurd (unmerged id ?_ a.size ?_ ?_ ?_ ?_ ?_) (Nat.ne_of_lt inside')
        · rw [size_addChild]
          exact Nat.lt_succ_of_lt inside'
        · rw [size_addChild]
          exact Nat.lt_succ_self _
        · rwa [grows.stays inside']
        · rw [ScopeTree.stays, node_addChild_new, plain]
          rfl
        · rw [(grows.node id inside').name, node_addChild_new, named]
        · rw [(grows.node id inside').parent, node_addChild_new, link, Option.map_some,
            Option.map_some, grows.holder (Nat.lt_trans above inside'), grows.holder inside, held]
      rw [missing']
      obtain ⟨last, added⟩ := collapsed.addChild inside found mark plain missing'
      exact ⟨last.symm, added⟩

/-! Frames that are entered and left. -/

theorem stacked_entered (wf : a.WellFormed) (name : String) (frame : FrameKind) :
    (a.ensureChild a.current name frame).2.Stacked (a.push name frame).2.frames := by
  obtain ⟨inside, link⟩ := ensureChild_lt wf wf.current_lt name frame
  rw [frames_push]
  exact ⟨inside, link, wf.stacked.of_grows (grows_ensureChild _ name frame)⟩

theorem name_entered (wf : a.WellFormed) (name : String) (frame : FrameKind) :
    ((a.ensureChild a.current name frame).2.node (a.push name frame).1).name = name :=
  (((wf.ensureChild wf.current_lt name frame).indexed _ _ _).1
    (child?_ensureChild wf wf.current_lt name frame)).2

theorem push (collapsed : Collapsed δ a b) (plain : δ.gone name = false)
    (mark : '#' ∈ name.toList → frame = .invocation)
    (unmerged : (a.push name frame).2.Unmerged δ) :
    Collapsed δ (a.push name frame).2 (b.push (δ.apply name) frame).2 := by
  have grows : a.Grows (a.ensureChild a.current name frame).2 := grows_ensureChild _ name frame
  have apart : (a.ensureChild a.current name frame).2.Unmerged δ :=
    unmerged.of_grows ((Grows.refl _).of_nodes rfl (by rw [push_eq]))
      (collapsed.before.ensureChild collapsed.before.current_lt name frame)
  obtain ⟨same, entered⟩ :=
    collapsed.ensureChild collapsed.before.current_lt plain mark apart
  rw [← collapsed.current] at same entered
  have stays : (a.ensureChild a.current name frame).2.stays δ (a.push name frame).1 = true := by
    rw [ScopeTree.stays, name_entered collapsed.before, plain]
    rfl
  have opened := entered.withFrames (stacked_entered collapsed.before name frame)
    (stacked_entered collapsed.after (δ.apply name) frame) (by
      rw [frames_push, frames_push, List.filter_cons_of_pos stays, List.map_cons,
        grows.map_rank_filter collapsed.before.stacked, ← collapsed.frames]
      exact congrArg (· :: b.frames) same)
  rw [frames_push, frames_push] at opened
  rwa [push_eq, push_eq]

theorem push_gone (collapsed : Collapsed δ a b) (gone : δ.gone name = true) :
    Collapsed δ (a.push name .invocation).2 b := by
  have inside := collapsed.before.current_lt
  have grows : a.Grows (a.ensureChild a.current name .invocation).2 :=
    grows_ensureChild _ name .invocation
  have goes : (a.ensureChild a.current name .invocation).2.stays δ
      (a.push name .invocation).1 = false := by
    rw [ScopeTree.stays, name_entered collapsed.before, gone]
    rfl
  have entered : Collapsed δ (a.ensureChild a.current name .invocation).2 b := by
    rw [ensureChild_eq]
    cases found : a.child? a.current name with
    | some id =>
        have block : (a.node id).frame ≠ .value := by
          have named := ((collapsed.before.indexed _ _ _).1 found).2
          rw [collapsed.marked id (named ▸ δ.marked _ gone)]
          exact FrameKind.noConfusion
        simp only [promote_of_block block]
        exact collapsed
    | none => exact collapsed.addChild_gone inside found (fun _ => rfl) gone
  have opened := entered.withFrames (stacked_entered collapsed.before name .invocation)
    collapsed.after.stacked (by
      rw [frames_push, List.filter_cons_of_neg (by simp [goes]),
        grows.map_rank_filter collapsed.before.stacked, collapsed.frames])
  rw [frames_push] at opened
  rwa [push_eq]

section Leaving

variable (collapsed : Collapsed δ a b) (grows : (a.push name frame).2.Grows a')
include collapsed grows

theorem stays_entered : a'.stays δ (a.push name frame).1 = !δ.gone name := by
  have inside : (a.push name frame).1 < (a.push name frame).2.size :=
    (ensureChild_lt collapsed.before collapsed.before.current_lt name frame).1
  have named : ((a.push name frame).2.node (a.push name frame).1).name = name :=
    name_entered collapsed.before name frame
  rw [ScopeTree.stays, (grows.node _ inside).name, named]

theorem frames_outer : b.frames = (a.frames.filter (a'.stays δ)).map (a'.rank δ) := by
  rw [collapsed.frames, ((grows_push name frame).trans grows).map_rank_filter
    collapsed.before.stacked]

variable (inner : Collapsed δ a' b') (frames : a'.frames = (a.push name frame).2.frames)
include inner frames

theorem leave (plain : δ.gone name = false) :
    Collapsed δ (a'.leaveTo a.frames.length) (b'.leaveTo b.frames.length) := by
  have outer := collapsed.frames_outer grows
  have stays := collapsed.stays_entered grows
  rw [plain] at stays
  have back : (b'.leaveTo b.frames.length).frames = b.frames := by
    rw [ScopeTree.leaveTo, inner.frames, frames, frames_push, List.filter_cons_of_pos stays,
      List.map_cons, ← outer]
    simp
  refine inner.withFrames (inner.before.stacked.drop _) (inner.after.stacked.drop _) ?_
  change (b'.leaveTo b.frames.length).frames =
    ((a'.leaveTo a.frames.length).frames.filter (a'.stays δ)).map (a'.rank δ)
  rw [back, frames_leaveTo_of_push frames, outer]

theorem leave_gone (gone : δ.gone name = true) : Collapsed δ (a'.leaveTo a.frames.length) b' := by
  have goes := collapsed.stays_entered grows
  rw [gone] at goes
  refine inner.withFrames (inner.before.stacked.drop _) inner.after.stacked ?_
  change b'.frames =
    ((a'.leaveTo a.frames.length).frames.filter (a'.stays δ)).map (a'.rank δ)
  rw [frames_leaveTo_of_push frames, inner.frames, frames, frames_push,
    List.filter_cons_of_neg (by simp [goes])]

end Leaving

end Collapsed

end ScopeTree

end Archetype
