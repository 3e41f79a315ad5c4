import Archetype.Proofs.Scope.InputNames
import Archetype.Proofs.Scope.Renaming

/-!
Dissolving frames. Scopes whose names are given up belong to the scope around them; the others stay,
in creation order, so that each has a number of its own once those are gone. These numbers go by the
names and places of the scopes alone, and growth changes none of them.
-/

namespace Archetype

/-- Frames that give way to the scope around them, and new names for all others. -/
structure Dissolving extends Renaming where
  gone : String → Bool
  marked : ∀ name, gone name = true → '#' ∈ name.toList

theorem marked_of_contains (frames : List String) (name : String)
    (given : (name.toList.contains '#' && frames.contains name) = true) : '#' ∈ name.toList := by
  simp only [Bool.and_eq_true, List.contains_iff_mem] at given
  exact given.1

def Dissolving.ofFrames (frames : List String) : Dissolving where
  toRenaming := .refl
  gone name := name.toList.contains '#' && frames.contains name
  marked := marked_of_contains frames

theorem Dissolving.stays {δ : Dissolving} {name : String} (plain : '#' ∉ name.toList) :
    δ.gone name = false := by
  rw [Bool.eq_false_iff]
  exact fun gone => plain (δ.marked name gone)

namespace ScopeTree

variable {δ : Dissolving} {tree later : ScopeTree} {id around other : ScopeId}

def stays (δ : Dissolving) (tree : ScopeTree) (id : ScopeId) : Bool := !δ.gone (tree.node id).name

/-- The nearest scope that stays, out from a scope. -/
def holder (δ : Dissolving) (tree : ScopeTree) (id : ScopeId) : ScopeId :=
  ((tree.ancestry id).find? (tree.stays δ)).getD root

def staying (δ : Dissolving) (tree : ScopeTree) (count : Nat) : List ScopeId :=
  (List.range count).filter (tree.stays δ)

/-- The number that a scope, or else its holder, has among those that stay. -/
def rank (δ : Dissolving) (tree : ScopeTree) (id : ScopeId) : ScopeId :=
  (tree.staying δ (tree.holder δ id)).length

theorem holder_of_stays (stays : tree.stays δ id = true) : tree.holder δ id = id := by
  obtain ⟨around, ancestry⟩ := exists_ancestry tree id
  rw [holder, ancestry, List.find?_cons_of_pos stays, Option.getD_some]

theorem holder_of_gone (gone : tree.stays δ id = false)
    (link : (tree.node id).parent = some around) (below : around < id) :
    tree.holder δ id = tree.holder δ around := by
  rw [holder, ancestry_of_parent link below, List.find?_cons_of_neg (by simp [gone]), holder]

theorem holder_le : tree.holder δ id ≤ id := by
  unfold holder
  cases found : (tree.ancestry id).find? (tree.stays δ) with
  | none => exact Nat.zero_le _
  | some holder => exact le_of_mem_ancestry (List.mem_of_find?_eq_some found)

theorem stays_holder (top : tree.stays δ root = true) : tree.stays δ (tree.holder δ id) = true := by
  unfold holder
  cases found : (tree.ancestry id).find? (tree.stays δ) with
  | none => exact top
  | some holder => exact List.find?_some found

/-! Numbers among the scopes that stay. -/

theorem staying_succ (count : Nat) : tree.staying δ (count + 1) =
    tree.staying δ count ++ if tree.stays δ count then [count] else [] := by
  rw [staying, List.range_succ, List.filter_append, List.filter_cons, List.filter_nil]
  rfl

theorem rank_of_stays (stays : tree.stays δ id = true) :
    tree.rank δ id = (tree.staying δ id).length := by
  rw [rank, holder_of_stays stays]

theorem rank_of_gone (gone : tree.stays δ id = false) (link : (tree.node id).parent = some around)
    (below : around < id) : tree.rank δ id = tree.rank δ around := by
  rw [rank, holder_of_gone gone link below, rank]

theorem rank_root : tree.rank δ root = 0 := by
  have top : tree.holder δ root = root := Nat.le_zero.1 holder_le
  rw [rank, top]
  rfl

theorem staying_mono {count more : Nat} (le : count ≤ more) :
    (tree.staying δ count).length ≤ (tree.staying δ more).length :=
  ((List.range_sublist.2 le).filter _).length_le

theorem length_staying_lt (stays : tree.stays δ id = true) {count : Nat} (lt : id < count) :
    (tree.staying δ id).length < (tree.staying δ count).length := by
  have next := tree.staying_mono (δ := δ) (Nat.succ_le_of_lt lt)
  rw [staying_succ, if_pos stays, List.length_append] at next
  exact next

theorem rank_lt_iff (stays : tree.stays δ id = true) (stays' : tree.stays δ other = true) :
    tree.rank δ id < tree.rank δ other ↔ id < other := by
  rw [rank_of_stays stays, rank_of_stays stays']
  refine ⟨fun lower => ?_, length_staying_lt stays⟩
  by_contra higher
  exact absurd (staying_mono (Nat.le_of_not_lt higher)) (Nat.not_le_of_lt lower)

theorem rank_inj (stays : tree.stays δ id = true) (stays' : tree.stays δ other = true) :
    tree.rank δ id = tree.rank δ other ↔ id = other := by
  refine ⟨fun same => ?_, fun same => same ▸ rfl⟩
  rcases Nat.lt_trichotomy id other with lower | equal | higher
  · exact absurd same (Nat.ne_of_lt ((rank_lt_iff stays stays').2 lower))
  · exact equal
  · exact absurd same (Nat.ne_of_gt ((rank_lt_iff stays' stays).2 higher))

theorem rank_eq_iff (top : tree.stays δ root = true) :
    tree.rank δ id = tree.rank δ other ↔ tree.holder δ id = tree.holder δ other := by
  have own : ∀ id, tree.rank δ (tree.holder δ id) = tree.rank δ id := fun id => by
    rw [rank_of_stays (stays_holder top), rank]
  rw [← own id, ← own other]
  exact rank_inj (stays_holder top) (stays_holder top)

/-- The numbers are given out without a gap. -/
theorem map_rank_staying (count : Nat) :
    (tree.staying δ count).map (tree.rank δ) = List.range (tree.staying δ count).length := by
  induction count with
  | zero => rfl
  | succ count ih =>
      rw [staying_succ]
      split
      · next stays =>
          rw [List.map_append, ih, List.length_append, List.length_singleton, List.range_succ,
            List.map_singleton, rank_of_stays stays]
      · rw [List.append_nil]
        exact ih

theorem exists_rank_eq {count number : Nat} (inside : number < (tree.staying δ count).length) :
    ∃ id < count, tree.stays δ id = true ∧ tree.rank δ id = number := by
  have member := List.mem_range.2 inside
  rw [← map_rank_staying] at member
  obtain ⟨id, among, rfl⟩ := List.mem_map.1 member
  obtain ⟨bounded, stays⟩ := List.mem_filter.1 among
  exact ⟨id, List.mem_range.1 bounded, stays, rfl⟩

theorem rank_lt (top : tree.stays δ root = true) {count : Nat} (bounded : id < count) :
    tree.rank δ id < (tree.staying δ count).length :=
  length_staying_lt (stays_holder top) (Nat.lt_of_le_of_lt holder_le bounded)

/-! Only names and places count. -/

structure SameNames (before after : ScopeTree) : Prop where
  name : ∀ id, (after.node id).name = (before.node id).name
  parent : ∀ id, (after.node id).parent = (before.node id).parent

namespace SameNames

theorem of_nodes (same : later.nodes = tree.nodes) : tree.SameNames later where
  name id := by simp only [node, same]
  parent id := by simp only [node, same]

theorem modify (id : ScopeId) {f : ScopeNode → ScopeNode} (name : ∀ node, (f node).name = node.name)
    (parent : ∀ node, (f node).parent = node.parent) : tree.SameNames (tree.modify id f) where
  name other := by
    rw [node_modify]
    split <;> simp only [name]
  parent other := by
    rw [node_modify]
    split <;> simp only [parent]

theorem promote (id : ScopeId) (frame : FrameKind) : tree.SameNames (tree.promote id frame) :=
  modify id (fun _ => rfl) fun _ => rfl

variable (same : tree.SameNames later)
include same

theorem stays : later.stays δ = tree.stays δ := by
  funext id
  rw [ScopeTree.stays, same.name, ScopeTree.stays]

theorem holder : later.holder δ = tree.holder δ := by
  funext id
  rw [ScopeTree.holder, ancestry_congr fun around _ => same.parent around, same.stays,
    ScopeTree.holder]

theorem rank : later.rank δ = tree.rank δ := by
  funext id
  rw [ScopeTree.rank, staying, same.holder, same.stays, ScopeTree.rank, staying]

end SameNames

/-! Growth changes nothing about the scopes there are. -/

namespace Grows

variable (grows : tree.Grows later)
include grows

theorem stays (bounded : id < tree.size) : later.stays δ id = tree.stays δ id := by
  rw [ScopeTree.stays, (grows.node id bounded).name, ScopeTree.stays]

theorem holder (bounded : id < tree.size) : later.holder δ id = tree.holder δ id := by
  rw [ScopeTree.holder, ancestry_of_grows grows bounded, ScopeTree.holder]
  congr 1
  refine List.find?_congr fun around member => ?_
  exact grows.stays (Nat.lt_of_le_of_lt (le_of_mem_ancestry member) bounded)

theorem staying {count : Nat} (bounded : count ≤ tree.size) :
    later.staying δ count = tree.staying δ count :=
  List.filter_congr fun _ member =>
    grows.stays (Nat.lt_of_lt_of_le (List.mem_range.1 member) bounded)

theorem rank (bounded : id < tree.size) : later.rank δ id = tree.rank δ id := by
  rw [ScopeTree.rank, grows.holder bounded, grows.staying, ScopeTree.rank]
  exact Nat.le_of_lt (Nat.lt_of_le_of_lt holder_le bounded)

end Grows

theorem lt_of_mem_stacked {frames : List ScopeId} (stacked : tree.Stacked frames)
    (member : id ∈ frames) : id < tree.size := by
  induction frames with
  | nil => cases member
  | cons first rest ih =>
      rcases List.mem_cons.1 member with rfl | member
      · exact stacked.1
      · exact ih stacked.2.2 member

theorem Grows.map_rank_filter {frames : List ScopeId} (grows : tree.Grows later)
    (stacked : tree.Stacked frames) :
    (frames.filter (later.stays δ)).map (later.rank δ) =
      (frames.filter (tree.stays δ)).map (tree.rank δ) := by
  rw [List.filter_congr fun id member => grows.stays (lt_of_mem_stacked stacked member)]
  exact List.map_congr_left fun id member =>
    grows.rank (lt_of_mem_stacked stacked (List.mem_filter.1 member).1)

end ScopeTree

end Archetype
