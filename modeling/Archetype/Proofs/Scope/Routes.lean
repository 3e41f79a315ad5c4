import Archetype.Proofs.Scope.WellFormed

/-!
The names that lead from the root to a scope. They go by names and places alone; a scope that a
frame enters has one name more than the scope around it, and later growth changes no route.
-/

namespace Archetype.ScopeTree

variable {tree final : ScopeTree}

structure SamePlaces (before after : ScopeTree) : Prop where
  name : ∀ id, (after.node id).name = (before.node id).name
  parent : ∀ id, (after.node id).parent = (before.node id).parent
  frame : ∀ id, (after.node id).frame = (before.node id).frame

namespace SamePlaces

theorem trans {a b c : ScopeTree} (first : a.SamePlaces b) (second : b.SamePlaces c) :
    a.SamePlaces c where
  name id := (second.name id).trans (first.name id)
  parent id := (second.parent id).trans (first.parent id)
  frame id := (second.frame id).trans (first.frame id)

theorem modify (id : ScopeId) {f : ScopeNode → ScopeNode} (name : ∀ node, (f node).name = node.name)
    (parent : ∀ node, (f node).parent = node.parent)
    (frame : ∀ node, (f node).frame = node.frame) : tree.SamePlaces (tree.modify id f) where
  name other := by rw [node_modify]; split <;> simp only [name]
  parent other := by rw [node_modify]; split <;> simp only [parent]
  frame other := by rw [node_modify]; split <;> simp only [frame]

theorem bindAt (id : ScopeId) (value : Value) (origin : Origin) :
    tree.SamePlaces (tree.bindAt id value origin) :=
  modify id (fun _ => rfl) (fun _ => rfl) fun _ => rfl

theorem markVisited (id : ScopeId) : tree.SamePlaces (tree.markVisited id) :=
  modify id (fun _ => rfl) (fun _ => rfl) fun _ => rfl

theorem path (same : tree.SamePlaces final) (id : ScopeId) : final.path id = tree.path id := by
  simp only [ScopeTree.path, namesTo, ancestry_congr fun a _ => same.parent a, same.name]

theorem inputPath (same : tree.SamePlaces final) (id : ScopeId) :
    final.inputPath id = tree.inputPath id := by
  simp only [ScopeTree.inputPath, namesTo, ancestry_congr fun a _ => same.parent a, same.name,
    same.frame]

end SamePlaces

def route (tree : ScopeTree) (id : ScopeId) : List String := tree.namesTo (· ≠ root) id

theorem route_of_parent {id around : ScopeId} (link : (tree.node id).parent = some around)
    (below : around < id) : tree.route id = tree.route around ++ [(tree.node id).name] := by
  have inner : id ≠ root := Nat.ne_of_gt (Nat.lt_of_le_of_lt (Nat.zero_le _) below)
  have ancestry : tree.ancestry id = id :: tree.ancestry around := by
    rw [ScopeTree.ancestry]
    simp only [link, below, dite_true]
  simp [route, namesTo, ancestry, inner]

theorem route_of_grows (wf : tree.WellFormed) (grows : tree.Grows final) {id : ScopeId}
    (bounded : id < tree.size) : final.route id = tree.route id := by
  induction id using Nat.strongRecOn with
  | ind id ih =>
      obtain ⟨name, parent, -⟩ := grows.node id bounded
      cases link : (tree.node id).parent with
      | none =>
          have ancestry : tree.ancestry id = [id] := by rw [ScopeTree.ancestry]; simp [link]
          have ancestry' : final.ancestry id = [id] := by
            rw [ScopeTree.ancestry]
            simp [parent, link]
          simp only [route, namesTo, ancestry, ancestry', List.reverse_singleton]
          refine List.map_congr_left fun a member => ?_
          rw [List.mem_singleton.1 (List.mem_filter.1 member).1, name]
      | some around =>
          have below := (wf.parent_lt link).1
          rw [route_of_parent (parent.trans link) below, route_of_parent link below, name,
            ih around below (Nat.lt_trans below bounded)]

theorem route_push (wf : tree.WellFormed) {name : String} {frame : FrameKind}
    (grows : (tree.push name frame).2.Grows final) :
    final.route (tree.push name frame).2.current = final.route tree.current ++ [name] := by
  have shaped := wf.push name frame
  have entered := ensureChild_lt wf wf.current_lt name frame
  have named := (((wf.ensureChild wf.current_lt name frame).indexed _ _ _).1
    (child?_ensureChild wf wf.current_lt name frame)).2
  have current : (tree.push name frame).2.current = (tree.ensureChild tree.current name frame).1 :=
    rfl
  have link : ((tree.push name frame).2.node (tree.push name frame).2.current).parent =
      some tree.current := entered.2
  have named : ((tree.push name frame).2.node (tree.push name frame).2.current).name = name := named
  rw [route_of_grows shaped grows shaped.current_lt,
    route_of_parent link (shaped.parent_lt link).1, named,
    route_of_grows wf (grows_push name frame) wf.current_lt,
    route_of_grows wf ((grows_push name frame).trans grows) wf.current_lt]

end Archetype.ScopeTree
