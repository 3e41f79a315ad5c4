import Archetype.Proofs.Scope.WellFormed

/-!
Scope trees in use. Whatever is done to a fresh tree, in whatever order, leaves it well formed, and
later operations only add to it.
-/

namespace Archetype.ScopeTree

variable {tree : ScopeTree}

/-! What is looked up is a scope of the tree. -/

/-- A search finds an accepted scope below another one. -/
theorem of_searchLevels {accept : ScopeId → Bool} {n : Nat} {level : List ScopeId} {id : ScopeId}
    (found : tree.searchLevels accept n level = some id) :
    accept id = true ∧ ∃ around, id ∈ (tree.node around).children := by
  induction n generalizing level with
  | zero => cases found
  | succ n ih =>
      cases level with
      | nil => cases found
      | cons first rest =>
          simp only [searchLevels] at found
          split at found
          · next here =>
            cases found
            obtain ⟨around, -, below⟩ := List.mem_flatMap.1 (List.mem_of_find?_eq_some here)
            exact ⟨List.find?_some here, around, below⟩
          · exact ih found

theorem searchLevels_lt (wf : tree.WellFormed) {accept : ScopeId → Bool} {n : Nat}
    {level : List ScopeId} {id : ScopeId} (found : tree.searchLevels accept n level = some id) :
    id < tree.size := by
  obtain ⟨-, around, below⟩ := of_searchLevels found
  exact (wf.child_lt below).2

theorem findUpward?_lt (wf : tree.WellFormed) {accept : ScopeId → Bool} {start id : ScopeId}
    {name : String} (found : tree.findUpward? accept start name = some id) : id < tree.size := by
  obtain ⟨around, -, below⟩ := List.exists_of_findSome?_eq_some found
  exact searchLevels_lt wf below

/-- Following a path adds what is missing on the way and ends at a scope of the tree. -/
theorem reach_sound (wf : tree.WellFormed) (segments : List ScopePath.Segment) (anchored : Bool)
    {here : ScopeId} (inside : here < tree.size) :
    (tree.reach anchored here segments).2.WellFormed ∧
      tree.Grows (tree.reach anchored here segments).2 ∧
      (tree.reach anchored here segments).1 < (tree.reach anchored here segments).2.size := by
  induction segments generalizing tree anchored here with
  | nil => exact ⟨wf, .refl tree, inside⟩
  | cons segment rest ih =>
      cases segment with
      | root => exact ih wf true wf.nonempty
      | parent =>
          apply ih wf true
          cases link : (tree.node here).parent with
          | none => exact inside
          | some around => exact Nat.lt_trans (wf.parent_lt link).1 inside
      | name name =>
          simp only [reach]
          split
          · next id found =>
            apply ih wf true
            split at found
            · exact searchLevels_lt wf found
            · exact findUpward?_lt wf found
          · obtain ⟨shaped, grows, ends⟩ := ih (wf.ensureChild inside name .value) true
              (ensureChild_lt wf inside name .value).1
            exact ⟨shaped, (grows_ensureChild here name .value).trans grows, ends⟩

/-! Any operations in any order. -/

/-- What can be done to a scope tree. A frame that is dropped leaves those open that were open
before it was entered. -/
inductive Operation where
  | push (name : String) (frame : FrameKind)
  | leaveTo (count : Nat)
  | declare (name : String)
  | scope (path : String)
  | bind (path : String) (value : Value) (origin : Origin)
  | bindAt (id : ScopeId) (value : Value) (origin : Origin)
  | markVisited (id : ScopeId)
  | markSkipped (id : ScopeId)

def Operation.apply (tree : ScopeTree) : Operation → ScopeTree
  | .push name frame => (tree.push name frame).2
  | .leaveTo count => tree.leaveTo count
  | .declare name => (tree.declare name).2
  | .scope path => (tree.scope path).2
  | .bind path value origin => (tree.bind path value origin).2
  | .bindAt id value origin => tree.bindAt id value origin
  | .markVisited id => tree.markVisited id
  | .markSkipped id => tree.markSkipped id

def run (tree : ScopeTree) (operations : List Operation) : ScopeTree :=
  operations.foldl Operation.apply tree

theorem WellFormed.apply (wf : tree.WellFormed) (operation : Operation) :
    (operation.apply tree).WellFormed := by
  cases operation with
  | push name frame => exact wf.push name frame
  | leaveTo count => exact wf.leaveTo count
  | declare name => exact wf.declare name
  | scope path => exact (reach_sound wf _ false wf.current_lt).1
  | bind path value origin => exact (reach_sound wf _ false wf.current_lt).1.bindAt _ value origin
  | bindAt id value origin => exact wf.bindAt id value origin
  | markVisited id => exact wf.markVisited id
  | markSkipped id => exact wf.markSkipped id

theorem grows_apply (wf : tree.WellFormed) (operation : Operation) :
    tree.Grows (operation.apply tree) := by
  cases operation with
  | push name frame => exact grows_push name frame
  | leaveTo count => exact (Grows.refl tree).of_nodes rfl rfl
  | declare name => exact grows_ensureChild _ name .value
  | scope path => exact (reach_sound wf _ false wf.current_lt).2.1
  | bind path value origin =>
      exact (reach_sound wf _ false wf.current_lt).2.1.trans (grows_bindAt _ value origin)
  | bindAt id value origin => exact grows_bindAt id value origin
  | markVisited id => exact grows_markVisited id
  | markSkipped id => exact grows_markSkipped id

theorem run_sound (wf : tree.WellFormed) (operations : List Operation) :
    (tree.run operations).WellFormed ∧ tree.Grows (tree.run operations) := by
  induction operations generalizing tree with
  | nil => exact ⟨wf, .refl tree⟩
  | cons operation rest ih =>
      obtain ⟨shaped, grows⟩ := ih (wf.apply operation)
      exact ⟨shaped, (grows_apply wf operation).trans grows⟩

theorem run_append (tree : ScopeTree) (operations more : List Operation) :
    tree.run (operations ++ more) = (tree.run operations).run more :=
  List.foldl_append

/-- Once a scope has taken another kind, it keeps it. -/
theorem Grows.frame_of_ne {before between after : ScopeTree} (first : before.Grows between)
    (second : between.Grows after) {id : ScopeId} (inside : id < before.size)
    (changed : (between.node id).frame ≠ (before.node id).frame) :
    (before.node id).frame = .value ∧ (after.node id).frame = (between.node id).frame := by
  have plain : (before.node id).frame = .value := by
    by_contra block
    exact changed ((first.node id inside).frame block)
  refine ⟨plain, (second.node id (Nat.lt_of_lt_of_le inside first.size)).frame ?_⟩
  rw [← plain]
  exact changed

/-- A fresh tree stays well formed whatever is done to it, nothing that is done takes a scope away
or changes its name, its place or the values bound before, and a scope changes its kind at most
once, from a plain value to a block. -/
theorem well_formed_after_run (operations : List Operation) :
    (run {} operations).WellFormed ∧
    ∀ more, (run {} operations).Grows (run {} (operations ++ more)) ∧
      ∀ rest id, id < (run {} operations).size →
        ((run {} (operations ++ more)).node id).frame ≠ ((run {} operations).node id).frame →
          ((run {} operations).node id).frame = .value ∧
            ((run {} (operations ++ more ++ rest)).node id).frame =
              ((run {} (operations ++ more)).node id).frame := by
  obtain ⟨shaped, -⟩ := run_sound .init operations
  refine ⟨shaped, fun more => ?_⟩
  obtain ⟨shaped', grows⟩ := run_sound shaped more
  rw [run_append]
  refine ⟨grows, fun rest id inside changed => ?_⟩
  rw [run_append, run_append] at *
  exact grows.frame_of_ne (run_sound shaped' rest).2 inside changed

end Archetype.ScopeTree
