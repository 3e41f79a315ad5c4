import Archetype.Proofs.Scope.Operations

/-!
Searching again. A scope is found by its name from the scope around it, and plain scopes that are
added under other names change nothing about what a search finds.
-/

namespace Archetype.ScopeTree

variable {tree : ScopeTree} {here id : ScopeId} {name : String}

def search (tree : ScopeTree) (anchored : Bool) (here : ScopeId) (name : String) :
    Option ScopeId :=
  if anchored then tree.findBelow? any here name else tree.findUpward? any here name

theorem reach_name (tree : ScopeTree) (anchored : Bool) (here : ScopeId) (name : String)
    (rest : List ScopePath.Segment) :
    tree.reach anchored here (.name name :: rest) =
      match tree.search anchored here name with
      | some id => tree.reach true id rest
      | none =>
          (tree.ensureChild here name .value).2.reach true
            (tree.ensureChild here name .value).1 rest := rfl

theorem follow?_name (tree : ScopeTree) (anchored : Bool) (here : ScopeId) (name : String)
    (rest : List ScopePath.Segment) :
    tree.follow? anchored here (.name name :: rest) =
      (tree.search anchored here name).bind fun id => tree.follow? true id rest := rfl

theorem search_lt (wf : tree.WellFormed) {anchored : Bool}
    (found : tree.search anchored here name = some id) : id < tree.size := by
  unfold search at found
  split at found
  · exact searchLevels_lt wf found
  · exact findUpward?_lt wf found

/-! A scope is found from the scope around it. -/

theorem find?_children (wf : tree.WellFormed) (found : tree.child? here name = some id) :
    (tree.node here).children.find? (fun id => (tree.node id).name = name && any id) = some id := by
  obtain ⟨member, named⟩ := (wf.indexed here name id).1 found
  cases first : (tree.node here).children.find?
      (fun id => (tree.node id).name = name && any id) with
  | none =>
      have unnamed := List.find?_eq_none.1 first id member
      simp [named, any] at unnamed
  | some other =>
      have otherNamed : (tree.node other).name = name := by
        simpa [any] using List.find?_some first
      have otherFound := (wf.indexed here name other).2
        ⟨List.mem_of_find?_eq_some first, otherNamed⟩
      exact otherFound.symm.trans found

theorem search_of_child? (wf : tree.WellFormed) (anchored : Bool)
    (found : tree.child? here name = some id) : tree.search anchored here name = some id := by
  have below : tree.findBelow? any here name = some id := by
    obtain ⟨levels, size⟩ := Nat.exists_eq_succ_of_ne_zero (Nat.ne_of_gt wf.nonempty)
    simp only [findBelow?, size, searchLevels, List.flatMap_singleton, find?_children wf found]
  unfold search
  split
  · exact below
  · obtain ⟨around, first⟩ := exists_ancestry tree here
    rw [findUpward?, first, List.findSome?_cons, below]

theorem child?_eq_none_of_search (wf : tree.WellFormed) {anchored : Bool}
    (missing : tree.search anchored here name = none) : tree.child? here name = none := by
  cases found : tree.child? here name with
  | none => rfl
  | some id => exact absurd (search_of_child? wf anchored found) (by simp [missing])

/-! The number of levels that are searched does not count once it is large enough. -/

theorem searchLevels_outside {accept : ScopeId → Bool} (levels : Nat) {level : List ScopeId}
    (outside : ∀ id ∈ level, tree.size ≤ id) : tree.searchLevels accept levels level = none := by
  induction levels generalizing level with
  | zero => rfl
  | succ levels ih =>
      cases level with
      | nil => rfl
      | cons first rest =>
          have none : (first :: rest).flatMap (fun id => (tree.node id).children) = [] := by
            refine List.flatMap_eq_nil_iff.2 fun id member => ?_
            rw [node_of_size_le (outside id member)]
          simp only [searchLevels, none, List.find?_nil, List.filter_nil]
          exact ih fun id member => absurd member List.not_mem_nil

theorem searchLevels_enough (wf : tree.WellFormed) {accept : ScopeId → Bool} {levels more : Nat}
    {low : ScopeId} {level : List ScopeId} (above : ∀ id ∈ level, low ≤ id)
    (enough : tree.size ≤ levels + low) (enough' : tree.size ≤ more + low) :
    tree.searchLevels accept more level = tree.searchLevels accept levels level := by
  induction levels generalizing more low level with
  | zero =>
      rw [Nat.zero_add] at enough
      exact searchLevels_outside more fun id member => Nat.le_trans enough (above id member)
  | succ levels ih =>
      cases more with
      | zero =>
          rw [Nat.zero_add] at enough'
          exact (searchLevels_outside (levels + 1) fun id member =>
            Nat.le_trans enough' (above id member)).symm
      | succ more =>
          cases level with
          | nil => rfl
          | cons first rest =>
              simp only [searchLevels]
              split
              · rfl
              · -- A scope has a larger number than the one around it, so both bounds close in.
                refine @ih more (low + 1) _ (fun id member => ?_) (by omega) (by omega)
                obtain ⟨around, inLevel, below⟩ :=
                  List.mem_flatMap.1 (List.mem_filter.1 member).1
                exact Nat.lt_of_le_of_lt (above around inLevel) (wf.child_lt below).1

/-! Trees with more plain scopes. -/

structure Adds (names : String → Prop) (before after : ScopeTree) : Prop where
  grows : before.Grows after
  frame : ∀ id < before.size, (after.node id).frame = (before.node id).frame
  children : ∀ id < before.size,
    (after.node id).children.filter (· < before.size) = (before.node id).children
  added : ∀ id, before.size ≤ id → id < after.size →
    (after.node id).frame = .value ∧ names (after.node id).name

namespace Adds

variable {names more : String → Prop} {before after : ScopeTree}

theorem refl (wf : tree.WellFormed) : tree.Adds names tree where
  grows := .refl tree
  frame _ _ := rfl
  children id _ := List.filter_eq_self.2 fun child below => by simpa using (wf.child_lt below).2
  added id beyond inside := absurd inside (Nat.not_lt_of_le beyond)

theorem mono (adds : before.Adds names after) (wider : ∀ name, names name → more name) :
    before.Adds more after where
  grows := adds.grows
  frame := adds.frame
  children := adds.children
  added id beyond inside := (adds.added id beyond inside).imp_right (wider _)

theorem trans {a b c : ScopeTree} (first : a.Adds names b) (second : b.Adds names c) :
    a.Adds names c where
  grows := first.grows.trans second.grows
  frame id inside :=
    (second.frame id (Nat.lt_of_lt_of_le inside first.grows.size)).trans (first.frame id inside)
  children id inside := by
    have wider := second.children id (Nat.lt_of_lt_of_le inside first.grows.size)
    rw [← first.children id inside, ← wider, List.filter_filter]
    refine List.filter_congr fun child _ => ?_
    have := first.grows.size
    simp only [Bool.and_eq_decide, decide_eq_true_eq]
    exact decide_eq_decide.2 (by omega)
  added id beyond inside := by
    by_cases old : id < b.size
    · have plain := first.added id beyond old
      rwa [second.frame id old, (second.grows.node id old).name]
    · exact second.added id (Nat.le_of_not_lt old) inside

theorem addChild (wf : tree.WellFormed) (bounded : here < tree.size)
    (missing : tree.child? here name = none) :
    tree.Adds (· = name) (tree.addChild here name .value) where
  grows := grows_addChild missing .value
  frame id inside := by
    rw [node_addChild_of_lt inside]
    split <;> rfl
  children id inside := by
    have unchanged : tree.Adds (· = name) tree := refl wf
    have old := unchanged.children id inside
    rw [children_addChild bounded]
    split
    · rw [List.filter_append, old]
      simp
    · exact old
  added id beyond inside := by
    rw [size_addChild] at inside
    obtain rfl : id = tree.size := by omega
    rw [node_addChild_new]
    exact ⟨rfl, rfl⟩

theorem flatMap_children (adds : before.Adds names after) {level : List ScopeId}
    (inside : ∀ id ∈ level, id < before.size) :
    (level.flatMap fun id => (before.node id).children) =
      (level.flatMap fun id => (after.node id).children).filter (· < before.size) := by
  rw [List.filter_flatMap, List.flatMap_def, List.flatMap_def]
  congr 1
  exact List.map_congr_left fun id member => (adds.children id (inside id member)).symm

theorem find?_named (adds : before.Adds names after) (other : ¬names name) {ids : List ScopeId}
    (bounded : ∀ id ∈ ids, id < after.size) :
    (ids.filter (· < before.size)).find? (fun id => (before.node id).name = name && any id) =
      ids.find? fun id => (after.node id).name = name && any id := by
  rw [List.find?_filter]
  refine List.find?_congr fun id member => ?_
  by_cases old : id < before.size
  · simp [old, (adds.grows.node id old).name]
  · have added := (adds.added id (Nat.le_of_not_lt old) (bounded id member)).2
    have differ : (after.node id).name ≠ name := fun same => other (same ▸ added)
    simp [old, differ]

theorem filter_transparent (adds : before.Adds names after) {ids : List ScopeId}
    (bounded : ∀ id ∈ ids, id < after.size) :
    (ids.filter (· < before.size)).filter (fun id => (before.node id).frame.isTransparent) =
      ids.filter fun id => (after.node id).frame.isTransparent := by
  rw [List.filter_filter]
  refine List.filter_congr fun id member => ?_
  by_cases old : id < before.size
  · simp [old, adds.frame id old]
  · have plain := (adds.added id (Nat.le_of_not_lt old) (bounded id member)).1
    simp [old, plain, FrameKind.isTransparent]

/-- A search for another name goes through the same levels and finds what it found. -/
theorem searchLevels (adds : before.Adds names after) (wf : after.WellFormed)
    (other : ¬names name) (levels : Nat) {level : List ScopeId}
    (inside : ∀ id ∈ level, id < before.size) :
    after.searchLevels (fun id => (after.node id).name = name && any id) levels level =
      before.searchLevels (fun id => (before.node id).name = name && any id) levels level := by
  induction levels generalizing level with
  | zero => rfl
  | succ levels ih =>
      cases level with
      | nil => rfl
      | cons first rest =>
          have bounded : ∀ id ∈ (first :: rest).flatMap fun id => (after.node id).children,
              id < after.size := by
            intro id member
            obtain ⟨around, -, child⟩ := List.mem_flatMap.1 member
            exact (wf.child_lt child).2
          simp only [ScopeTree.searchLevels]
          rw [adds.flatMap_children inside, adds.find?_named other bounded,
            adds.filter_transparent bounded]
          split
          · rfl
          · refine ih fun id member => ?_
            rw [← adds.filter_transparent bounded] at member
            simpa using (List.mem_filter.1 (List.mem_filter.1 member).1).2

theorem ancestry (adds : before.Adds names after) (inside : here < before.size) :
    after.ancestry here = before.ancestry here :=
  ancestry_congr fun id below => (adds.grows.node id (Nat.lt_of_le_of_lt below inside)).parent

theorem findBelow? (adds : before.Adds names after) (wf : before.WellFormed)
    (wf' : after.WellFormed) (other : ¬names name) (inside : here < before.size) :
    after.findBelow? any here name = before.findBelow? any here name := by
  have within : ∀ id ∈ [here], id < before.size := fun id member =>
    List.mem_singleton.1 member ▸ inside
  rw [ScopeTree.findBelow?, ScopeTree.findBelow?, adds.searchLevels wf' other _ within]
  exact searchLevels_enough wf (fun _ _ => Nat.zero_le _) (Nat.le_refl _) adds.grows.size

theorem findUpward? (adds : before.Adds names after) (wf : before.WellFormed)
    (wf' : after.WellFormed) (other : ¬names name) (inside : here < before.size) :
    after.findUpward? any here name = before.findUpward? any here name := by
  rw [ScopeTree.findUpward?, ScopeTree.findUpward?, adds.ancestry inside]
  fun_induction ScopeTree.ancestry before here with
  | case1 id top =>
      simp only [List.findSome?_cons, List.findSome?_nil, adds.findBelow? wf wf' other inside]
  | case2 id around link lower ih =>
      rw [List.findSome?_cons, List.findSome?_cons, adds.findBelow? wf wf' other inside,
        ih (Nat.lt_trans lower inside)]
  | case3 id around link notLower => exact absurd (wf.parent_lt link).1 notLower

theorem search (adds : before.Adds names after) (wf : before.WellFormed) (wf' : after.WellFormed)
    (other : ¬names name) (anchored : Bool) (inside : here < before.size) :
    after.search anchored here name = before.search anchored here name := by
  unfold ScopeTree.search
  rw [adds.findBelow? wf wf' other inside, adds.findUpward? wf wf' other inside]

end Adds

/-- Following a path adds missing children one by one, so a relation that each of them keeps is kept
on the whole way. -/
theorem related_reach {R : ScopeTree → ScopeTree → Prop} {segments : List ScopePath.Segment}
    (refl : ∀ tree : ScopeTree, tree.WellFormed → R tree tree)
    (trans : ∀ {a b c : ScopeTree}, R a b → R b c → R a c)
    (one : ∀ {tree : ScopeTree} {around : ScopeId} {name : String}, tree.WellFormed →
      around < tree.size → tree.child? around name = none → .name name ∈ segments →
        R tree (tree.addChild around name .value))
    (wf : tree.WellFormed) (anchored : Bool) (inside : here < tree.size) :
    R tree (tree.reach anchored here segments).2 := by
  induction segments generalizing tree anchored here with
  | nil => exact refl tree wf
  | cons segment rest ih =>
      have later : ∀ {tree : ScopeTree} {here : ScopeId}, tree.WellFormed → here < tree.size →
          R tree (tree.reach true here rest).2 := fun wf inside =>
        ih (fun wf inside missing member =>
          one wf inside missing (List.mem_cons_of_mem _ member)) wf true inside
      cases segment with
      | root => exact later wf wf.nonempty
      | parent =>
          refine later wf ?_
          cases link : (tree.node here).parent with
          | none => exact inside
          | some around => exact Nat.lt_trans (wf.parent_lt link).1 inside
      | name name =>
          rw [reach_name]
          cases found : tree.search anchored here name with
          | some id => exact later wf (search_lt wf found)
          | none =>
              have missing := child?_eq_none_of_search wf found
              have shaped := wf.addChild inside missing .value
              simp only [ensureChild_eq, missing]
              exact trans (one wf inside missing List.mem_cons_self)
                (later shaped (by simp))

theorem adds_reach (wf : tree.WellFormed) (segments : List ScopePath.Segment) (anchored : Bool)
    (inside : here < tree.size) :
    tree.Adds (fun name => .name name ∈ segments) (tree.reach anchored here segments).2 := by
  refine related_reach (fun _ wf => .refl wf) .trans ?_ wf anchored inside
  intro tree around name wf inside missing member
  exact (Adds.addChild wf inside missing).mono fun other same => by rwa [same]

end Archetype.ScopeTree
